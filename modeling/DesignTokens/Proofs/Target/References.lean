import DesignTokens.Proofs.Compile
import DesignTokens.Proofs.Target.Python

/-!
# Proofs/Target/References — the references in the text of a value

Of the text of a value only the references depend on its keys: it is **fixed pieces with a reference
between each two of them**, whatever the keys are.  Tcl writes the references in the order in which
they are listed, a flag before its sides; Python writes the flag between them.

* `IsWoven.append` — such texts one after the other.
* `references_woven` — the text of a value, for both targets.
-/

namespace DesignTokens

/-! ## Pieces with words between them -/

/-- Pieces of a text with a word behind each of them but the last. -/
def woven : List String → List String → String
  | [], _ => ""
  | piece :: _, [] => piece
  | piece :: pieces, word :: words => piece ++ word ++ woven pieces words

/-- Where two texts meet, the last piece of one and the first piece of the other are one piece. -/
theorem woven_append {pieces words : List String} (h : pieces.length = words.length)
    (last first : String) (pieces' words' : List String) :
    woven (pieces ++ [last]) words ++ woven (first :: pieces') words' =
      woven (pieces ++ (last ++ first) :: pieces') (words ++ words') := by
  induction pieces generalizing words with
  | nil =>
    obtain rfl := List.eq_nil_of_length_eq_zero h.symm
    cases words' with
    | nil => rfl
    | cons word words' => simp [woven, String.append_assoc]
  | cons piece pieces ih =>
    obtain ⟨word, words, rfl⟩ := List.exists_cons_of_length_eq_add_one h.symm
    have hrest := ih (Nat.succ.inj h)
    simp only [List.cons_append, woven, String.append_assoc, hrest]

/-- A text that depends on how keys are named is fixed pieces with references between them, given
the words for a reference and the keys that are referred to, in order. -/
def IsWoven (ref : String → String) (keys : List String) (text : (String → String) → String) : Prop :=
  ∃ pieces : List String, pieces.length = keys.length + 1 ∧
    ∀ f, text f = woven pieces (keys.map fun key => ref (f key))

namespace IsWoven

variable {ref : String → String} {keys keys' : List String}
variable {text text' : (String → String) → String}

/-- A text that does not depend on keys. -/
theorem const (s : String) : IsWoven ref [] fun _ => s := ⟨[s], rfl, fun _ => rfl⟩

theorem reference (ref : String → String) (key : String) :
    IsWoven ref [key] fun f => ref (f key) := by
  refine ⟨["", ""], rfl, fun f => ?_⟩
  simp [woven]

/-- **Texts one after the other** are woven of the references of both. -/
theorem append (h : IsWoven ref keys text) (h' : IsWoven ref keys' text') :
    IsWoven ref (keys ++ keys') fun f => text f ++ text' f := by
  obtain ⟨pieces, hlength, htext⟩ := h
  obtain ⟨pieces', hlength', htext'⟩ := h'
  obtain ⟨first, rest, rfl⟩ := List.exists_cons_of_length_eq_add_one hlength'
  rcases List.eq_nil_or_concat pieces with rfl | ⟨front, last, rfl⟩
  · cases hlength
  rw [List.concat_eq_append] at hlength htext
  have hfront : front.length = keys.length := by simpa using hlength
  refine ⟨front ++ (last ++ first) :: rest, ?_, fun f => ?_⟩
  · simp only [List.length_append, List.length_cons] at hlength' ⊢
    omega
  · change text f ++ text' f = _
    rw [htext, htext', woven_append (by rw [List.length_map, hfront]), List.map_append]

end IsWoven

/-! ## Values -/

namespace Expr

/-- The value with its keys renamed. -/
def mapKeys (f : String → String) : Expr → Expr
  | .color hex => .color hex
  | .number text => .number text
  | .reference key => .reference (f key)
  | .conditional flag dark light => .conditional (f flag) (dark.mapKeys f) (light.mapKeys f)
  | .pixels count => .pixels count
  | .font family size bold => .font family size bold

/-- The keys that a value reads, where those of a dark side come before the flag. -/
def darkFirst : Expr → List String
  | .reference key => [key]
  | .conditional flag dark light => dark.darkFirst ++ flag :: light.darkFirst
  | .color _ | .number _ | .pixels _ | .font _ _ _ => []

/-- **The order alone is different.** -/
theorem perm_references (e : Expr) : e.darkFirst.Perm e.references := by
  induction e with
  | color hex => exact .nil
  | number text => exact .nil
  | reference key => exact .refl _
  | conditional flag dark light ihDark ihLight =>
    exact List.perm_middle.trans ((ihDark.append ihLight).cons flag)
  | pixels count => exact .nil
  | font family size bold => exact .nil

@[simp] theorem numbers_mapKeys (f : String → String) (e : Expr) :
    (e.mapKeys f).numbers = e.numbers := by
  induction e with
  | conditional flag dark light ihDark ihLight => rw [mapKeys, numbers, numbers, ihDark, ihLight]
  | color hex | number text | reference key | pixels count | font family size bold => rfl

end Expr

/-- The text of a value for Tcl. -/
theorem Tcl.woven_value (ns : String) (e : Expr) :
    IsWoven variableRef e.references fun f => value ns (e.mapKeys f) := by
  induction e with
  | color hex => exact .const _
  | number text => exact .const _
  | reference key => exact .reference variableRef key
  | conditional flag dark light ihDark ihLight =>
    have hflag := (IsWoven.const "[expr \x7b").append (.reference variableRef flag)
    have hdark := (hflag.append (.const " ? ")).append ihDark
    have hlight := ((hdark.append (.const " : ")).append ihLight).append (.const "\x7d]")
    simpa [Expr.references, Expr.mapKeys, value, choice] using hlight
  | pixels count => exact .const _
  | font family size bold => exact .const _

/-- The text of a value for Python. -/
theorem Python.woven_value (e : Expr) :
    IsWoven variableRef e.darkFirst fun f => value (e.mapKeys f) := by
  induction e with
  | color hex => exact .const _
  | number text => exact .const _
  | reference key => exact .reference variableRef key
  | conditional flag dark light ihDark ihLight =>
    have hdark := (IsWoven.const "(").append ihDark
    have hflag := (hdark.append (.const " if ")).append (.reference variableRef flag)
    have hlight := ((hflag.append (.const " else ")).append ihLight).append (.const ")")
    simpa [Expr.darkFirst, Expr.mapKeys, value, choice] using hlight
  | pixels count => exact .const _
  | font family size bold => exact .const _

/-- **The text of a value holds exactly its references**: pieces that are the same however the keys
are named, with the references between them.  Tcl has them in the order in which they are listed,
and Python has the same ones with each flag behind the dark side. -/
theorem references_woven (ns : String) {e : Expr}
    (h : ∀ text ∈ e.numbers, Size.NumberText text) :
    (∃ pieces : List String, pieces.length = e.references.length + 1 ∧
      ∀ f : String → String, (e.mapKeys f).render (.tcl ns) =
        .ok (woven pieces (e.references.map fun key => Tcl.variableRef (f key)))) ∧
    (∃ pieces : List String, pieces.length = e.darkFirst.length + 1 ∧
      ∀ f : String → String, (e.mapKeys f).render .python =
        .ok (woven pieces (e.darkFirst.map fun key => Python.variableRef (f key)))) ∧
    e.darkFirst.Perm e.references := by
  refine ⟨?_, ?_, e.perm_references⟩
  · obtain ⟨pieces, hlength, htext⟩ := Tcl.woven_value ns e
    exact ⟨pieces, hlength, fun f => (Tcl.render_eq ns _).trans (congrArg Except.ok (htext f))⟩
  · obtain ⟨pieces, hlength, htext⟩ := Python.woven_value e
    refine ⟨pieces, hlength, fun f => ?_⟩
    have hnumbers : ∀ text ∈ (e.mapKeys f).numbers, (Python.numeral? text).isSome = true := by
      rw [Expr.numbers_mapKeys]
      exact fun text htext => Python.isSome_numeral? (h text htext)
    exact (Python.render_eq_of_numbers hnumbers).trans (congrArg Except.ok (htext f))

/-- A choice with another one, and a number, on its dark side. -/
def duskShade : Expr :=
  .conditional "night" (.conditional "dusk" (.reference "coal") (.number "1.5")) (.reference "snow")

/-- The same four references for both targets, each behind a piece of its own. -/
theorem references_woven_duskShade :
    (∀ text ∈ duskShade.numbers, Size.NumberText text) ∧
    (∃ pieces : List String, pieces.length = 5 ∧
      ∀ f : String → String, (duskShade.mapKeys f).render (.tcl "::spectrum") =
        .ok (woven pieces (["night", "dusk", "coal", "snow"].map fun key =>
          Tcl.variableRef (f key)))) ∧
    ∃ pieces : List String, pieces.length = 5 ∧
      ∀ f : String → String, (duskShade.mapKeys f).render .python =
        .ok (woven pieces (["coal", "dusk", "night", "snow"].map fun key =>
          Python.variableRef (f key))) := by
  have hnumbers : ∀ text ∈ duskShade.numbers, Size.NumberText text :=
    List.forall_mem_singleton.2 (.given (by decide))
  obtain ⟨htcl, hpython, -⟩ := references_woven "::spectrum" hnumbers
  exact ⟨hnumbers, htcl, hpython⟩

end DesignTokens
