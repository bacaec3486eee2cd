import DesignTokens.Load
import DesignTokens.Proofs.Key
import Mathlib

/-!
# Proofs/KeyOrder — the order of keys, and whether it shows in which order they came

Keys are compared by their parts, and different parts are never on a par.  So the comparison is a
**total preorder** in which two keys are on a par exactly where they are taken apart into the same
stem and the same number.  Sorting is stable: what is on a par stays as it stood.  The order in
which keys came can therefore be seen afterwards **exactly where two of them write one number in two
ways** behind the same stem.

* `Key.ordered_sort` — the order, and what sorting does.
* `Key.sort_perm_iff` — when the order in which keys came leaves no trace.
-/

namespace DesignTokens

open Text

/-! ## Parts -/

namespace KeyParts

variable {a b : KeyParts}

/-- The order of parts is the order of stems with that of numbers behind it. -/
instance : Std.TransCmp KeyParts.compare :=
  inferInstanceAs (Std.TransCmp (compareLex (compareOn stem) (compareOn number)))

/-- **Different parts are never on a par.** -/
theorem compare_eq_iff : a.compare b = .eq ↔ a = b := by
  obtain ⟨stem, number⟩ := a
  obtain ⟨stem', number'⟩ := b
  simp only [compare, Ordering.then_eq_eq, Std.LawfulEqOrd.compare_eq_iff_eq, mk.injEq]

end KeyParts

/-! ## Keys -/

namespace Key

variable {a b c key : String} {keys keys' sorted sorted' : List String}

/-- The number at the end of a key, if there is one, has no more digits than the limit. -/
def Short (key : String) : Prop := ∀ p ∈ numbered? key.toList, p.2.length ≤ digitLimit

instance : DecidablePred Short := fun key =>
  inferInstanceAs (Decidable (∀ p ∈ numbered? key.toList, p.2.length ≤ digitLimit))

/-- The parts of a key, however long its number is. -/
def parts (key : String) : KeyParts :=
  match numbered? key.toList with
  | none => ⟨key, none⟩
  | some (stem, digits) => ⟨String.ofList stem, some (digitsValue digits)⟩

/-- **A short key is taken apart.** -/
theorem split_eq (h : Short key) : split key = .ok (parts key) := by
  rw [split, parts]
  cases hnumbered : numbered? key.toList with
  | none => rfl
  | some p => simp only [readDigits_eq_ok_iff.2 ⟨h p hnumbered, rfl⟩]

/-- **Short keys are compared by their parts.** -/
theorem compare_eq (ha : Short a) (hb : Short b) :
    compare a b = .ok ((parts a).compare (parts b)) := by
  rw [compare, split_eq ha, split_eq hb]
  rfl

/-- A key does not come behind another one. -/
def NotAfter (a b : String) : Prop := ∃ o, compare a b = .ok o ∧ o.isLE = true

/-- Whether two keys are on a par. -/
def onPar (a b : String) : Bool :=
  match compare a b with
  | .ok .eq => true
  | _ => false

theorem onPar_iff (ha : Short a) (hb : Short b) : onPar a b = true ↔ parts a = parts b := by
  rw [onPar, compare_eq ha hb, ← KeyParts.compare_eq_iff]
  cases (parts a).compare (parts b) <;> simp

theorem notAfter_iff (ha : Short a) (hb : Short b) :
    NotAfter a b ↔ ((parts a).compare (parts b)).isLE = true := by
  rw [NotAfter, compare_eq ha hb]
  simp

theorem NotAfter.trans (ha : Short a) (hb : Short b) (hc : Short c) (hab : NotAfter a b)
    (hbc : NotAfter b c) : NotAfter a c := by
  rw [notAfter_iff ha hb] at hab
  rw [notAfter_iff hb hc] at hbc
  rw [notAfter_iff ha hc]
  exact Std.TransCmp.isLE_trans hab hbc

/-! ## Sorting -/

/-- Whether a key does not come behind another one, by their parts. -/
def atMost (a b : String) : Bool := ((parts a).compare (parts b)).isLE

theorem atMost_trans (a b c : String) (hab : atMost a b = true) (hbc : atMost b c = true) :
    atMost a c = true :=
  Std.TransCmp.isLE_trans hab hbc

theorem atMost_total (a b : String) : (atMost a b || atMost b a) = true := by
  have hswap : (parts b).compare (parts a) = ((parts a).compare (parts b)).swap :=
    Std.OrientedCmp.eq_swap
  rw [atMost, atMost, hswap]
  cases (parts a).compare (parts b) <;> rfl

/-- Short keys, two of them or more, are all taken apart. -/
theorem splitAll_eq {rest : List String} (h : ∀ key ∈ a :: b :: rest, Short key) :
    splitAll (a :: b :: rest) = .ok ((a :: b :: rest).map fun key => (key, parts key)) := by
  have ha := split_eq (h a List.mem_cons_self)
  have hb := split_eq (h b (List.mem_cons_of_mem _ List.mem_cons_self))
  have hrest : rest.mapM split = .ok (rest.map parts) := mapM_eq_ok fun key hkey =>
    split_eq (h key (List.mem_cons_of_mem _ (List.mem_cons_of_mem _ hkey)))
  rw [splitAll, ha, hb, hrest, List.map_cons, List.map_cons, ← List.zip_map', List.map_id']
  rfl

/-- Keys with their parts are sorted as the keys are. -/
theorem map_fst_mergeSort {ps : List (String × KeyParts)} (h : ∀ p ∈ ps, p.2 = parts p.1) :
    (ps.mergeSort fun p q => (p.2.compare q.2).isLE).map Prod.fst =
      (ps.map Prod.fst).mergeSort atMost :=
  List.map_mergeSort fun p hp q hq => by rw [atMost, h p hp, h q hq]

/-- **Short keys are sorted by their parts.** -/
theorem sort_eq (h : ∀ key ∈ keys, Short key) : sort keys = .ok (keys.mergeSort atMost) := by
  match keys with
  | [] =>
    rw [sort, splitAll, List.mergeSort_nil]
    exact congrArg Except.ok (by rw [List.mergeSort_nil, List.map_nil])
  | [a] => rw [sort_singleton, List.mergeSort_singleton]
  | a :: b :: rest =>
    have hparts := splitAll_eq h
    rw [sort, hparts]
    refine congrArg Except.ok ((map_fst_mergeSort fun p hp => ?_).trans ?_)
    · obtain ⟨key, -, rfl⟩ := List.mem_map.1 hp
      rfl
    · rw [map_fst_splitAll hparts]

/-- Sorting keeps the keys that are on a par with a given one as they stood. -/
theorem filter_onPar_mergeSort (h : ∀ key ∈ keys, Short key) (ha : Short a) :
    (keys.mergeSort atMost).filter (onPar a) = keys.filter (onPar a) := by
  have hpar : (keys.filter (onPar a)).Pairwise fun b c => atMost b c = true := by
    refine List.pairwise_of_forall_mem_list fun b hb c hc => ?_
    obtain ⟨hb, hab⟩ := List.mem_filter.1 hb
    obtain ⟨hc, hac⟩ := List.mem_filter.1 hc
    rw [onPar_iff ha (h b hb)] at hab
    rw [onPar_iff ha (h c hc)] at hac
    rw [atMost, ← hab, ← hac, KeyParts.compare_eq_iff.2 rfl]
    rfl
  -- what is in order already is a sublist of what is sorted, and no shorter than what is on a par
  have hsublist := (List.sublist_mergeSort atMost_trans atMost_total hpar
    List.filter_sublist).filter (onPar a)
  simp only [List.filter_filter, Bool.and_self] at hsublist
  have hlength := ((List.mergeSort_perm keys atMost).filter (onPar a)).length_eq
  exact (hsublist.eq_of_length hlength.symm).symm

/-- **Keys are in a total order but for those on a par, and sorting brings them into it.**  Short
keys can be compared, the other way round with the other result; they are on a par exactly where
they are taken apart alike, and what does not come behind a key does not come behind those that come
after it.  Sorting gives the same keys, none behind a later one, and those that are on a par with a
key as they stood. -/
theorem ordered_sort :
    (∀ a b, Short a → Short b → ∃ o, compare a b = .ok o ∧ compare b a = .ok o.swap ∧
        (o = .eq ↔ split a = split b)) ∧
      (∀ a b c, Short a → Short b → Short c → NotAfter a b → NotAfter b c → NotAfter a c) ∧
      ∀ keys, (∀ key ∈ keys, Short key) → ∃ sorted, sort keys = .ok sorted ∧ sorted.Perm keys ∧
        sorted.Pairwise NotAfter ∧
        ∀ a, Short a → sorted.filter (onPar a) = keys.filter (onPar a) := by
  refine ⟨fun a b ha hb => ⟨_, compare_eq ha hb, ?_, ?_⟩,
    fun a b c ha hb hc => NotAfter.trans ha hb hc,
    fun keys h => ⟨_, sort_eq h, List.mergeSort_perm keys atMost, ?_,
      fun a => filter_onPar_mergeSort h⟩⟩
  · rw [compare_eq hb ha]
    exact congrArg Except.ok Std.OrientedCmp.eq_swap
  · rw [split_eq ha, split_eq hb, KeyParts.compare_eq_iff, Except.ok.injEq]
  · refine (List.pairwise_mergeSort atMost_trans atMost_total keys).imp_of_mem
      fun {a b} ha hb hab => ?_
    rw [List.mem_mergeSort] at ha hb
    exact (notAfter_iff (h a ha) (h b hb)).2 hab

/-- A plain key, one with a number, and two that write another number in two ways: these two stay as
they stood. -/
theorem ordered_sort_grays :
    (∀ key ∈ ["gray-10", "gray-2", "gray", "gray-02"], Short key) ∧
      ∃ sorted, sort ["gray-10", "gray-2", "gray", "gray-02"] = .ok sorted ∧
        sorted = ["gray", "gray-2", "gray-02", "gray-10"] ∧ sorted.Pairwise NotAfter ∧
        sorted.filter (onPar "gray-02") = ["gray-2", "gray-02"] := by
  have hshort : ∀ key ∈ ["gray-10", "gray-2", "gray", "gray-02"], Short key := by decide
  obtain ⟨sorted, hsort, -, hpairwise, hpar⟩ := ordered_sort.2.2 _ hshort
  have hcompute : sort ["gray-10", "gray-2", "gray", "gray-02"] =
      .ok ["gray", "gray-2", "gray-02", "gray-10"] := by cbv
  refine ⟨hshort, sorted, hsort, Except.ok.inj (hsort.symm.trans hcompute), hpairwise, ?_⟩
  rw [hpar "gray-02" (by decide)]
  cbv

/-! ## The order in which keys came -/

/-- Two keys end in one number behind the same stem, however they write it. -/
def SameNumber (a b : String) : Prop :=
  ∃ stem digits digits', numbered? a.toList = some (stem, digits) ∧
    numbered? b.toList = some (stem, digits') ∧ digitsValue digits = digitsValue digits'

/-- **Two keys have the same parts where they are one or end in one number.** -/
theorem parts_eq_iff : parts a = parts b ↔ a = b ∨ SameNumber a b := by
  constructor
  · intro h
    unfold parts at h
    split at h
    · split at h
      · exact Or.inl (KeyParts.mk.inj h).1
      · cases (KeyParts.mk.inj h).2
    · rename_i stem digits ha
      split at h
      · cases (KeyParts.mk.inj h).2
      · rename_i stem' digits' hb
        obtain ⟨hstem, hnumber⟩ := KeyParts.mk.inj h
        obtain rfl := String.ofList_inj.1 hstem
        exact Or.inr ⟨stem, digits, digits', ha, hb, Option.some.inj hnumber⟩
  · rintro (rfl | ⟨stem, digits, digits', ha, hb, hvalue⟩)
    · rfl
    · simp only [parts, ha, hb, hvalue]

theorem perm_mergeSort (h : keys'.Perm keys) :
    (keys'.mergeSort atMost).Perm (keys.mergeSort atMost) :=
  (List.mergeSort_perm keys' atMost).trans (h.trans (List.mergeSort_perm keys atMost).symm)

/-- Keys in another order have the same parts in the same order, once they are sorted. -/
theorem map_parts_mergeSort (h : keys'.Perm keys) :
    (keys'.mergeSort atMost).map parts = (keys.mergeSort atMost).map parts := by
  have hsorted : ∀ keys : List String, ((keys.mergeSort atMost).map parts).Pairwise
      fun p q => (p.compare q).isLE = true := fun keys =>
    List.pairwise_map.2 (List.pairwise_mergeSort atMost_trans atMost_total keys)
  exact List.Perm.eq_of_pairwise (fun p q _ _ hpq hqp =>
    KeyParts.compare_eq_iff.1 (Std.OrientedCmp.isLE_antisymm hpq hqp))
    (hsorted keys') (hsorted keys) ((perm_mergeSort h).map parts)

/-- Short keys with the same parts in the same order are taken apart alike. -/
theorem map_split_congr (h : ∀ key ∈ keys, Short key) (h' : ∀ key ∈ keys', Short key)
    (hparts : keys'.map parts = keys.map parts) : keys'.map split = keys.map split := by
  have hsplit : ∀ {keys : List String}, (∀ key ∈ keys, Short key) →
      keys.map split = (keys.map parts).map Except.ok := by
    intro keys h
    rw [List.map_map]
    exact List.map_congr_left fun key hkey => split_eq (h key hkey)
  rw [hsplit h, hsplit h', hparts]

/-- Keys with parts of their own are sorted alike, in whatever order they come. -/
theorem mergeSort_eq_of_perm (h : keys'.Perm keys)
    (hparts : ∀ a ∈ keys, ∀ b ∈ keys, parts a = parts b → a = b) :
    keys'.mergeSort atMost = keys.mergeSort atMost := by
  refine List.Perm.eq_of_pairwise (fun a b ha hb hab hba => ?_)
    (List.pairwise_mergeSort atMost_trans atMost_total keys')
    (List.pairwise_mergeSort atMost_trans atMost_total keys) (perm_mergeSort h)
  rw [List.mem_mergeSort] at ha hb
  exact hparts a (h.mem_iff.1 ha) b hb
    (KeyParts.compare_eq_iff.1 (Std.OrientedCmp.isLE_antisymm hab hba))

/-- Where no order in which keys come shows, keys with the same parts are the same: put in front, a
key comes first among those that are on a par with it. -/
theorem eq_of_mergeSort_eq (h : ∀ key ∈ keys, Short key)
    (hperm : ∀ keys' : List String, keys'.Perm keys →
      keys'.mergeSort atMost = keys.mergeSort atMost)
    (ha : a ∈ keys) (hb : b ∈ keys) (hparts : parts a = parts b) : a = b := by
  have hfront : ∀ {c : String}, c ∈ keys → parts a = parts c →
      ((keys.mergeSort atMost).filter (onPar a)).head? = some c := by
    intro c hc hac
    have hmoved : (c :: keys.erase c).Perm keys := (List.perm_cons_erase hc).symm
    have hshort : ∀ key ∈ c :: keys.erase c, Short key := fun key hkey =>
      h key (hmoved.mem_iff.1 hkey)
    rw [← hperm _ hmoved, filter_onPar_mergeSort hshort (h a ha),
      List.filter_cons_of_pos ((onPar_iff (h a ha) (h c hc)).2 hac), List.head?_cons]
  exact Option.some.inj ((hfront ha rfl).symm.trans (hfront hb hparts))

end Key

/-! ## Files -/

namespace PlannedFile

/-- A file with the same members in another order. -/
structure Reordered (file file' : PlannedFile) : Prop where
  name_eq : file'.name = file.name
  category_eq : file'.category = file.category
  entries : file'.entries.Perm file.entries

variable {flag : String} {file file' : PlannedFile}

theorem Reordered.occurrence_eq (h : Reordered file file') (key : String) (entry : Json.Value) :
    file'.occurrence flag key entry = file.occurrence flag key entry := by
  rw [occurrence, occurrence, h.name_eq, h.category_eq]

theorem Reordered.get?_eq (h : Reordered file file') (hnodup : (file.entries.map Prod.fst).Nodup)
    (key : String) : Entries.get? key file'.entries = Entries.get? key file.entries := by
  have hnodup' : (file'.entries.map Prod.fst).Nodup := (h.entries.map Prod.fst).nodup_iff.2 hnodup
  refine Option.ext fun entry => ?_
  rw [Entries.get?_eq_some_iff hnodup, Entries.get?_eq_some_iff hnodup', h.entries.mem_iff]

/-- In the same order of keys, the members are gone through alike. -/
theorem Reordered.walkKeys_eq (h : Reordered file file')
    (hnodup : (file.entries.map Prod.fst).Nodup) (keys : List String) :
    file'.walkKeys flag keys = file.walkKeys flag keys := by
  induction keys with
  | nil => rfl
  | cons key rest ih => rw [walkKeys, walkKeys, h.occurrence_eq, h.get?_eq hnodup, ih]

end PlannedFile

namespace Key

variable {keys : List String}

/-- **The order in which keys come shows exactly where two of them write one number in two ways.**
Whatever the order, sorting gives the same stems and numbers in the same order.  It gives the same
keys for every order if and only if no two different keys end in one number behind the same stem;
and then a file is gone through alike, in whatever order its members stand. -/
theorem sort_perm_iff (h : ∀ key ∈ keys, Short key) :
    (∀ keys' : List String, keys'.Perm keys → ∃ sorted sorted', sort keys = .ok sorted ∧
        sort keys' = .ok sorted' ∧ sorted'.Perm sorted ∧ sorted'.map split = sorted.map split) ∧
      ((∀ keys' : List String, keys'.Perm keys → sort keys' = sort keys) ↔
        ∀ a ∈ keys, ∀ b ∈ keys, SameNumber a b → a = b) ∧
      ((∀ a ∈ keys, ∀ b ∈ keys, SameNumber a b → a = b) →
        ∀ (flag : String) (file file' : PlannedFile), file.entries.map Prod.fst = keys →
          keys.Nodup → file.Reordered file' → file'.walk flag = file.walk flag) := by
  have hshort : ∀ {keys' : List String}, keys'.Perm keys → ∀ key ∈ keys', Short key :=
    fun hperm key hkey => h key (hperm.mem_iff.1 hkey)
  have hsame : (∀ a ∈ keys, ∀ b ∈ keys, SameNumber a b → a = b) →
      ∀ keys' : List String, keys'.Perm keys → sort keys' = sort keys := by
    intro hnumber keys' hperm
    rw [sort_eq h, sort_eq (hshort hperm), mergeSort_eq_of_perm hperm fun a ha b hb hparts =>
      (parts_eq_iff.1 hparts).elim id (hnumber a ha b hb)]
  refine ⟨fun keys' hperm => ?_, ⟨fun hperm a ha b hb hnumber => ?_, hsame⟩,
    fun hnumber flag file file' hkeys hnodup hfile => ?_⟩
  · refine ⟨_, _, sort_eq h, sort_eq (hshort hperm), perm_mergeSort hperm, ?_⟩
    exact map_split_congr (fun key hkey => h key (List.mem_mergeSort.1 hkey))
      (fun key hkey => hshort hperm key (List.mem_mergeSort.1 hkey)) (map_parts_mergeSort hperm)
  · refine eq_of_mergeSort_eq h (fun keys' hkeys' => ?_) ha hb (parts_eq_iff.2 (Or.inr hnumber))
    have heq := hperm keys' hkeys'
    rw [sort_eq h, sort_eq (hshort hkeys')] at heq
    exact Except.ok.inj heq
  · have hsort : sort (file'.entries.map Prod.fst) = sort (file.entries.map Prod.fst) := by
      rw [hkeys]
      exact hsame hnumber _ (hkeys ▸ hfile.entries.map Prod.fst)
    rw [PlannedFile.walk, PlannedFile.walk, hsort]
    simp only [hfile.walkKeys_eq (hkeys ▸ hnodup)]

/-- Two keys that write the number one in two ways stay as they stood, in either order. -/
theorem sort_perm_iff_ones :
    (∀ key ∈ ["a-1", "a-01"], Short key) ∧ SameNumber "a-1" "a-01" ∧
      ¬ (∀ keys' : List String, keys'.Perm ["a-1", "a-01"] → sort keys' = sort ["a-1", "a-01"]) ∧
      sort ["a-1", "a-01"] = .ok ["a-1", "a-01"] ∧ sort ["a-01", "a-1"] = .ok ["a-01", "a-1"] := by
  have hshort : ∀ key ∈ ["a-1", "a-01"], Short key := by decide
  have hnumber : SameNumber "a-1" "a-01" :=
    ⟨['a'], ['1'], ['0', '1'], by decide, by decide, by decide⟩
  refine ⟨hshort, hnumber, fun hall => ?_, by cbv, by cbv⟩
  have heq := (sort_perm_iff hshort).2.1.1 hall "a-1" (by simp) "a-01" (by simp) hnumber
  exact absurd heq (by decide)

end Key

end DesignTokens
