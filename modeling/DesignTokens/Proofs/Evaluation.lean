import DesignTokens.Proofs.Table
import Mathlib.Logic.Function.Basic

/-!
# Proofs/Evaluation — what declarations in order come to

A runtime gives each kind of literal a value and keeps variables.  Declarations are assignments, one
after the other, each of which may read what is bound before it.  **Read together they are a system
of equations**, one for each key; where every token stands behind what it reads, executing them one
after the other solves it, and nothing else does.

* `Declared.execute_eq_ok` — an execution that reads only what is bound ends in a solution.
* `Declared.eq_on_keys` — two solutions that agree before the declarations agree behind them.
* `execute_sorted` — the scheduled tokens of a table without cycles, executed in order.
-/

namespace DesignTokens

variable {V : Type}

/-- What a runtime makes of the literals in a value, and of its flag. -/
structure Interpretation (V : Type) where
  color : (hex : String) → V
  number : (text : String) → V
  pixels : (count : Int) → V
  font : (family size : String) → (bold : Bool) → V
  /-- Whether the flag, where it has this value, chooses the dark side. -/
  holds : V → Bool

/-- The variables of a runtime, with what is bound to them. -/
abbrev Environment (V : Type) := String → Option V

/-- A variable was read that nothing is bound to. -/
structure Unbound where
  name : String

namespace Environment

variable {env env' : Environment V} {k : String} {v : V}

/-- The environment in which one variable is bound. -/
def only (name : String) (v : V) : Environment V := Function.update (fun _ => none) name (some v)

/-- Reads a variable. -/
def read (env : Environment V) (name : String) : Except Unbound V :=
  match env name with
  | some v => .ok v
  | none => .error ⟨name⟩

theorem read_eq_ok_iff : env.read k = .ok v ↔ env k = some v := by
  unfold read
  cases env k <;> simp

theorem isSome_only_iff {name : String} : (only name v k).isSome ↔ k ∈ [name] := by
  rw [List.mem_singleton, only]
  by_cases hk : k = name
  · simp [hk]
  · simp [hk]

/-- Environments that are read alike bind alike. -/
theorem eq_of_read_eq (h : env.read k = env'.read k) : env k = env' k := by
  refine Option.ext fun v => ?_
  rw [← read_eq_ok_iff, h, read_eq_ok_iff]

end Environment

/-! ## Values -/

namespace Expr

variable {env env' : Environment V} {e dark light : Expr} {flag : String}

/-- A choice reads its flag and what either side reads. -/
theorem forall_references_conditional {P : String → Prop} :
    (∀ k ∈ (conditional flag dark light).references, P k) ↔
      P flag ∧ (∀ k ∈ dark.references, P k) ∧ ∀ k ∈ light.references, P k := by
  simp [references, or_imp, forall_and]

/-- The value of an expression: of a choice, only the chosen side is looked at. -/
def eval (I : Interpretation V) (env : Environment V) : Expr → Except Unbound V
  | .color hex => .ok (I.color hex)
  | .number text => .ok (I.number text)
  | .reference key => env.read key
  | .conditional flag dark light => do
    if I.holds (← env.read flag) then dark.eval I env else light.eval I env
  | .pixels count => .ok (I.pixels count)
  | .font family size bold => .ok (I.font family size bold)

/-- **A value depends only on the variables it reads.** -/
theorem eval_congr (I : Interpretation V) (h : ∀ k ∈ e.references, env k = env' k) :
    e.eval I env = e.eval I env' := by
  induction e with
  | color hex => rfl
  | number text => rfl
  | reference key =>
    rw [eval, eval, Environment.read, Environment.read, h key (List.mem_singleton_self key)]
  | conditional flag dark light ihDark ihLight =>
    obtain ⟨hflag, hdark, hlight⟩ := forall_references_conditional.1 h
    rw [eval, eval, Environment.read, Environment.read, hflag, ihDark hdark, ihLight hlight]
  | pixels count => rfl
  | font family size bold => rfl

/-- **A value whose variables are bound can be computed.** -/
theorem exists_eval_eq_ok (I : Interpretation V) (h : ∀ k ∈ e.references, (env k).isSome) :
    ∃ v, e.eval I env = .ok v := by
  induction e with
  | color hex => exact ⟨_, rfl⟩
  | number text => exact ⟨_, rfl⟩
  | reference key =>
    obtain ⟨v, hv⟩ := Option.isSome_iff_exists.1 (h key (List.mem_singleton_self key))
    exact ⟨v, Environment.read_eq_ok_iff.2 hv⟩
  | conditional flag dark light ihDark ihLight =>
    obtain ⟨hflag, hdark, hlight⟩ := forall_references_conditional.1 h
    obtain ⟨b, hb⟩ := Option.isSome_iff_exists.1 hflag
    rw [eval, Environment.read_eq_ok_iff.2 hb]
    cases hholds : I.holds b with
    | true => simpa [bind, Except.bind, hholds] using ihDark hdark
    | false => simpa [bind, Except.bind, hholds] using ihLight hlight
  | pixels count => exact ⟨_, rfl⟩
  | font family size bold => exact ⟨_, rfl⟩

end Expr

/-! ## Declarations -/

/-- Executes tokens as assignments, one after the other. -/
def execute (I : Interpretation V) (env : Environment V) :
    List Token → Except Unbound (Environment V)
  | [] => .ok env
  | t :: rest => do
    let v ← t.value.eval I env
    execute I (Function.update env t.key (some v)) rest

/-- Each token reads only names that are there before it, and its own key is new among them. -/
inductive Declared : List String → List Token → Prop
  | nil (names : List String) : Declared names []
  | cons (names : List String) (t : Token) (rest : List Token)
      (reads : ∀ k ∈ t.value.references, k ∈ names) (fresh : t.key ∉ names)
      (later : Declared (names ++ [t.key]) rest) : Declared names (t :: rest)

/-- An environment that solves the equations of some tokens: it binds the flag and their keys, the
flag to a given value and each key to the value of its token in the environment itself. -/
structure Solves (I : Interpretation V) (flag : String) (b : V) (tokens : List Token)
    (env : Environment V) : Prop where
  flag_eq : env flag = some b
  isSome_iff : ∀ k, (env k).isSome ↔ k = flag ∨ k ∈ tokens.map Token.key
  read_eq : ∀ t ∈ tokens, env.read t.key = t.value.eval I env

namespace Declared

variable {I : Interpretation V} {names : List String} {tokens : List Token}
variable {env env' : Environment V}

/-- **An execution that reads only what is bound goes through.**  It keeps what was bound, binds the
keys of the tokens besides, and leaves each key with the value of its token. -/
theorem execute_eq_ok (h : Declared names tokens) (hnames : ∀ k, (env k).isSome ↔ k ∈ names) :
    ∃ env', execute I env tokens = .ok env' ∧ (∀ k ∈ names, env' k = env k) ∧
      (∀ k, (env' k).isSome ↔ k ∈ names ∨ k ∈ tokens.map Token.key) ∧
      ∀ t ∈ tokens, env'.read t.key = t.value.eval I env' := by
  induction h generalizing env with
  | nil names =>
    refine ⟨env, rfl, fun _ _ => rfl, fun k => ?_, fun t ht => absurd ht List.not_mem_nil⟩
    rw [hnames, List.map_nil, or_iff_left List.not_mem_nil]
  | cons names t rest reads fresh later ih =>
    obtain ⟨v, hv⟩ := Expr.exists_eval_eq_ok I fun k hk => (hnames k).2 (reads k hk)
    have hold : ∀ k ∈ names, Function.update env t.key (some v) k = env k := fun k hk =>
      Function.update_of_ne (ne_of_mem_of_not_mem hk fresh) _ _
    have hnames' : ∀ k, (Function.update env t.key (some v) k).isSome ↔ k ∈ names ++ [t.key] := by
      intro k
      rw [List.mem_append, List.mem_singleton, ← hnames]
      by_cases hk : k = t.key
      · simp [hk]
      · simp [hk]
    obtain ⟨env', hexecute, hkept, hbound, hsolved⟩ := ih hnames'
    have hkept' : ∀ k ∈ names, env' k = env k := fun k hk =>
      (hkept k (List.mem_append_left _ hk)).trans (hold k hk)
    refine ⟨env', ?_, hkept', fun k => ?_, fun t' ht' => ?_⟩
    · rw [execute, hv]
      exact hexecute
    · rw [hbound, List.mem_append, List.mem_singleton, List.map_cons, List.mem_cons, or_assoc]
    · rcases List.mem_cons.1 ht' with rfl | ht'
      · -- what the token read before its assignment it reads at the end
        rw [Expr.eval_congr I fun k hk => hkept' k (reads k hk), hv, Environment.read_eq_ok_iff,
          hkept _ (List.mem_append_right _ (List.mem_singleton_self _)), Function.update_self]
      · exact hsolved t' ht'

/-- **Two solutions that agree before the declarations agree behind them.** -/
theorem eq_on_keys (h : Declared names tokens) (hnames : ∀ k ∈ names, env k = env' k)
    (henv : ∀ t ∈ tokens, env.read t.key = t.value.eval I env)
    (henv' : ∀ t ∈ tokens, env'.read t.key = t.value.eval I env') :
    ∀ k ∈ tokens.map Token.key, env k = env' k := by
  induction h with
  | nil names => exact fun k hk => absurd hk List.not_mem_nil
  | cons names t rest reads fresh later ih =>
    have hkey : env t.key = env' t.key := by
      refine Environment.eq_of_read_eq ?_
      rw [henv t List.mem_cons_self, henv' t List.mem_cons_self]
      exact Expr.eval_congr I fun k hk => hnames k (reads k hk)
    have hnames' : ∀ k ∈ names ++ [t.key], env k = env' k := by
      intro k hk
      rcases List.mem_append.1 hk with hk | hk
      · exact hnames k hk
      · rw [List.mem_singleton.1 hk, hkey]
    intro k hk
    rcases List.mem_cons.1 hk with rfl | hk
    · exact hkey
    · exact ih hnames' (fun t' ht' => henv t' (List.mem_cons_of_mem _ ht'))
        (fun t' ht' => henv' t' (List.mem_cons_of_mem _ ht')) k hk

/-- **The equations of tokens have one solution at most.** -/
theorem eq_of_solves {flag : String} {b : V} (h : Declared [flag] tokens)
    (henv : Solves I flag b tokens env) (henv' : Solves I flag b tokens env') : env = env' := by
  have hflag : ∀ k ∈ [flag], env k = env' k := by
    intro k hk
    rw [List.mem_singleton.1 hk, henv.flag_eq, henv'.flag_eq]
  have hkeys := h.eq_on_keys hflag henv.read_eq henv'.read_eq
  funext k
  by_cases hk : k = flag ∨ k ∈ tokens.map Token.key
  · rcases hk with rfl | hk
    · exact hflag _ (List.mem_singleton_self _)
    · exact hkeys k hk
  · have hnone := mt (henv.isSome_iff k).1 hk
    have hnone' := mt (henv'.isSome_iff k).1 hk
    rw [Option.not_isSome_iff_eq_none] at hnone hnone'
    rw [hnone, hnone']

/-- Tokens are declared one after the other where each of them is, behind those before it. -/
theorem of_splits {flag : String} (done tokens : List Token)
    (h : ∀ before t after, done ++ tokens = before ++ t :: after →
      (∀ k ∈ t.value.references, k ∈ flag :: before.map Token.key) ∧
        t.key ∉ flag :: before.map Token.key) :
    Declared (flag :: done.map Token.key) tokens := by
  induction tokens generalizing done with
  | nil => exact .nil _
  | cons t rest ih =>
    obtain ⟨hreads, hfresh⟩ := h done t rest rfl
    refine .cons _ t rest hreads hfresh ?_
    have hlater := ih (done ++ [t]) fun before t' after hsplit =>
      h before t' after (by rw [← hsplit, List.append_assoc, List.singleton_append])
    rwa [List.map_append, List.map_singleton, ← List.cons_append] at hlater

end Declared

/-! ## The scheduled tokens of a table -/

variable {table : TokenTable} {flag : String}

/-- **Where no scheduled token depends on itself, each stands behind what it reads.** -/
theorem TokenTable.Derived.declared_sorted (h : table.Derived flag) (hflag : flag ∉ table.keys)
    (hacyclic : ∀ t ∈ table.sorted, ¬ table.graph.DependsOn t.key t.key) :
    Declared [flag] table.sorted := by
  refine Declared.of_splits [] table.sorted fun before t after hsplit => ?_
  rw [List.nil_append] at hsplit
  have ht : t ∈ table.sorted := hsplit ▸ List.mem_append_right _ List.mem_cons_self
  have htoken := get?_of_mem_sorted ht
  constructor
  · intro k hk
    rw [List.mem_cons, or_iff_not_imp_left]
    intro hk'
    obtain ⟨-, hlt | hback⟩ := h.idxOf_lt_or_dependsOn ht hk hk'
    · exact mem_before_of_idxOf_lt hsplit hlt
    · exact absurd (.head (h.edge htoken hk hk') hback) (hacyclic t ht)
  · rw [List.mem_cons, not_or]
    refine ⟨fun he => hflag ?_, not_mem_before hsplit⟩
    rw [← he]
    exact OrderedMap.mem_keys_of_get? htoken

/-- **The scheduled tokens mean the same in order and together.**  In a table without cycles and
without a token for the flag, executing them from the flag alone reads nothing that is unbound and
ends in the one environment that solves their equations. -/
theorem execute_sorted (I : Interpretation V) (b : V) (h : table.Derived flag)
    (hflag : flag ∉ table.keys)
    (hacyclic : ∀ t ∈ table.sorted, ¬ table.graph.DependsOn t.key t.key) :
    ∃ env, execute I (.only flag b) table.sorted = .ok env ∧
      Solves I flag b table.sorted env ∧
      ∀ env', Solves I flag b table.sorted env' → env' = env := by
  have hdeclared := h.declared_sorted hflag hacyclic
  have hnames : ∀ k, (Environment.only flag b k).isSome ↔ k ∈ [flag] := fun _ =>
    Environment.isSome_only_iff
  obtain ⟨env, hexecute, hkept, hbound, hsolved⟩ := hdeclared.execute_eq_ok (I := I) hnames
  have hsolves : Solves I flag b table.sorted env := by
    refine ⟨?_, fun k => ?_, hsolved⟩
    · rw [hkept flag (List.mem_singleton_self flag), Environment.only, Function.update_self]
    · rw [hbound, List.mem_singleton]
  refine ⟨env, hexecute, hsolves, fun env' hsolves' => ?_⟩
  exact hdeclared.eq_of_solves hsolves' hsolves

/-- A choice that reads a colour, a colour that is missing for its dependency, and a colour. -/
def inkTokens : List Token :=
  [⟨"ink-color", .conditional "darkmode" (.color "#FFFFFF") (.reference "shade"), .color, .null,
      none, ["shade"]⟩,
    ⟨"lost-color", .reference "gone", .color, .null, none, ["gone"]⟩,
    ⟨"shade", .color "#101010", .color, .null, none, []⟩]

/-- Values that are texts; the flag is set where its text says so. -/
def textual : Interpretation String :=
  { color := id
    number := id
    pixels := toString
    font := fun family size _ => family ++ " " ++ size
    holds := (· == "dark") }

theorem execute_sorted_ink :
    (TokenTable.ofList inkTokens).Derived "darkmode" ∧
      "darkmode" ∉ (TokenTable.ofList inkTokens).keys ∧
      (∀ t ∈ (TokenTable.ofList inkTokens).sorted,
        ¬ (TokenTable.ofList inkTokens).graph.DependsOn t.key t.key) ∧
      ∃ env,
        execute textual (.only "darkmode" "light") (TokenTable.ofList inkTokens).sorted = .ok env ∧
        Solves textual "darkmode" "light" (TokenTable.ofList inkTokens).sorted env ∧
        ∀ env', Solves textual "darkmode" "light" (TokenTable.ofList inkTokens).sorted env' →
          env' = env := by
  have hderived : (TokenTable.ofList inkTokens).Derived "darkmode" :=
    TokenTable.derived_ofList (by decide)
  have hflag : "darkmode" ∉ (TokenTable.ofList inkTokens).keys := by decide
  have hacyclic : ∀ t ∈ (TokenTable.ofList inkTokens).sorted,
      ¬ (TokenTable.ofList inkTokens).graph.DependsOn t.key t.key := fun t _ =>
    Graph.not_dependsOn_self String.length (by decide)
  exact ⟨hderived, hflag, hacyclic, execute_sorted textual "light" hderived hflag hacyclic⟩

example : (execute textual (.only "darkmode" "light") (TokenTable.ofList inkTokens).sorted).map
    (fun env => (env "ink-color", env "lost-color")) = .ok (some "#101010", none) := by cbv

end DesignTokens
