import DesignTokens.Expr
import DesignTokens.Json.Value
import DesignTokens.OrderedMap

/-!
# Token — design tokens and the table they live in

A token is a key with its value; it remembers the entry it was made from and the file that held it,
but these do not count when two tokens are compared.  A table holds the tokens of one run by their
keys: adding a token whose key is there replaces the token and keeps its place.
-/

namespace DesignTokens

/-- What the tokens of a file are about, which decides how their values are read. -/
inductive Category where
  | color
  | layout
  | font
  deriving DecidableEq, Repr

/-- The name of a category. -/
def Category.name : Category → String
  | .color => "color"
  | .layout => "layout"
  | .font => "font"

/-- A design token. -/
structure Token where
  key : String
  value : Expr
  category : Category
  /-- The entry of the token file that it was made from. -/
  raw : Json.Value
  /-- The file that held the entry. -/
  source : Option String
  /-- The keys that its value depends on. -/
  dependencies : List String

/-- Whether two tokens agree in all that counts: where they come from does not. -/
def Token.agrees (a b : Token) : Bool :=
  a.key == b.key && a.value == b.value && a.category == b.category &&
    a.dependencies == b.dependencies

/-- Why a token is missing from the output. -/
structure Diagnostic where
  key : String
  message : String
  source : Option String
  deriving DecidableEq, Repr

/-- The keys of a run and what each of them depends on. -/
abbrev Graph := OrderedMap String (List String)

/-- The tokens of one run, in the order in which their keys were found. -/
structure TokenTable where
  byKey : OrderedMap String Token
  /-- Every token is filed under its own key. -/
  key_eq : ∀ e ∈ byKey.entries, e.2.key = e.1

namespace TokenTable

/-- The table without tokens. -/
def empty : TokenTable := ⟨.empty, by simp [OrderedMap.empty]⟩

instance : Inhabited TokenTable := ⟨empty⟩

theorem mem_put {k : String} {t : Token} {es : List (String × Token)} {e : String × Token}
    (h : e ∈ Entries.put k t es) : e = (k, t) ∨ e ∈ es := by
  induction es with
  | nil => exact Or.inl (List.mem_singleton.1 h)
  | cons e' rest ih =>
    rw [Entries.put] at h
    split at h
    · rcases List.mem_cons.1 h with h | h
      · exact Or.inl h
      · exact Or.inr (List.mem_cons_of_mem _ h)
    · rcases List.mem_cons.1 h with h | h
      · exact Or.inr (h ▸ List.mem_cons_self)
      · exact (ih h).imp_right (List.mem_cons_of_mem _)

/-- Adds a token, or replaces the one of its key. -/
def add (t : TokenTable) (token : Token) : TokenTable :=
  ⟨t.byKey.insert token.key token, fun e he => by
    rcases mem_put he with rfl | he
    · rfl
    · exact t.key_eq e he⟩

/-- The tokens added one after the other. -/
def ofList (tokens : List Token) : TokenTable := tokens.foldl add empty

/-- The keys, in the order in which they were found. -/
def keys (t : TokenTable) : List String := t.byKey.keys

/-- The tokens, in the order of their keys. -/
def tokens (t : TokenTable) : List Token := t.byKey.values

/-- The token of a key. -/
def get? (t : TokenTable) (key : String) : Option Token := t.byKey.get? key

/-- How many tokens there are. -/
def size (t : TokenTable) : Nat := t.byKey.size

/-- What each key depends on. -/
def graph (t : TokenTable) : Graph := t.byKey.mapValues Token.dependencies

end TokenTable

end DesignTokens
