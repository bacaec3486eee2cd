/-!
# Proofs/Except — steps that may break off

What is known of a chain of steps when it came to its end, and when it broke off.

* `bind_eq_ok`, `bind_eq_error` — the first step comes to its end, or the chain breaks off there.
* `mapM_eq_ok`, `mapM_eq_error` — a step that is done for each of some things comes to its end where
  it does so for each of them, and breaks off at one of them.
* `Yields.bind` — what is known of each step of a chain, however it ends, is known of the chain.
-/

namespace DesignTokens

variable {ε ε' α β : Type} {x : Except ε α} {b : β} {e : ε}

theorem bind_eq_ok {f : α → Except ε β} (h : x >>= f = .ok b) : ∃ a, x = .ok a ∧ f a = .ok b := by
  cases x with
  | error e => cases h
  | ok a => exact ⟨a, rfl, h⟩

theorem bind_eq_error {f : α → Except ε β} (h : x >>= f = .error e) :
    x = .error e ∨ ∃ a, x = .ok a ∧ f a = .error e := by
  cases x with
  | error e' =>
    cases h
    exact Or.inl rfl
  | ok a => exact Or.inr ⟨a, rfl, h⟩

theorem map_eq_ok {f : α → β} (h : x.map f = .ok b) : ∃ a, x = .ok a ∧ f a = b := by
  cases x with
  | error e => cases h
  | ok a =>
    cases h
    exact ⟨a, rfl, rfl⟩

theorem map_eq_error {f : α → β} (h : x.map f = .error e) : x = .error e := by
  cases x with
  | error e' =>
    cases h
    rfl
  | ok a => cases h

theorem mapError_eq_error {f : ε → ε'} {e' : ε'} (h : x.mapError f = .error e') :
    ∃ e, x = .error e ∧ f e = e' := by
  cases x with
  | error e =>
    cases h
    exact ⟨e, rfl, rfl⟩
  | ok a => cases h

theorem mapError_eq_ok {f : ε → ε'} {a : α} (h : x.mapError f = .ok a) : x = .ok a := by
  cases x with
  | error e => cases h
  | ok a' =>
    cases h
    rfl

theorem mapM_eq_ok {f : α → Except ε β} {g : α → β} {as : List α} (h : ∀ a ∈ as, f a = .ok (g a)) :
    as.mapM f = .ok (as.map g) := by
  induction as with
  | nil => rfl
  | cons a as ih =>
    rw [List.mapM_cons, h a List.mem_cons_self, ih fun a' ha' => h a' (List.mem_cons_of_mem a ha')]
    rfl

/-- Where all steps come to their end, each of them does. -/
theorem exists_of_mapM_eq_ok {f : α → Except ε β} {as : List α} {bs : List β} {a : α}
    (h : as.mapM f = .ok bs) (ha : a ∈ as) : ∃ b, f a = .ok b := by
  induction as generalizing bs with
  | nil => exact absurd ha List.not_mem_nil
  | cons a' as ih =>
    rw [List.mapM_cons] at h
    obtain ⟨b, ha', h⟩ := bind_eq_ok h
    obtain ⟨bs', has, -⟩ := bind_eq_ok h
    rcases List.mem_cons.1 ha with rfl | ha
    · exact ⟨b, ha'⟩
    · exact ih has ha

theorem mapM_eq_error {f : α → Except ε β} {as : List α} (h : as.mapM f = .error e) :
    ∃ a ∈ as, f a = .error e := by
  induction as with
  | nil => cases h
  | cons a as ih =>
    rw [List.mapM_cons] at h
    rcases bind_eq_error h with ha | ⟨b, -, h⟩
    · exact ⟨a, List.mem_cons_self, ha⟩
    rcases bind_eq_error h with has | ⟨bs, -, h⟩
    · obtain ⟨a', ha', he⟩ := ih has
      exact ⟨a', List.mem_cons_of_mem a ha', he⟩
    · cases h

/-! ## Steps that end one way or the other -/

/-- A step comes to its end with a result of `Q`, or breaks off with a fault of `F`. -/
def Yields (F : ε → Prop) (Q : α → Prop) : Except ε α → Prop
  | .ok a => Q a
  | .error e => F e

namespace Yields

variable {F : ε → Prop} {Q : α → Prop} {R : β → Prop}

theorem bind {f : α → Except ε β} (hx : Yields F Q x) (hf : ∀ a, Q a → Yields F R (f a)) :
    Yields F R (x >>= f) := by
  cases x with
  | error e => exact hx
  | ok a => exact hf a hx

theorem map {f : α → β} (hx : Yields F Q x) (hf : ∀ a, Q a → R (f a)) : Yields F R (x.map f) := by
  cases x with
  | error e => exact hx
  | ok a => exact hf a hx

theorem ite {P : Prop} [Decidable P] {y : Except ε α} (hx : P → Yields F Q x)
    (hy : ¬ P → Yields F Q y) : Yields F Q (if P then x else y) := by
  split
  · exact hx ‹P›
  · exact hy ‹¬ P›

theorem mono {Q' : α → Prop} (hx : Yields F Q x) (hQ : ∀ a, Q a → Q' a) : Yields F Q' x := by
  cases x with
  | error e => exact hx
  | ok a => exact hQ a hx

theorem mono_fault {F' : ε → Prop} (hx : Yields F Q x) (hF : ∀ e, F e → F' e) :
    Yields F' Q x := by
  cases x with
  | error e => exact hF e hx
  | ok a => exact hx

end Yields

end DesignTokens
