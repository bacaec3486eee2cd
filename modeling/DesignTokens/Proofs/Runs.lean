/-!
# Proofs/Runs — where the parts of a text end

A text that is put together of parts can be taken apart where something tells their ends: a run of
characters of one kind ends **where a character of another kind follows**, and what stands behind
the last of some mark starts with that mark.

* `run_append_inj` — a run at the front of a text.
* `span_iff` — what is cut off at the front of a text.
* `append_cons_inj` — what stands behind the last mark of a text.
-/

namespace DesignTokens.Text

variable {p : Char → Prop} {u v r r' a b : List Char} {mark : Char}

/-- **A run ends where another character follows.** -/
theorem run_append_inj (hu : ∀ c ∈ u, p c) (hv : ∀ c ∈ v, p c) (hr : ∀ c ∈ r.head?, ¬ p c)
    (hr' : ∀ c ∈ r'.head?, ¬ p c) (h : u ++ r = v ++ r') : u = v ∧ r = r' := by
  induction u generalizing v with
  | nil =>
    cases v with
    | nil => exact ⟨rfl, h⟩
    | cons c v =>
      have hhead : c ∈ r.head? := by
        rw [← List.nil_append r, h]
        rfl
      exact absurd (hv c List.mem_cons_self) (hr c hhead)
  | cons c u ih =>
    cases v with
    | nil =>
      have hhead : c ∈ r'.head? := by
        rw [← List.nil_append r', ← h]
        rfl
      exact absurd (hu c List.mem_cons_self) (hr' c hhead)
    | cons d v =>
      obtain ⟨rfl, htail⟩ := List.cons.inj h
      obtain ⟨rfl, hrest⟩ := ih (fun d hd => hu d (List.mem_cons_of_mem c hd))
        (fun d hd => hv d (List.mem_cons_of_mem c hd)) htail
      exact ⟨rfl, hrest⟩

/-- **What is cut off at the front of a text** is a run with another character behind it. -/
theorem span_iff {q : Char → Bool} {cs : List Char} : cs.takeWhile q = u ∧ cs.dropWhile q = r ↔
    cs = u ++ r ∧ (∀ c ∈ u, q c = true) ∧ ∀ c ∈ r.head?, ¬ q c = true := by
  have happend : cs = cs.takeWhile q ++ cs.dropWhile q := List.takeWhile_append_dropWhile.symm
  have hrun : ∀ c ∈ cs.takeWhile q, q c = true := List.all_eq_true.1 List.all_takeWhile
  have hend : ∀ c ∈ (cs.dropWhile q).head?, ¬ q c = true := by
    intro c hc
    have h := List.head?_dropWhile_not q cs
    rw [Option.mem_def.1 hc] at h
    exact Bool.eq_false_iff.1 h
  constructor
  · rintro ⟨rfl, rfl⟩
    exact ⟨happend, hrun, hend⟩
  · rintro ⟨hcs, hu, hr⟩
    exact run_append_inj hrun hu hend hr (happend.symm.trans hcs)

/-- **What stands behind the last mark of a text.** -/
theorem append_cons_inj (hu : mark ∉ u) (hv : mark ∉ v) (h : a ++ mark :: u = b ++ mark :: v) :
    a = b ∧ u = v := by
  have hrun : ∀ {w : List Char}, mark ∉ w → ∀ c ∈ w.reverse, c ≠ mark := by
    intro w hw c hc hmark
    exact hw (hmark ▸ List.mem_reverse.1 hc)
  have hend : ∀ {w : List Char}, ∀ c ∈ (mark :: w).head?, ¬ c ≠ mark := by
    rintro w c ⟨⟩
    exact not_not_intro rfl
  have hreverse : u.reverse ++ mark :: a.reverse = v.reverse ++ mark :: b.reverse := by
    simpa using congrArg List.reverse h
  obtain ⟨hback, hfront⟩ := run_append_inj (hrun hu) (hrun hv) hend hend hreverse
  exact ⟨List.reverse_inj.1 (List.cons.inj hfront).2, List.reverse_inj.1 hback⟩

end DesignTokens.Text
