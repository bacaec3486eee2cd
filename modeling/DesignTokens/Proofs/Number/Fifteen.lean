import DesignTokens.Proofs.Number.Shortest

/-!
# Proofs/Number/Fifteen — fifteen digits are kept

A number of full length is rounded by less than one part in 2⁵³, so the decimals near it lie closer
together than one step of a grid of fifteen digits: **no two decimals of fifteen digits are rounded
to one number**.  The search for the shortest decimal comes to the grid of such a decimal in time
and finds nothing else before.

* `inBasin_of_ofDecimal` — a decimal lies near the number that it is rounded to.
* `shortest_eq` — a decimal of fifteen digits is the shortest one of its number.
* `exists_ofDecimal_shortest` — so it is found again when it is rounded.
-/

namespace DesignTokens.Binary64

variable {negative : Bool} {m num den digits c c' k : ℕ} {e p p' exponent leading : ℤ} {q : ℚ}
variable {d d' : Decimal}

/-! ## Back from a number to what lies near it -/

/-- **How a quotient comes to a finite number**: it is rounded on its grid, and a mantissa of one
bit too many is halved. -/
theorem exists_roundsTo_of_ofRatio (hnum : 0 < num) (hden : 0 < den)
    (h : ofRatio negative num den = .finite negative m e) : ∃ x k n, (num : ℚ) / den = x * 2 ^ k ∧
      minExponent ≤ k ∧ x < 2 ^ 53 ∧ (minExponent < k → 2 ^ 52 ≤ x) ∧ RoundsTo x n ∧
      (n = 2 * leadingBit ∧ m = leadingBit ∧ e = k + 1 ∨ m = n ∧ e = k) := by
  have hq : (0 : ℚ) < num / den := by positivity
  obtain ⟨k, hk⟩ : ∃ k, k = gridExponent ((num : ℚ) / den) := ⟨_, rfl⟩
  obtain ⟨x, hx⟩ := exists_eq_mul_zpow ((num : ℚ) / den) k
  rw [hx] at hq hk
  have hpos : 0 < x := (mul_pos_iff_of_pos_right (two_zpow_pos k)).1 hq
  have hleast : minExponent ≤ k := hk ▸ le_max_left _ _
  obtain ⟨n, hn⟩ := exists_roundsTo hpos.le
  refine ⟨x, k, n, hx, hleast, (gridExponent_le_iff hpos hleast).1 hk.ge, fun hlt =>
    ((le_gridExponent_iff hpos).1 hk.le).resolve_left (not_le.2 hlt), hn, ?_⟩
  rw [ofRatio_eq_settled hnum hden hx hk.symm hn, settled] at h
  by_cases hcarry : n = 2 * leadingBit
  · rw [if_pos hcarry] at h
    simp only at h
    split at h
    · cases h
    · cases h
      exact Or.inl ⟨hcarry, rfl, rfl⟩
  · rw [if_neg hcarry] at h
    simp only at h
    split at h
    · cases h
    · cases h
      exact Or.inr ⟨rfl, rfl⟩

/-- **A quotient lies near the number that it is rounded to.** -/
theorem inBasin_of_ofRatio (hm : 0 < m) (hnum : 0 < num) (hden : 0 < den)
    (h : ofRatio negative num den = .finite negative m e) : InBasin m e (num / den) := by
  obtain ⟨x, k, n, hx, hleast, hlt, hfull, hn, ⟨rfl, rfl, rfl⟩ | ⟨rfl, rfl⟩⟩ :=
    exists_roundsTo_of_ofRatio hnum hden h
  · -- the mantissa was rounded up to a power of two, and the grid below it is finer
    have hhalf : x * 2 ^ k = x / 2 * 2 ^ (k + 1) := by
      rw [two_zpow_add, zpow_one]
      ring
    have hge := hn.ge
    push_cast [cast_leadingBit] at hge
    rw [hx, hhalf, inBasin_iff, low_basin (by decide), if_pos ⟨rfl, by omega⟩, cast_leadingBit]
    rcases hge.lt_or_eq with hlow | hlow
    · exact Or.inl ⟨by linarith, by linarith⟩
    · exact Or.inr ⟨by decide, Or.inl (by linarith)⟩
  · rw [hx, inBasin_iff, low_basin hm]
    rcases hn.le.lt_or_eq with hhigh | hhigh
    · split_ifs with hpower
      · have hedge := hfull hpower.2
        rw [hpower.1, cast_leadingBit] at hhigh ⊢
        exact Or.inl ⟨by linarith, by linarith⟩
      · rcases hn.ge.lt_or_eq with hlow | hlow
        · exact Or.inl ⟨by linarith, by linarith⟩
        · exact Or.inr ⟨hn.even (Or.inl hlow.symm), Or.inl (by linarith)⟩
    · exact Or.inr ⟨hn.even (Or.inr hhigh), Or.inr (by linarith)⟩

/-- The least number of full length. -/
def leastFull : ℚ := leadingBit * 2 ^ minExponent

theorem leastFull_le : leastFull ≤ 10 ^ (-4 : ℤ) := by
  have hsplit := two_zpow_add minExponent 52
  have hpow : (2 : ℚ) ^ (minExponent + 52) ≤ 2 ^ (-14 : ℤ) := two_zpow_le (by decide)
  have hten : (2 : ℚ) ^ (-14 : ℤ) ≤ 10 ^ (-4 : ℤ) := by norm_num
  have hbits : (2 : ℚ) ^ (52 : ℤ) = 2 ^ 52 := zpow_ofNat 2 52
  rw [leastFull, cast_leadingBit, ← hbits, ← hsplit]
  exact hpow.trans hten

theorem fifteen_lt_overflow : 10 ^ 15 < overflow := by
  have hpow : (1 : ℚ) ≤ 2 ^ maxExponent := one_le_zpow₀ (by norm_num) (by decide)
  rw [overflow_eq]
  linarith

/-- **From the least number of full length on** a quotient is rounded to such a number. -/
theorem full_of_ofRatio (hnum : 0 < num) (hden : 0 < den) (hge : leastFull ≤ (num : ℚ) / den)
    (h : ofRatio negative num den = .finite negative m e) : leadingBit ≤ m := by
  obtain ⟨x, k, n, hx, hleast, -, hfull, hn, ⟨-, rfl, -⟩ | ⟨rfl, rfl⟩⟩ :=
    exists_roundsTo_of_ofRatio hnum hden h
  · exact le_rfl
  have hlarge : 2 ^ 52 ≤ x := by
    rcases hleast.eq_or_lt with heq | hlt
    · rw [hx, leastFull, heq, cast_leadingBit] at hge
      exact (mul_le_mul_iff_left₀ (two_zpow_pos _)).1 hge
    · exact hfull hlt
  have hnext : (2 : ℚ) ^ 52 < m + 1 := by linarith [hn.le]
  have hnext : 2 ^ 52 < m + 1 := by exact_mod_cast hnext
  exact Nat.le_of_lt_succ hnext

/-- **A decimal of full length lies near the number that it is rounded to**, which has its full
length too. -/
theorem inBasin_of_ofDecimal (hge : leastFull ≤ digits * 10 ^ exponent)
    (hle : (digits : ℚ) * 10 ^ exponent ≤ overflow)
    (h : ofDecimal negative digits exponent = .finite negative m e) :
    leadingBit ≤ m ∧ InBasin m e (digits * 10 ^ exponent) := by
  have hfinest : (2 : ℚ) ^ (minExponent - 1) ≤ leastFull := by
    rw [leastFull, cast_leadingBit, two_zpow_eq minExponent 1]
    linarith [two_zpow_pos (minExponent - 1)]
  obtain ⟨hdigits, hdecimal⟩ := ofDecimal_eq_ofRatio negative (hfinest.trans hge) hle
  have hnum : 0 < digits * 10 ^ exponent.toNat := by positivity
  have hden : 0 < 10 ^ (-exponent).toNat := by positivity
  rw [decimal_eq_div] at hge ⊢
  rw [hdecimal] at h
  have hfull := full_of_ofRatio hnum hden hge h
  exact ⟨hfull, inBasin_of_ofRatio (lt_of_lt_of_le (by decide) hfull) hnum hden h⟩

/-- What lies near a number is at most half a step away. -/
theorem InBasin.near (hm : 0 < m) (hq : InBasin m e q) :
    m * (2 : ℚ) ^ e - 2 ^ (e - 1) ≤ q ∧ q ≤ m * (2 : ℚ) ^ e + 2 ^ (e - 1) := by
  obtain ⟨x, rfl⟩ := exists_eq_mul_zpow q e
  have hx : (m : ℚ) - 1 / 2 ≤ x ∧ x ≤ m + 1 / 2 := by
    rw [inBasin_iff, low_basin hm] at hq
    split_ifs at hq <;> rcases hq with ⟨hlow, hhigh⟩ | ⟨-, hend | hend⟩ <;>
      constructor <;> linarith
  have hstep : (2 : ℚ) ^ e = 2 * 2 ^ (e - 1) := by rw [two_zpow_eq e 1, zpow_one]
  have hlow := mul_le_mul_of_nonneg_right hx.1 (two_zpow_pos e).le
  have hhigh := mul_le_mul_of_nonneg_right hx.2 (two_zpow_pos e).le
  constructor <;> linarith

/-! ## The decimals near a number -/

section Near

variable (hfull : leadingBit ≤ m)

include hfull

/-- Half a step is little beside a number of full length. -/
theorem half_step_le (e : ℤ) : 2 ^ 53 * (2 : ℚ) ^ (e - 1) ≤ m * 2 ^ e := by
  have hm : (2 : ℚ) ^ 52 ≤ m := by
    rw [← cast_leadingBit]
    exact_mod_cast hfull
  have hbound := mul_le_mul_of_nonneg_right hm (two_zpow_pos e).le
  rw [two_zpow_eq e 1, zpow_one] at hbound ⊢
  linarith

theorem pos_of_full : 0 < m := lt_of_lt_of_le (by decide) hfull

/-- **A decimal of fifteen digits** has the size of its number. -/
theorem lt_of_inBasin (hdigits : digits < 10 ^ 15) (h : InBasin m e (digits * 10 ^ exponent)) :
    (m : ℚ) * 2 ^ e < 10 ^ 15 * 10 ^ exponent := by
  have hnear := (h.near (pos_of_full hfull)).1
  have hhalf := half_step_le hfull e
  have hpos := ten_zpow_pos exponent
  have hle : (digits : ℚ) ≤ 10 ^ 15 - 1 := by
    have hle : digits + 1 ≤ 10 ^ 15 := hdigits
    have hle : (digits : ℚ) + 1 ≤ 10 ^ 15 := by exact_mod_cast hle
    linarith
  have hbound := mul_le_mul_of_nonneg_right hle hpos.le
  by_contra hge
  linarith

/-- **At most one multiple on a grid of fifteen digits lies near a number.** -/
theorem eq_of_inBasin (hp : (m : ℚ) * 2 ^ e < 10 ^ 15 * 10 ^ p) (h : InBasin m e (c * 10 ^ p))
    (h' : InBasin m e (c' * 10 ^ p)) : c = c' := by
  have hm := pos_of_full hfull
  have hle : ∀ {c c' : ℕ}, InBasin m e (c * 10 ^ p) → InBasin m e (c' * 10 ^ p) → c ≤ c' := by
    intro c c' h h'
    have hclose : (c : ℚ) * 10 ^ p < (c' + 1) * 10 ^ p := by
      linarith [(h.near hm).2, (h'.near hm).1, half_step_le hfull e, ten_zpow_pos p]
    have hlt : (c : ℚ) < c' + 1 := (mul_lt_mul_iff_left₀ (ten_zpow_pos p)).1 hclose
    exact Nat.lt_succ_iff.1 (by exact_mod_cast hlt)
  exact le_antisymm (hle h h') (hle h' h)

end Near

/-- A decimal on a finer grid. -/
theorem eq_mul_of_le (h : p ≤ exponent) : (digits : ℚ) * 10 ^ exponent =
    ((digits * 10 ^ (exponent - p).toNat : ℕ) : ℚ) * 10 ^ p := by
  obtain ⟨k, hk⟩ := Int.eq_ofNat_of_zero_le (Int.sub_nonneg_of_le h)
  have hexponent : exponent = k + p := by omega
  rw [hk, Int.toNat_natCast, hexponent, zpow_add₀ (by norm_num), zpow_natCast]
  push_cast
  ring

/-- **Decimals on two grids of fifteen digits that lie near one number are the same.** -/
theorem value_eq_of_inBasin (hfull : leadingBit ≤ m)
    (hexponent : (m : ℚ) * 2 ^ e < 10 ^ 15 * 10 ^ exponent)
    (hp : (m : ℚ) * 2 ^ e < 10 ^ 15 * 10 ^ p) (h : InBasin m e (digits * 10 ^ exponent))
    (hc : InBasin m e (c * 10 ^ p)) : (c : ℚ) * 10 ^ p = digits * 10 ^ exponent := by
  rcases le_total p exponent with hle | hle
  · rw [eq_mul_of_le hle] at h ⊢
    rw [eq_of_inBasin hfull hp hc h]
  · rw [eq_mul_of_le hle] at hc ⊢
    rw [eq_of_inBasin hfull hexponent hc h]

/-! ## The search -/

/-- **Nothing on a grid of fifteen digits is missed.** -/
theorem onGrid?_ne_none_of_inBasin (hfull : leadingBit ≤ m)
    (hp : (m : ℚ) * 2 ^ e < 10 ^ 15 * 10 ^ p) (hc : InBasin m e (c * 10 ^ p)) :
    onGrid? m e p ≠ none := by
  intro hnone
  rcases onGrid?_neighbours m e p with ⟨c', hsome, -⟩ | ⟨-, d, hbelow, habove, hd, hnext⟩
  · cases hsome.symm.trans hnone
  have hmid : ((basin m e).mid : ℚ) * 2 ^ (e - 2) = m * 2 ^ e := by
    rw [two_zpow_eq e 2]
    simp only [basin]
    push_cast
    ring
  rw [hmid] at hbelow habove
  obtain ⟨hlow, hhigh⟩ := hc.near (pos_of_full hfull)
  have hhalf := half_step_le hfull e
  have hpos := ten_zpow_pos p
  have hge : d ≤ c := by
    have hlt : (d : ℚ) * 10 ^ p < (c + 1) * 10 ^ p := by linarith
    have hlt : (d : ℚ) < c + 1 := (mul_lt_mul_iff_left₀ hpos).1 hlt
    exact Nat.lt_succ_iff.1 (by exact_mod_cast hlt)
  have hle : c ≤ d + 1 := by
    push_cast at habove
    have hlt : (c : ℚ) * 10 ^ p < (d + 2) * 10 ^ p := by linarith
    have hlt : (c : ℚ) < d + 2 := (mul_lt_mul_iff_left₀ hpos).1 hlt
    exact Nat.lt_succ_iff.1 (by exact_mod_cast hlt)
  rcases hge.eq_or_lt with rfl | hlt
  · exact hd hc
  · obtain rfl : c = d + 1 := by omega
    exact hnext hc

/-- The search ends on a grid where there is something to take, or on one before it. -/
theorem firstHit_eq {fuel n k : ℕ} (hn : n ≤ k) (hk : k < n + fuel)
    (h : onGrid? m e (leading + 1 - k) ≠ none) : ∃ l c : ℕ, n ≤ l ∧ l ≤ k ∧
      onGrid? m e (leading + 1 - l) = some c ∧
      firstHit m e leading fuel n = ⟨c, leading + 1 - l⟩ := by
  induction fuel generalizing n with
  | zero => omega
  | succ fuel ih =>
    simp only [firstHit]
    cases hgrid : onGrid? m e (leading + 1 - n) with
    | some c => exact ⟨n, c, le_rfl, hn, hgrid, rfl⟩
    | none =>
      -- the grid of the hit is a later one
      have hne : n ≠ k := by
        rintro rfl
        exact h hgrid
      obtain ⟨l, c, hl, hlk, hc, heq⟩ := ih (n := n + 1) (by omega) (by omega)
      exact ⟨l, c, by omega, hlk, hc, heq⟩

/-! ## Decimals without zeros at their end -/

theorem digits_trim {fuel : ℕ} (hpos : 0 < d.digits) (hlt : d.digits < 10 ^ fuel) :
    (d.trim fuel).digits % 10 ≠ 0 := by
  induction fuel generalizing d with
  | zero => omega
  | succ fuel ih =>
    simp only [Decimal.trim]
    split
    · rename_i hzero
      rw [pow_succ] at hlt
      exact ih (d := ⟨d.digits / 10, d.exponent + 1⟩) (show 0 < d.digits / 10 by omega)
        (show d.digits / 10 < 10 ^ fuel by omega)
    · rename_i hzero
      exact fun hmod => hzero ⟨hpos.ne', hmod⟩

/-- **Without zeros at their end decimals of one value are the same.** -/
theorem Decimal.eq_of_value_eq (hd : d.digits % 10 ≠ 0) (hd' : d'.digits % 10 ≠ 0)
    (h : d.value = d'.value) : d = d' := by
  have hexponent : ∀ {d d' : Decimal}, d.digits % 10 ≠ 0 → d.value = d'.value →
      d.exponent ≤ d'.exponent → d = d' := by
    intro d d' hd h hle
    rw [value, value, eq_mul_of_le hle] at h
    have hdigits : d.digits = d'.digits * 10 ^ (d'.exponent - d.exponent).toNat := by
      exact_mod_cast mul_right_cancel₀ (ten_zpow_pos d.exponent).ne' h
    rcases hle.eq_or_lt with heq | hlt
    · rw [heq, sub_self, Int.toNat_zero, pow_zero, mul_one] at hdigits
      cases d
      cases d'
      cases hdigits
      cases heq
      rfl
    · obtain ⟨k, hk⟩ : ∃ k, (d'.exponent - d.exponent).toNat = k + 1 :=
        ⟨_, (Nat.succ_pred_eq_of_pos (by omega)).symm⟩
      rw [hk, pow_succ, ← mul_assoc] at hdigits
      omega
  rcases le_total d.exponent d'.exponent with hle | hle
  · exact hexponent hd h hle
  · exact (hexponent hd' h.symm hle).symm

/-! ## The shortest decimal -/

/-- What lies near a number on a grid of fifteen digits has few digits. -/
theorem digits_of_inBasin (hfull : leadingBit ≤ m) (hp : (m : ℚ) * 2 ^ e < 10 ^ 15 * 10 ^ p)
    (hc : InBasin m e (c * 10 ^ p)) : 0 < c ∧ c < 10 ^ 17 := by
  obtain ⟨hlow, hhigh⟩ := hc.near (pos_of_full hfull)
  have hhalf := half_step_le hfull e
  have hstep := two_zpow_pos (e - 1)
  have hpos := ten_zpow_pos p
  constructor
  · refine Nat.pos_of_ne_zero fun hzero => ?_
    rw [hzero, Nat.cast_zero, zero_mul] at hlow
    linarith
  · have hlt : (c : ℚ) * 10 ^ p < 10 ^ 17 * 10 ^ p := by linarith
    exact_mod_cast (mul_lt_mul_iff_left₀ hpos).1 hlt

/-- The grids from the one of the leading digit on to that of fifteen digits. -/
theorem lt_of_leading_le (hhigh : (m : ℚ) * 2 ^ e < 10 ^ (leading + 1)) (hp : leading ≤ p + 14) :
    (m : ℚ) * 2 ^ e < 10 ^ 15 * 10 ^ p := by
  have hpow : (10 : ℚ) ^ (leading + 1) ≤ 10 ^ (p + 15) :=
    zpow_le_zpow_right₀ (by norm_num) (by omega)
  have hsplit : (10 : ℚ) ^ (p + 15) = 10 ^ 15 * 10 ^ p := by
    rw [zpow_add₀ (by norm_num), mul_comm]
    rfl
  exact hsplit ▸ hhigh.trans_le hpow

/-- **The search finds a decimal of fifteen digits**, with zeros at its end or without. -/
theorem firstHit_value (hfull : leadingBit ≤ m) (hlow : (10 : ℚ) ^ leading ≤ m * 2 ^ e)
    (hhigh : (m : ℚ) * 2 ^ e < 10 ^ (leading + 1)) (hdigits : d.digits < 10 ^ 15)
    (h : InBasin m e d.value) : ∃ c p, firstHit m e leading 17 1 = ⟨c, p⟩ ∧ 0 < c ∧ c < 10 ^ 17 ∧
      Decimal.value ⟨c, p⟩ = d.value := by
  have hsize := lt_of_inBasin hfull hdigits h
  have hnear : leading ≤ d.exponent + 14 := by
    have hpow : (10 : ℚ) ^ leading < 10 ^ (d.exponent + 15) := by
      rw [zpow_add₀ (by norm_num), mul_comm]
      exact hlow.trans_lt hsize
    have := (zpow_lt_zpow_iff_right₀ (by norm_num : (1 : ℚ) < 10)).1 hpow
    omega
  -- the decimal is on its own grid, or already on the one of the leading digit
  obtain ⟨p, hp⟩ : ∃ p, p = min d.exponent leading := ⟨_, rfl⟩
  obtain ⟨k, hk⟩ : ∃ k : ℕ, (k : ℤ) = leading + 1 - p :=
    ⟨(leading + 1 - p).toNat, Int.toNat_of_nonneg (by omega)⟩
  have hhit : onGrid? m e (leading + 1 - k) ≠ none := by
    have hlast : leading + 1 - k = p := by omega
    have hmultiple := h
    rw [Decimal.value, eq_mul_of_le (by omega : p ≤ d.exponent)] at hmultiple
    rw [hlast]
    exact onGrid?_ne_none_of_inBasin hfull (lt_of_leading_le hhigh (by omega)) hmultiple
  obtain ⟨l, c, hl, hlk, hc, hfirst⟩ :=
    firstHit_eq (by omega : 1 ≤ k) (by omega : k < 1 + 17) hhit
  have hin := inBasin_of_onGrid? hc
  have hgrid := lt_of_leading_le hhigh (by omega : leading ≤ leading + 1 - (l : ℤ) + 14)
  obtain ⟨hpos, hlt⟩ := digits_of_inBasin hfull hgrid hin
  exact ⟨c, _, hfirst, hpos, hlt, value_eq_of_inBasin hfull hsize hgrid h hin⟩

/-- **A decimal of fifteen digits is the shortest one** of the number that it lies near. -/
theorem shortest_eq (hfull : leadingBit ≤ m) (hdigits : d.digits < 10 ^ 15)
    (htrim : d.digits % 10 ≠ 0) (h : InBasin m e d.value) : shortest m e = d := by
  have hm := pos_of_full hfull
  have hpos : (0 : ℚ) < m * 2 ^ e := mul_pos (by exact_mod_cast hm) (two_zpow_pos e)
  have hlow : (10 : ℚ) ^ Int.log 10 ((m : ℚ) * 2 ^ e) ≤ m * 2 ^ e := by
    exact_mod_cast Int.zpow_log_le_self (b := 10) (by decide) hpos
  have hhigh : (m : ℚ) * 2 ^ e < 10 ^ (Int.log 10 ((m : ℚ) * 2 ^ e) + 1) := by
    exact_mod_cast Int.lt_zpow_succ_log_self (b := 10) (by decide) ((m : ℚ) * 2 ^ e)
  obtain ⟨c, p, hfirst, hc, hlt, hvalue⟩ := firstHit_value hfull hlow hhigh hdigits h
  rw [shortest_eq_trim hm, hfirst]
  exact Decimal.eq_of_value_eq (digits_trim hc hlt) htrim ((value_trim _ _).trans hvalue)

/-- **A decimal of fifteen digits is found again** in the number that it is rounded to, unless that
is infinity or has not its full length. -/
theorem exists_ofDecimal_shortest (negative : Bool) (hdigits : d.digits < 10 ^ 15)
    (htrim : d.digits % 10 ≠ 0) (hge : leastFull ≤ d.value) (hlt : d.value < overflow) :
    ∃ m e, IsCanonical m e ∧ ofDecimal negative d.digits d.exponent = .finite negative m e ∧
      shortest m e = d := by
  rcases ofDecimal_cases negative d.digits d.exponent with ⟨-, m, e, h, hround⟩ | ⟨hinf, -⟩
  · obtain ⟨hfull, hin⟩ := inBasin_of_ofDecimal hge hlt.le hround
    exact ⟨m, e, h, hround, shortest_eq hfull hdigits htrim hin⟩
  · exact absurd hlt (not_lt.2 hinf)

end DesignTokens.Binary64
