import DesignTokens.Proofs.Number.Rounding

/-!
# Proofs/Number/Shortest — the shortest decimal reads back

The search for a short decimal compares the two neighbours of a number on a decimal grid with the
basin of the number.  What it takes lies **in the basin**, and on the grid of seventeen digits there
is always something to take: the basin is wider than one step of that grid.

* `inBasin_shortest` — the shortest decimal lies near the number.
* `ofDecimal_of_eq_shortest` — a decimal of the same value is rounded to the number.
-/

namespace DesignTokens.Binary64

variable {negative : Bool} {m digits c d s t : ℕ} {e p exponent leading : ℤ} {b : Basin}

/-- The number that a decimal writes. -/
def Decimal.value (d : Decimal) : ℚ := d.digits * 10 ^ d.exponent

/-! ## One decimal grid -/

/-- The two sides of the comparison on a grid, scaled to natural numbers. -/
theorem exists_scale (e p : ℤ) : ∃ w : ℚ, 0 < w ∧
    ((10 ^ p.toNat * 2 ^ (2 - e).toNat : ℕ) : ℚ) = 10 ^ p * w ∧
    ((10 ^ (-p).toNat * 2 ^ (e - 2).toNat : ℕ) : ℚ) = 2 ^ (e - 2) * w := by
  have hten := zpow_eq_div (by decide : 0 < 10) p
  have htwo := zpow_eq_div (by decide : 0 < 2) (e - 2)
  rw [neg_sub] at htwo
  refine ⟨(10 ^ (-p).toNat : ℕ) * (2 ^ (2 - e).toNat : ℕ), by positivity, ?_, ?_⟩
  · rw [Nat.cast_ofNat] at hten
    rw [hten]
    push_cast
    field_simp
  · rw [Nat.cast_ofNat] at htwo
    rw [htwo]
    push_cast
    field_simp

/-- Whether a multiple on a grid lies in a basin, in natural numbers. -/
def Basin.inside (b : Basin) (s t c : ℕ) : Bool :=
  (b.low * t < c * s && c * s < b.high * t) ||
    (b.closed && (c * s == b.low * t || c * s == b.high * t))

theorem holds_iff {w unit step : ℚ} (hw : 0 < w) (hs : (s : ℚ) = step * w)
    (ht : (t : ℚ) = unit * w) : b.Holds unit (c * step) ↔ b.inside s t c = true := by
  have hside : ∀ k : ℕ, ((k * t : ℕ) : ℚ) = k * unit * w := by
    intro k
    rw [Nat.cast_mul, ht, mul_assoc]
  have hmultiple : ((c * s : ℕ) : ℚ) = c * step * w := by rw [Nat.cast_mul, hs, mul_assoc]
  simp only [Basin.inside, Bool.or_eq_true, Bool.and_eq_true, decide_eq_true_eq, beq_iff_eq,
    ← Nat.cast_lt (α := ℚ), ← Nat.cast_inj (R := ℚ), hside, hmultiple, mul_lt_mul_iff_left₀ hw,
    mul_left_inj' hw.ne']
  rfl

/-- **What is taken on a grid** is one of the two neighbours of the number, and nothing is taken
where neither of them is in the basin. -/
theorem onGrid?_cases (hs : 10 ^ p.toNat * 2 ^ (2 - e).toNat = s)
    (ht : 10 ^ (-p).toNat * 2 ^ (e - 2).toNat = t) (hd : (basin m e).mid * t / s = d) :
    (∃ c, onGrid? m e p = some c ∧ (basin m e).inside s t c = true) ∨
      (onGrid? m e p = none ∧ ¬ (basin m e).inside s t d = true ∧
        ¬ (basin m e).inside s t (d + 1) = true) := by
  have hchoice : ∃ nearer, (nearer = d ∨ nearer = d + 1) ∧ onGrid? m e p =
      if (basin m e).inside s t d && (basin m e).inside s t (d + 1) then some nearer
      else if (basin m e).inside s t d then some d
      else if (basin m e).inside s t (d + 1) then some (d + 1) else none := by
    subst hs ht hd
    refine ⟨_, ?_, rfl⟩
    split
    · exact Or.inl rfl
    split
    · exact Or.inr rfl
    · rcases Nat.mod_two_eq_zero_or_one ((basin m e).mid * _ / _) with h | h
      · exact Or.inl (congrArg _ h)
      · exact Or.inr (congrArg _ h)
  obtain ⟨nearer, hnearer, hchoice⟩ := hchoice
  rw [hchoice]
  split_ifs with hboth hd hnext
  · rw [Bool.and_eq_true] at hboth
    refine Or.inl ⟨nearer, rfl, ?_⟩
    rcases hnearer with rfl | rfl
    · exact hboth.1
    · exact hboth.2
  · exact Or.inl ⟨d, rfl, hd⟩
  · exact Or.inl ⟨d + 1, rfl, hnext⟩
  · exact Or.inr ⟨rfl, hd, hnext⟩

/-- Where neither neighbour of a number is in its basin, they are as far apart as the ends of the
basin. -/
theorem width_le {unit step : ℚ} (hunit : 0 < unit) (hlow : b.low ≤ b.mid) (hhigh : b.mid < b.high)
    (hbelow : d * step ≤ b.mid * unit) (habove : b.mid * unit < ((d + 1 : ℕ) : ℚ) * step)
    (hd : ¬ b.Holds unit (d * step)) (hnext : ¬ b.Holds unit ((d + 1 : ℕ) * step)) :
    ((b.high : ℚ) - b.low) * unit ≤ step := by
  have hlow' : (b.low : ℚ) * unit ≤ b.mid * unit :=
    mul_le_mul_of_nonneg_right (by exact_mod_cast hlow) hunit.le
  have hhigh' : (b.mid : ℚ) * unit < b.high * unit :=
    mul_lt_mul_of_pos_right (by exact_mod_cast hhigh) hunit
  have hleft : d * step ≤ b.low * unit :=
    not_lt.1 fun hlt => hd (Or.inl ⟨hlt, hbelow.trans_lt hhigh'⟩)
  have hright : b.high * unit ≤ (d + 1 : ℕ) * step :=
    not_lt.1 fun hlt => hnext (Or.inl ⟨hlow'.trans_lt habove, hlt⟩)
  push_cast at hright
  linarith

theorem low_le_mid (m : ℕ) (e : ℤ) : (basin m e).low ≤ (basin m e).mid := by
  simp only [basin]
  split <;> omega

theorem mid_lt_high (m : ℕ) (e : ℤ) : (basin m e).mid < (basin m e).high := by
  simp only [basin]
  omega

/-- **What is taken on a grid lies in the basin**, and where nothing is taken neither of the two
neighbours of the number on the grid does. -/
theorem onGrid?_neighbours (m : ℕ) (e p : ℤ) :
    (∃ c, onGrid? m e p = some c ∧ InBasin m e (c * 10 ^ p)) ∨
      (onGrid? m e p = none ∧ ∃ d : ℕ, (d : ℚ) * 10 ^ p ≤ (basin m e).mid * 2 ^ (e - 2) ∧
        (basin m e).mid * 2 ^ (e - 2) < ((d + 1 : ℕ) : ℚ) * 10 ^ p ∧
        ¬ InBasin m e (d * 10 ^ p) ∧ ¬ InBasin m e ((d + 1 : ℕ) * 10 ^ p)) := by
  obtain ⟨w, hw, hs, ht⟩ := exists_scale e p
  have hcases := onGrid?_cases (m := m) (e := e) (p := p) rfl rfl rfl
  have hs0 : 0 < 10 ^ p.toNat * 2 ^ (2 - e).toNat := by positivity
  generalize 10 ^ p.toNat * 2 ^ (2 - e).toNat = s at hs hs0 hcases
  generalize 10 ^ (-p).toNat * 2 ^ (e - 2).toNat = t at ht hcases
  rcases hcases with ⟨c, hc, hin⟩ | ⟨hnone, hout, hnext⟩
  · exact Or.inl ⟨c, hc, (holds_iff hw hs ht).2 hin⟩
  have hmultiple : ∀ c : ℕ, ((c * s : ℕ) : ℚ) = c * 10 ^ p * w := by
    intro c
    rw [Nat.cast_mul, hs, mul_assoc]
  have hmid : (((basin m e).mid * t : ℕ) : ℚ) = (basin m e).mid * 2 ^ (e - 2) * w := by
    rw [Nat.cast_mul, ht, mul_assoc]
  refine Or.inr ⟨hnone, _, ?_, ?_, mt (holds_iff hw hs ht).1 hout, mt (holds_iff hw hs ht).1 hnext⟩
  · have hbelow := Nat.div_mul_le_self ((basin m e).mid * t) s
    rwa [← Nat.cast_le (α := ℚ), hmultiple, hmid, mul_le_mul_iff_left₀ hw] at hbelow
  · have habove := Nat.lt_mul_div_succ ((basin m e).mid * t) hs0
    rwa [mul_comm s, ← Nat.cast_lt (α := ℚ), hmultiple, hmid, mul_lt_mul_iff_left₀ hw] at habove

/-- What is taken from a grid is in the basin. -/
theorem inBasin_of_onGrid? {c : ℕ} (h : onGrid? m e p = some c) : InBasin m e (c * 10 ^ p) := by
  rcases onGrid?_neighbours m e p with ⟨c', hsome, hin⟩ | ⟨hnone, -⟩
  · obtain rfl : c' = c := Option.some.inj (hsome.symm.trans h)
    exact hin
  · cases hnone.symm.trans h

/-- **Where nothing is taken** a step of the grid is at least as long as the basin. -/
theorem onGrid?_spec (m : ℕ) (e p : ℤ) :
    (∃ c, onGrid? m e p = some c ∧ InBasin m e (c * 10 ^ p)) ∨
      (onGrid? m e p = none ∧
        (((basin m e).high : ℚ) - (basin m e).low) * 2 ^ (e - 2) ≤ 10 ^ p) := by
  rcases onGrid?_neighbours m e p with htaken | ⟨hnone, d, hbelow, habove, hout, hnext⟩
  · exact Or.inl htaken
  · exact Or.inr ⟨hnone, width_le (two_zpow_pos _) (low_le_mid m e) (mid_lt_high m e) hbelow habove
      hout hnext⟩

/-! ## The search -/

/-- **Seventeen digits suffice**: a basin is wider than a step of that grid. -/
theorem onGrid?_ne_none (h : IsCanonical m e) (hm : 0 < m)
    (hleading : (10 : ℚ) ^ leading ≤ m * 2 ^ e) : onGrid? m e (leading - 16) ≠ none := by
  intro hnone
  rcases onGrid?_spec m e (leading - 16) with ⟨c, hc, -⟩ | ⟨-, hwidth⟩
  · cases hc.symm.trans hnone
  have hlarge := h.cast_lt
  have hstep : (10 : ℚ) ^ (leading - 16) * 10 ^ 16 ≤ 4 * m * 2 ^ (e - 2) := by
    have hten : (10 : ℚ) ^ (leading - 16) * 10 ^ 16 = 10 ^ leading := by
      rw [zpow_sub₀ (by norm_num)]
      exact div_mul_cancel₀ _ (by norm_num)
    rw [two_zpow_eq e 2] at hleading
    rw [hten]
    linarith
  have hhigh : ((basin m e).high : ℚ) = 4 * m + 2 := by simp [basin]
  have hfew : ((basin m e).high : ℚ) - (basin m e).low ≤ 4 * m / 10 ^ 16 := by
    rw [le_div_iff₀ (by positivity), ← mul_le_mul_iff_left₀ (two_zpow_pos (e - 2))]
    linarith
  rw [hhigh, low_basin hm] at hfew
  split_ifs at hfew with hpower
  · rw [hpower.1, cast_leadingBit] at hfew
    linarith
  · linarith

/-- **The search ends in the basin.** -/
theorem inBasin_firstHit (hlast : onGrid? m e (leading - 16) ≠ none) {fuel n : ℕ}
    (hn : n + fuel = 18) (hfuel : 0 < fuel) :
    InBasin m e (firstHit m e leading fuel n).value := by
  induction fuel generalizing n with
  | zero => exact absurd hfuel (lt_irrefl 0)
  | succ fuel ih =>
    simp only [firstHit]
    cases hgrid : onGrid? m e (leading + 1 - n) with
    | some c => exact inBasin_of_onGrid? hgrid
    | none =>
      -- the last grid is the one of seventeen digits
      have hmore : 0 < fuel := by
        refine Nat.pos_of_ne_zero fun hzero => hlast ?_
        have hlast : leading - 16 = leading + 1 - n := by omega
        rw [hlast, hgrid]
      exact ih (by omega) hmore

theorem value_trim (fuel : ℕ) (d : Decimal) : (d.trim fuel).value = d.value := by
  induction fuel generalizing d with
  | zero => rfl
  | succ fuel ih =>
    simp only [Decimal.trim]
    split
    · rename_i hzero
      have hdigits : (d.digits : ℚ) = (d.digits / 10 : ℕ) * 10 := by
        exact_mod_cast (Nat.div_mul_cancel (Nat.dvd_of_mod_eq_zero hzero.2)).symm
      rw [ih, Decimal.value, Decimal.value, hdigits, zpow_add_one₀ (by norm_num)]
      ring
    · rfl

/-- The search starts with the digit that leads the number. -/
theorem shortest_eq_trim (hm : 0 < m) : shortest m e =
    (firstHit m e (Int.log 10 ((m : ℚ) * 2 ^ e)) 17 1).trim 17 := by
  have hnum : 0 < m * 2 ^ e.toNat := by positivity
  have hden : 0 < 2 ^ (-e).toNat := by positivity
  have hvalue : (m : ℚ) * 2 ^ e = (m * 2 ^ e.toNat : ℕ) / (2 ^ (-e).toNat : ℕ) :=
    mul_zpow_eq_div (by decide : 0 < 2) m e
  simp only [shortest, if_neg hm.ne', Nat.pow_eq]
  rw [floorLog_eq_log (by decide) (decimalSize_spec hnum) (decimalSize_spec hden) ?_, ← hvalue]
  have hnumPos : 0 < decimalSize (m * 2 ^ e.toNat) := Nat.length_toDigits_pos
  have hdenPos : 0 < decimalSize (2 ^ (-e).toNat) := Nat.length_toDigits_pos
  omega

/-- **The shortest decimal lies near the number.** -/
theorem inBasin_shortest (h : IsCanonical m e) (hm : 0 < m) :
    InBasin m e (shortest m e).value := by
  have hpos : (0 : ℚ) < m * 2 ^ e := mul_pos (by exact_mod_cast hm) (two_zpow_pos e)
  rw [shortest_eq_trim hm, value_trim]
  refine inBasin_firstHit (onGrid?_ne_none h hm ?_) rfl (by decide)
  exact_mod_cast Int.zpow_log_le_self (b := 10) (by decide) hpos

/-- **Every decimal of the same value as the shortest one is rounded to the number.** -/
theorem ofDecimal_of_eq_shortest (h : IsCanonical m e)
    (hvalue : (digits : ℚ) * 10 ^ exponent = (shortest m e).value) :
    ofDecimal negative digits exponent = .finite negative m e := by
  rcases Nat.eq_zero_or_pos m with rfl | hm
  · have hdigits : digits = 0 := by
      have hzero : (shortest 0 e).value = 0 := by simp [shortest, Decimal.value]
      rw [hzero, mul_eq_zero, or_iff_left (ten_zpow_pos exponent).ne'] at hvalue
      exact_mod_cast hvalue
    have hleast : e = minExponent := by
      refine le_antisymm (not_lt.1 fun hlt => ?_) h.least
      exact absurd (h.full hlt) (by decide)
    rw [hdigits, hleast, ofDecimal]
    exact if_pos (Or.inl rfl)
  · exact ofDecimal_of_inBasin h hm (hvalue ▸ inBasin_shortest h hm)

end DesignTokens.Binary64
