import DesignTokens.Number.Shortest
import Mathlib

/-!
# Proofs/Number/Rounding — the nearest double-precision number

A quotient of natural numbers is rounded on the grid of its own size.  Over the rationals this says
what a double-precision number is: every quotient goes **to infinity or to a finite number in its
one form**, and it goes to a given number wherever it lies in the basin of that number.  At a power
of two the basin reaches into the finer grid below, where the mantissa is rounded up and halved.

* `roundsTo_roundDiv`, `floorLog_eq_log` — the two steps of rounding.
* `Binary64.ofRatio_of_inBasin`, `Binary64.ofDecimal_of_inBasin` — what lies near a number.
* `Binary64.ofRatio_cases`, `Binary64.ofDecimal_cases` — every number, and where infinity starts.
-/

namespace DesignTokens

/-! ## Rounding to a natural number -/

/-- A natural number is nearest to a rational one, and is even where another one is as near. -/
structure RoundsTo (x : ℚ) (n : ℕ) : Prop where
  ge : (n : ℚ) - 1 / 2 ≤ x
  le : x ≤ n + 1 / 2
  even : x = n - 1 / 2 ∨ x = n + 1 / 2 → n % 2 = 0

section RoundDiv

variable {x : ℚ} {n n' num den : ℕ}

theorem RoundsTo.le_of_roundsTo (h : RoundsTo x n) (h' : RoundsTo x n') : n ≤ n' := by
  by_contra hlt
  have hle : (n' : ℚ) + 1 ≤ n := by exact_mod_cast Nat.lt_of_not_le hlt
  have hge := h.ge
  have hle' := h'.le
  -- the two are neighbours, with the number halfway between them
  have hn : n = n' + 1 := by
    have hnext : (n : ℚ) ≤ n' + 1 := by linarith
    have hnext : n ≤ n' + 1 := by exact_mod_cast hnext
    omega
  have heven := h.even (Or.inl (by linarith))
  have heven' := h'.even (Or.inr (by linarith))
  omega

/-- **At most one number is rounded to.** -/
theorem RoundsTo.unique (h : RoundsTo x n) (h' : RoundsTo x n') : n = n' :=
  le_antisymm (h.le_of_roundsTo h') (h'.le_of_roundsTo h)

/-- Rounding a quotient, without fractions. -/
theorem roundsTo_div_iff (hden : 0 < den) : RoundsTo (num / den) n ↔
    2 * (den * n) ≤ 2 * num + den ∧ 2 * num ≤ 2 * (den * n) + den ∧
      (2 * (den * n) = 2 * num + den ∨ 2 * num = 2 * (den * n) + den → n % 2 = 0) := by
  have hpos : (0 : ℚ) < den := by exact_mod_cast hden
  have hge : (n : ℚ) - 1 / 2 ≤ num / den ↔ 2 * (den * n) ≤ 2 * num + den := by
    rw [le_div_iff₀ hpos, ← Nat.cast_le (α := ℚ)]
    push_cast
    constructor <;> intro h <;> linarith
  have hle : (num : ℚ) / den ≤ n + 1 / 2 ↔ 2 * num ≤ 2 * (den * n) + den := by
    rw [div_le_iff₀ hpos, ← Nat.cast_le (α := ℚ)]
    push_cast
    constructor <;> intro h <;> linarith
  have hge' : (num : ℚ) / den = n - 1 / 2 ↔ 2 * (den * n) = 2 * num + den := by
    rw [div_eq_iff hpos.ne', ← Nat.cast_inj (R := ℚ)]
    push_cast
    constructor <;> intro h <;> linarith
  have hle' : (num : ℚ) / den = n + 1 / 2 ↔ 2 * num = 2 * (den * n) + den := by
    rw [div_eq_iff hpos.ne', ← Nat.cast_inj (R := ℚ)]
    push_cast
    constructor <;> intro h <;> linarith
  rw [← hge, ← hle, ← hge', ← hle']
  exact ⟨fun h => ⟨h.ge, h.le, h.even⟩, fun h => ⟨h.1, h.2.1, h.2.2⟩⟩

/-- **A quotient is rounded to the nearest number.** -/
theorem roundsTo_roundDiv (hden : 0 < den) : RoundsTo (num / den) (roundDiv num den) := by
  have hnum := Nat.div_add_mod num den
  have hmod := Nat.mod_lt num hden
  have hnext : den * (num / den + 1) = den * (num / den) + den := Nat.mul_succ _ _
  rw [roundsTo_div_iff hden]
  simp only [roundDiv]
  split
  · omega
  split
  · omega
  · rcases Nat.mod_two_eq_zero_or_one (num / den) with hparity | hparity
    · rw [hparity, Nat.add_zero]
      omega
    · rw [hparity]
      omega

end RoundDiv

/-! ## Powers and logarithms -/

section Powers

variable {base : ℕ} {k : ℤ}

theorem zpow_sub_natCast (hbase : 0 < base) (m n : ℕ) :
    (base : ℚ) ^ ((m : ℤ) - n) = base ^ m / base ^ n := by
  have hne : (base : ℚ) ≠ 0 := by exact_mod_cast hbase.ne'
  rw [zpow_sub₀ hne, zpow_natCast, zpow_natCast]

/-- A power with an integer exponent is a quotient of two with natural ones. -/
theorem zpow_eq_div (hbase : 0 < base) (k : ℤ) :
    (base : ℚ) ^ k = (base ^ k.toNat : ℕ) / (base ^ (-k).toNat : ℕ) := by
  push_cast
  rw [← zpow_sub_natCast hbase, Int.toNat_sub_toNat_neg]

/-- A quotient is scaled by multiplying its numerator or its denominator. -/
theorem div_mul_zpow (hbase : 0 < base) (num den : ℕ) (k : ℤ) :
    ((num * base ^ k.toNat : ℕ) : ℚ) / (den * base ^ (-k).toNat : ℕ) = num / den * base ^ k := by
  rw [zpow_eq_div hbase]
  push_cast
  rw [mul_div_mul_comm]

/-- A multiple of a power is a quotient of natural numbers. -/
theorem mul_zpow_eq_div (hbase : 0 < base) (n : ℕ) (k : ℤ) :
    (n : ℚ) * base ^ k = (n * base ^ k.toNat : ℕ) / (base ^ (-k).toNat : ℕ) := by
  have h := div_mul_zpow hbase n 1 k
  rw [one_mul, Nat.cast_one, div_one] at h
  exact h.symm

/-- A power is compared with a quotient without fractions. -/
theorem zpow_le_div_iff {num den : ℕ} (hbase : 0 < base) (hden : 0 < den) :
    (base : ℚ) ^ k ≤ num / den ↔ den * base ^ k.toNat ≤ num * base ^ (-k).toNat := by
  rw [zpow_eq_div hbase, div_le_div_iff₀ (by positivity) (by positivity), mul_comm]
  exact_mod_cast Iff.rfl

theorem div_pos_of_pow_le {num den a b : ℕ} (hbase : 0 < base) (hnum : base ^ a ≤ num)
    (hden : base ^ b ≤ den) : 0 < den ∧ (0 : ℚ) < num / den := by
  have hnumPos : 0 < num := (Nat.pow_pos hbase).trans_le hnum
  have hdenPos : 0 < den := (Nat.pow_pos hbase).trans_le hden
  exact ⟨hdenPos, by positivity⟩

/-- **The logarithm of a quotient** is the difference of the two logarithms, or one less. -/
theorem log_div_cases {num den a b : ℕ} (hbase : 1 < base)
    (hnum : base ^ a ≤ num ∧ num < base ^ (a + 1)) (hden : base ^ b ≤ den ∧ den < base ^ (b + 1)) :
    Int.log base ((num : ℚ) / den) = a - b ∨ Int.log base ((num : ℚ) / den) = a - b - 1 := by
  have hbasePos : 0 < base := Nat.zero_lt_of_lt hbase
  obtain ⟨hdenPos, hq⟩ := div_pos_of_pow_le hbasePos hnum.1 hden.1
  have hlow : (base : ℚ) ^ ((a : ℤ) - (b + 1 : ℕ)) ≤ num / den := by
    rw [zpow_sub_natCast hbasePos]
    exact div_le_div₀ (by positivity) (by exact_mod_cast hnum.1) (by positivity)
      (by exact_mod_cast hden.2.le)
  have hhigh : (num : ℚ) / den < (base : ℚ) ^ (((a + 1 : ℕ) : ℤ) - b) := by
    rw [zpow_sub_natCast hbasePos]
    exact div_lt_div₀ (by exact_mod_cast hnum.2) (by exact_mod_cast hden.1) (by positivity)
      (by positivity)
  rw [Int.zpow_le_iff_le_log hbase hq] at hlow
  rw [Int.lt_zpow_iff_log_lt hbase hq] at hhigh
  push_cast at hlow hhigh
  omega

/-- **The greatest power of the base that is at most a quotient**, where the sizes of the two sides
differ as their logarithms do. -/
theorem floorLog_eq_log {num den a b numSize denSize : ℕ} (hbase : 1 < base)
    (hnum : base ^ a ≤ num ∧ num < base ^ (a + 1)) (hden : base ^ b ≤ den ∧ den < base ^ (b + 1))
    (hsize : (numSize : ℤ) - denSize = a - b) :
    Binary64.floorLog base num den numSize denSize = Int.log base ((num : ℚ) / den) := by
  have hbasePos : 0 < base := Nat.zero_lt_of_lt hbase
  obtain ⟨hdenPos, hq⟩ := div_pos_of_pow_le hbasePos hnum.1 hden.1
  have hcases := log_div_cases hbase hnum hden
  simp only [Binary64.floorLog, Nat.pow_eq, hsize]
  split
  · rename_i hle
    rw [← zpow_le_div_iff hbasePos hdenPos, Int.zpow_le_iff_le_log hbase hq] at hle
    omega
  · rename_i hlt
    rw [← zpow_le_div_iff hbasePos hdenPos, Int.zpow_le_iff_le_log hbase hq] at hlt
    omega

end Powers

namespace Binary64

variable {negative : Bool} {num den m : ℕ} {e : ℤ} {q x : ℚ}

/-! ## Numbers in their one form -/

/-- A mantissa and an exponent in the one form of their number. -/
structure IsCanonical (m : ℕ) (e : ℤ) : Prop where
  lt : m < 2 * leadingBit
  least : minExponent ≤ e
  greatest : e ≤ maxExponent
  full : minExponent < e → leadingBit ≤ m

theorem cast_leadingBit : (leadingBit : ℚ) = 2 ^ 52 := by norm_num [leadingBit]

theorem IsCanonical.cast_lt (h : IsCanonical m e) : (m : ℚ) + 1 ≤ 2 ^ 53 := by
  have hlt : m + 1 ≤ 2 ^ 53 := h.lt
  exact_mod_cast hlt

theorem two_zpow_pos (e : ℤ) : (0 : ℚ) < 2 ^ e := zpow_pos two_pos e

theorem two_zpow_add (e k : ℤ) : (2 : ℚ) ^ (e + k) = 2 ^ k * 2 ^ e := by
  rw [zpow_add₀ two_ne_zero, mul_comm]

/-- A power of two in units of a lower one. -/
theorem two_zpow_eq (e k : ℤ) : (2 : ℚ) ^ e = 2 ^ k * 2 ^ (e - k) := by
  rw [← two_zpow_add, sub_add_cancel]

/-- The exponent of the grid on which a number is rounded. -/
def gridExponent (q : ℚ) : ℤ := max minExponent (Int.log 2 q - 52)

theorem gridExponent_le_iff (hx : 0 < x) (he : minExponent ≤ e) :
    gridExponent (x * 2 ^ e) ≤ e ↔ x < 2 ^ 53 := by
  have hq : 0 < x * 2 ^ e := mul_pos hx (two_zpow_pos e)
  have hlog : x * 2 ^ e < ((2 : ℕ) : ℚ) ^ (e + 53) ↔ x < 2 ^ 53 := by
    rw [Nat.cast_ofNat, two_zpow_add, mul_lt_mul_iff_left₀ (two_zpow_pos e)]
    exact_mod_cast Iff.rfl
  rw [← hlog, Int.lt_zpow_iff_log_lt one_lt_two hq, gridExponent, max_le_iff]
  omega

theorem le_gridExponent_iff (hx : 0 < x) :
    e ≤ gridExponent (x * 2 ^ e) ↔ e ≤ minExponent ∨ 2 ^ 52 ≤ x := by
  have hq : 0 < x * 2 ^ e := mul_pos hx (two_zpow_pos e)
  have hlog : ((2 : ℕ) : ℚ) ^ (e + 52) ≤ x * 2 ^ e ↔ 2 ^ 52 ≤ x := by
    rw [Nat.cast_ofNat, two_zpow_add, mul_le_mul_iff_left₀ (two_zpow_pos e)]
    exact_mod_cast Iff.rfl
  rw [← hlog, Int.zpow_le_iff_le_log one_lt_two hq, gridExponent, le_max_iff]
  omega

/-- **The grid on which a number is rounded** lets its mantissa have 53 bits, unless the grid is the
finest one. -/
theorem gridExponent_eq (hx : 0 < x) (he : minExponent ≤ e) (hlt : x < 2 ^ 53)
    (hle : e ≤ minExponent ∨ 2 ^ 52 ≤ x) : gridExponent (x * 2 ^ e) = e :=
  le_antisymm ((gridExponent_le_iff hx he).2 hlt) ((le_gridExponent_iff hx).2 hle)

/-- A mantissa that was rounded up to one bit too many is halved, and past the greatest exponent
there is infinity only. -/
def settled (negative : Bool) (m : ℕ) (e : ℤ) : Binary64 :=
  let (m, e) := if m = 2 * leadingBit then (leadingBit, e + 1) else (m, e)
  if maxExponent < e then .infinity negative else .finite negative m e

theorem ofRatio_eq_settled (hnum : 0 < num) (hden : 0 < den) (hq : (num : ℚ) / den = x * 2 ^ e)
    (he : gridExponent (x * 2 ^ e) = e) (hx : RoundsTo x m) :
    ofRatio negative num den = settled negative m e := by
  have hlog : floorLog 2 num den num.log2 den.log2 = Int.log 2 ((num : ℚ) / den) := by
    refine floorLog_eq_log one_lt_two ?_ ?_ rfl
    · exact ⟨Nat.log2_self_le hnum.ne', Nat.lt_log2_self⟩
    · exact ⟨Nat.log2_self_le hden.ne', Nat.lt_log2_self⟩
  have hgrid : max minExponent (floorLog 2 num den num.log2 den.log2 - 52) = e := by
    rw [hlog, hq]
    exact he
  have hround : roundDiv (num * 2 ^ (-e).toNat) (den * 2 ^ e.toNat) = m := by
    have hscaled := div_mul_zpow two_pos num den (-e)
    rw [neg_neg, hq, Nat.cast_ofNat, zpow_neg, mul_inv_cancel_right₀ (two_zpow_pos e).ne']
      at hscaled
    refine (hscaled ▸ roundsTo_roundDiv ?_).unique hx
    positivity
  simp only [ofRatio, hgrid, Nat.pow_eq, hround]
  rfl

/-! ## Numbers near a given one -/

/-- The rationals that a basin holds, for a unit. -/
def Basin.Holds (b : Basin) (unit q : ℚ) : Prop :=
  (b.low * unit < q ∧ q < b.high * unit) ∨
    b.closed = true ∧ (q = b.low * unit ∨ q = b.high * unit)

/-- The numbers that are nearest to a given one. -/
def InBasin (m : ℕ) (e : ℤ) (q : ℚ) : Prop := (basin m e).Holds (2 ^ (e - 2)) q

/-- A basin in units of its grid. -/
theorem inBasin_iff (m : ℕ) (e : ℤ) (x : ℚ) : InBasin m e (x * 2 ^ e) ↔
    ((basin m e).low < 4 * x ∧ 4 * x < 4 * m + 2) ∨
      m % 2 = 0 ∧ (4 * x = (basin m e).low ∨ 4 * x = 4 * m + 2) := by
  have hunit : x * 2 ^ e = 4 * x * 2 ^ (e - 2) := by
    rw [two_zpow_eq e 2]
    ring
  have hpos := two_zpow_pos (e - 2)
  rw [InBasin, Basin.Holds, hunit, mul_lt_mul_iff_left₀ hpos, mul_lt_mul_iff_left₀ hpos,
    mul_left_inj' hpos.ne', mul_left_inj' hpos.ne']
  simp [basin]

/-- The low end of a basin is half a step down, and half of that below a power of two. -/
theorem low_basin (hm : 0 < m) : ((basin m e).low : ℚ) =
    if m = leadingBit ∧ minExponent < e then 4 * (m : ℚ) - 1 else 4 * (m : ℚ) - 2 := by
  have h1 : 1 ≤ 4 * m := by omega
  have h2 : 2 ≤ 4 * m := by omega
  simp only [basin]
  split
  · push_cast [h1]
    rfl
  · push_cast [h2]
    rfl

/-- A mantissa and an exponent in their one form stay as they are. -/
theorem settled_eq (h : IsCanonical m e) : settled negative m e = .finite negative m e := by
  have hlt := h.lt
  have hgreatest := h.greatest
  rw [settled, if_neg hlt.ne]
  exact if_neg (by omega)

theorem settled_carry (h : e ≤ maxExponent) :
    settled negative (2 * leadingBit) (e - 1) = .finite negative leadingBit e := by
  rw [settled, if_pos rfl]
  simp only [sub_add_cancel]
  exact if_neg (by omega)

/-- A number is a multiple of the step of any grid. -/
theorem exists_eq_mul_zpow (q : ℚ) (e : ℤ) : ∃ x : ℚ, q = x * 2 ^ e :=
  ⟨q / 2 ^ e, (div_mul_cancel₀ _ (two_zpow_pos e).ne').symm⟩

/-- Just below a power of two the grid is finer, and the mantissa is rounded up on it. -/
theorem InBasin.roundsTo_carry (hleast : minExponent < e) (hq : InBasin leadingBit e (x * 2 ^ e))
    (hx : x < leadingBit) : x * 2 ^ e = 2 * x * 2 ^ (e - 1) ∧
      gridExponent (2 * x * 2 ^ (e - 1)) = e - 1 ∧ RoundsTo (2 * x) (2 * leadingBit) := by
  rw [inBasin_iff, low_basin (by decide), if_pos ⟨rfl, hleast⟩, cast_leadingBit] at hq
  have hlow : (2 : ℚ) ^ 52 - 1 / 4 ≤ x := by
    rcases hq with ⟨hlow, -⟩ | ⟨-, hlow | hlow⟩ <;> linarith
  rw [cast_leadingBit] at hx
  refine ⟨?_, ?_, ?_, ?_, fun _ => by decide⟩
  · rw [two_zpow_eq e 1]
    ring
  · exact gridExponent_eq (by linarith) (by omega) (by linarith) (Or.inr (by linarith))
  · push_cast [cast_leadingBit]
    linarith
  · push_cast [cast_leadingBit]
    linarith

/-- Elsewhere a number is rounded on the grid of its neighbour. -/
theorem InBasin.roundsTo (h : IsCanonical m e) (hm : 0 < m) (hq : InBasin m e (x * 2 ^ e))
    (hedge : m = leadingBit → minExponent < e → (m : ℚ) ≤ x) :
    gridExponent (x * 2 ^ e) = e ∧ RoundsTo x m := by
  rw [inBasin_iff, low_basin hm] at hq
  have hlt := h.cast_lt
  have hone : (1 : ℚ) ≤ m := by exact_mod_cast hm
  have hlow : (m : ℚ) - 1 / 2 ≤ x ∧ (x = m - 1 / 2 → m % 2 = 0) := by
    split_ifs at hq with hpower
    · have := hedge hpower.1 hpower.2
      exact ⟨by linarith, fun hx => by linarith⟩
    · rcases hq with ⟨hlow, -⟩ | ⟨heven, hends⟩
      · exact ⟨by linarith, fun hx => by linarith⟩
      · exact ⟨by rcases hends with hend | hend <;> linarith, fun _ => heven⟩
  have hhigh : x ≤ m + 1 / 2 ∧ (x = m + 1 / 2 → m % 2 = 0) := by
    rcases hq with ⟨-, hhigh⟩ | ⟨heven, hends⟩
    · exact ⟨by linarith, fun hx => by linarith⟩
    · refine ⟨?_, fun _ => heven⟩
      split_ifs at hends <;> rcases hends with hend | hend <;> linarith
  have hfull : e ≤ minExponent ∨ 2 ^ 52 ≤ x := by
    rcases le_or_gt e minExponent with hleast | hleast
    · exact Or.inl hleast
    right
    rcases (h.full hleast).eq_or_lt with hpower | hlarge
    · have hx := hedge hpower.symm hleast
      rwa [← hpower, cast_leadingBit] at hx
    · have hnext : 2 ^ 52 + 1 ≤ m := hlarge
      have hnext : (2 : ℚ) ^ 52 + 1 ≤ m := by exact_mod_cast hnext
      linarith
  exact ⟨gridExponent_eq (by linarith) h.least (by linarith) hfull,
    hlow.1, hhigh.1, fun hx => hx.elim hlow.2 hhigh.2⟩

/-- **What lies near a number is rounded to it.** -/
theorem ofRatio_of_inBasin (h : IsCanonical m e) (hm : 0 < m) (hnum : 0 < num) (hden : 0 < den)
    (hq : InBasin m e (num / den)) : ofRatio negative num den = .finite negative m e := by
  obtain ⟨x, hx⟩ := exists_eq_mul_zpow ((num : ℚ) / den) e
  rw [hx] at hq
  by_cases hedge : (m = leadingBit ∧ minExponent < e) ∧ x < m
  · obtain ⟨⟨rfl, hleast⟩, hlow⟩ := hedge
    obtain ⟨hfiner, hgrid, hround⟩ := hq.roundsTo_carry hleast hlow
    rw [ofRatio_eq_settled hnum hden (hx.trans hfiner) hgrid hround, settled_carry h.greatest]
  · obtain ⟨hgrid, hround⟩ := hq.roundsTo h hm fun hpower hleast =>
      not_lt.1 fun hlow => hedge ⟨⟨hpower, hleast⟩, hlow⟩
    rw [ofRatio_eq_settled hnum hden hx hgrid hround, settled_eq h]

/-! ## Every number -/

/-- The least number that is nearest to infinity: half a step past the greatest finite one. -/
def overflow : ℚ := 2 ^ 1024 - 2 ^ 970

theorem overflow_eq : overflow = (2 ^ 53 - 1 / 2) * 2 ^ maxExponent := by
  have hpow : (2 : ℚ) ^ maxExponent = 2 ^ 971 := zpow_ofNat 2 971
  rw [overflow, hpow, sub_mul, ← pow_add, one_div, pow_succ' 2 970, inv_mul_cancel_left₀ two_ne_zero]

theorem exists_roundsTo (hx : 0 ≤ x) : ∃ m, RoundsTo x m := by
  have hnum : (x.num.toNat : ℚ) / x.den = x := by
    have hcast : ((x.num.toNat : ℤ) : ℚ) = x.num := by
      rw [Int.toNat_of_nonneg (Rat.num_nonneg.2 hx)]
    rw [← Int.cast_natCast, hcast, Rat.num_div_den]
  exact ⟨_, hnum ▸ roundsTo_roundDiv x.den_pos⟩

theorem two_zpow_le {k : ℤ} (h : e ≤ k) : (2 : ℚ) ^ e ≤ 2 ^ k := zpow_le_zpow_right₀ one_le_two h

/-- One power of two further is twice as much. -/
theorem two_mul_zpow_le {k : ℤ} (h : e < k) : 2 * (2 : ℚ) ^ e ≤ 2 ^ k := by
  have hstep := two_zpow_add e 1
  rw [zpow_one] at hstep
  exact hstep ▸ two_zpow_le (Int.add_one_le_of_lt h)

/-- A mantissa that was rounded up to one bit too many. -/
theorem settled_cases_carry (hx : 0 < x) (hleast : minExponent ≤ e) (hlt : x < 2 ^ 53)
    (hm : RoundsTo x (2 * leadingBit)) :
    (x * 2 ^ e < overflow ∧ ∃ m' e', IsCanonical m' e' ∧
      settled negative (2 * leadingBit) e = .finite negative m' e') ∨
    (overflow ≤ x * 2 ^ e ∧ settled negative (2 * leadingBit) e = .infinity negative) := by
  have hbits : ((2 * leadingBit : ℕ) : ℚ) = 2 ^ 53 := by norm_num [leadingBit]
  have hge := hm.ge
  rw [hbits] at hge
  rw [overflow_eq]
  rcases lt_or_ge e maxExponent with hmax | hmax
  · refine Or.inl ⟨?_, leadingBit, e + 1, ⟨by decide, by omega, by omega, fun _ => le_rfl⟩, ?_⟩
    · have htwo := two_mul_zpow_le hmax
      have hbound := mul_lt_mul_of_pos_right hlt (two_zpow_pos e)
      have hpow := two_zpow_pos e
      linarith
    · have hcarry : settled negative (2 * leadingBit) (e + 1 - 1) =
          .finite negative leadingBit (e + 1) := settled_carry (by omega)
      rwa [add_sub_cancel_right] at hcarry
  · refine Or.inr ⟨mul_le_mul hge (two_zpow_le hmax) (two_zpow_pos _).le hx.le, ?_⟩
    rw [settled, if_pos rfl]
    exact if_pos (by omega)

/-- A mantissa that has no bit too many. -/
theorem settled_cases_of_lt (hleast : minExponent ≤ e) (hfull : minExponent < e → 2 ^ 52 ≤ x)
    (hsmall : m < 2 * leadingBit) (hm : RoundsTo x m) :
    (x * 2 ^ e < overflow ∧ ∃ m' e', IsCanonical m' e' ∧
      settled negative m e = .finite negative m' e') ∨
    (overflow ≤ x * 2 ^ e ∧ settled negative m e = .infinity negative) := by
  have hle := hm.le
  rw [overflow_eq]
  rcases le_or_gt e maxExponent with hmax | hmax
  · have hcanonical : IsCanonical m e := by
      refine ⟨hsmall, hleast, hmax, fun h => ?_⟩
      have hlow : (2 : ℚ) ^ 52 < m + 1 := by linarith [hfull h]
      have hlow : 2 ^ 52 < m + 1 := by exact_mod_cast hlow
      exact Nat.le_of_lt_succ hlow
    have hcast := hcanonical.cast_lt
    -- the greatest mantissa is odd, so half a step above it is not rounded down
    have hbelow : x < 2 ^ 53 - 1 / 2 := by
      refine lt_of_le_of_ne (by linarith) fun heq => ?_
      have hodd : (m : ℚ) + 1 = 2 ^ 53 := by linarith
      have hodd : m + 1 = 2 ^ 53 := by exact_mod_cast hodd
      have := hm.even (Or.inr (by linarith))
      omega
    exact Or.inl ⟨mul_lt_mul hbelow (two_zpow_le hmax) (two_zpow_pos e) (by norm_num), m, e,
      hcanonical, settled_eq hcanonical⟩
  · refine Or.inr ⟨?_, ?_⟩
    · have htwo := two_mul_zpow_le hmax
      have hbound := mul_le_mul_of_nonneg_right (hfull (lt_trans (by decide) hmax))
        (two_zpow_pos e).le
      have hmaxPos := two_zpow_pos maxExponent
      linarith
    · rw [settled, if_neg hsmall.ne]
      exact if_pos hmax

/-- **A mantissa and an exponent after rounding**: infinity where the number is too large, and else
a finite number in its one form. -/
theorem settled_cases (hx : 0 < x) (he : gridExponent (x * 2 ^ e) = e) (hm : RoundsTo x m) :
    (x * 2 ^ e < overflow ∧ ∃ m' e', IsCanonical m' e' ∧
      settled negative m e = .finite negative m' e') ∨
    (overflow ≤ x * 2 ^ e ∧ settled negative m e = .infinity negative) := by
  have hleast : minExponent ≤ e := he ▸ le_max_left _ _
  have hlt : x < 2 ^ 53 := (gridExponent_le_iff hx hleast).1 he.le
  have hfull : minExponent < e → 2 ^ 52 ≤ x := fun h =>
    ((le_gridExponent_iff hx).1 he.ge).resolve_left (not_le.2 h)
  have hlarge : m ≤ 2 * leadingBit := by
    have hcast : (m : ℚ) < 2 ^ 53 + 1 := by linarith [hm.ge]
    have hcast : m < 2 ^ 53 + 1 := by exact_mod_cast hcast
    exact Nat.le_of_lt_succ hcast
  rcases hlarge.eq_or_lt with rfl | hsmall
  · exact settled_cases_carry hx hleast hlt hm
  · exact settled_cases_of_lt hleast hfull hsmall hm

/-- **Every number is rounded**: to infinity where it is too large, and else to a finite number in
its one form. -/
theorem ofRatio_cases (hnum : 0 < num) (hden : 0 < den) :
    ((num : ℚ) / den < overflow ∧ ∃ m e, IsCanonical m e ∧
      ofRatio negative num den = .finite negative m e) ∨
    (overflow ≤ (num : ℚ) / den ∧ ofRatio negative num den = .infinity negative) := by
  have hq : (0 : ℚ) < num / den := by positivity
  obtain ⟨e, he⟩ : ∃ e, e = gridExponent ((num : ℚ) / den) := ⟨_, rfl⟩
  obtain ⟨x, hx⟩ := exists_eq_mul_zpow ((num : ℚ) / den) e
  rw [hx] at hq he
  have hpos : 0 < x := (mul_pos_iff_of_pos_right (two_zpow_pos e)).1 hq
  obtain ⟨m, hm⟩ := exists_roundsTo hpos.le
  rw [ofRatio_eq_settled hnum hden hx he.symm hm, hx]
  exact settled_cases hpos he.symm hm

/-! ## Decimals -/

section Decimals

variable {n digits : ℕ} {exponent : ℤ}

/-- **The size of a number** tells between which powers of ten it is. -/
theorem decimalSize_spec (hn : 0 < n) :
    10 ^ (decimalSize n - 1) ≤ n ∧ n < 10 ^ (decimalSize n - 1 + 1) := by
  have hpos : 0 < decimalSize n := Nat.length_toDigits_pos
  have hsize : ∀ {k : ℕ}, 0 < k → (decimalSize n ≤ k ↔ n < 10 ^ k) :=
    Nat.length_toDigits_le_iff (by decide)
  constructor
  · rcases Nat.eq_zero_or_pos (decimalSize n - 1) with hone | hmore
    · rw [hone]
      exact hn
    · exact Nat.le_of_not_lt fun hlt => by
        have := (hsize hmore).2 hlt
        omega
  · rw [Nat.sub_add_cancel hpos]
    exact (hsize hpos).1 le_rfl

theorem ten_zpow_pos (k : ℤ) : (0 : ℚ) < 10 ^ k := zpow_pos (by norm_num) k

/-- The size of a decimal tells between which powers of ten it is. -/
theorem size_spec (hdigits : 0 < digits) (exponent : ℤ) :
    (10 : ℚ) ^ (decimalSize digits + exponent - 1) ≤ digits * 10 ^ exponent ∧
      digits * (10 : ℚ) ^ exponent < 10 ^ (decimalSize digits + exponent) := by
  have hpos : 0 < decimalSize digits := Nat.length_toDigits_pos
  obtain ⟨hlow, hhigh⟩ := decimalSize_spec hdigits
  have hsplit : ∀ k : ℕ, (10 : ℚ) ^ ((k : ℤ) + exponent) = (10 ^ k : ℕ) * 10 ^ exponent := by
    intro k
    rw [zpow_add₀ (by norm_num), zpow_natCast]
    push_cast
    rfl
  have hlow' : (decimalSize digits : ℤ) + exponent - 1 = (decimalSize digits - 1 : ℕ) + exponent := by
    omega
  have hhigh' : (decimalSize digits : ℤ) = (decimalSize digits - 1 + 1 : ℕ) := by omega
  rw [hlow', hsplit]
  refine ⟨?_, ?_⟩
  · exact mul_le_mul_of_nonneg_right (by exact_mod_cast hlow) (ten_zpow_pos _).le
  · rw [hhigh', hsplit]
    exact mul_lt_mul_of_pos_right (by exact_mod_cast hhigh) (ten_zpow_pos _)

theorem overflow_lt : overflow < 10 ^ (310 : ℤ) := by
  have hpow : (2 : ℕ) ^ 1024 ≤ 10 ^ 310 := by decide +kernel
  have hpow : (2 : ℚ) ^ 1024 ≤ 10 ^ 310 := by exact_mod_cast hpow
  have hpos : (0 : ℚ) < 2 ^ 970 := pow_pos two_pos _
  have hten : (10 : ℚ) ^ (310 : ℤ) = 10 ^ 310 := zpow_ofNat 10 310
  rw [overflow, hten]
  exact (sub_lt_self _ hpos).trans_le hpow

theorem one_lt_overflow : 1 < overflow := by
  have hpow : (1 : ℚ) ≤ 2 ^ maxExponent := one_le_zpow₀ (by norm_num) (by decide)
  rw [overflow_eq]
  linarith

/-- A decimal is a quotient. -/
theorem decimal_eq_div (digits : ℕ) (exponent : ℤ) : (digits : ℚ) * 10 ^ exponent =
    (digits * 10 ^ exponent.toNat : ℕ) / (10 ^ (-exponent).toNat : ℕ) :=
  mul_zpow_eq_div (by decide : 0 < 10) digits exponent

/-- **Every decimal is rounded**: to infinity where it is too large, and else to a finite number in
its one form. -/
theorem ofDecimal_cases (negative : Bool) (digits : ℕ) (exponent : ℤ) :
    ((digits : ℚ) * 10 ^ exponent < overflow ∧ ∃ m e, IsCanonical m e ∧
      ofDecimal negative digits exponent = .finite negative m e) ∨
    (overflow ≤ (digits : ℚ) * 10 ^ exponent ∧
      ofDecimal negative digits exponent = .infinity negative) := by
  have hzero : IsCanonical 0 minExponent :=
    ⟨by decide, le_rfl, by decide, fun h => absurd h (lt_irrefl _)⟩
  simp only [ofDecimal, Nat.pow_eq]
  rcases Nat.eq_zero_or_pos digits with rfl | hdigits
  · left
    rw [if_pos (Or.inl rfl), Nat.cast_zero, zero_mul]
    exact ⟨one_pos.trans one_lt_overflow, 0, minExponent, hzero, rfl⟩
  obtain ⟨hlow, hhigh⟩ := size_spec hdigits exponent
  split
  · rename_i hsmall
    have hsmall := hsmall.resolve_left hdigits.ne'
    have hone : (10 : ℚ) ^ (decimalSize digits + exponent) ≤ 1 :=
      zpow_le_one_of_nonpos₀ (by norm_num) (by omega)
    exact Or.inl ⟨by linarith [one_lt_overflow], 0, minExponent, hzero, rfl⟩
  split
  · rename_i hlarge
    have hpow : (10 : ℚ) ^ (310 : ℤ) ≤ 10 ^ (decimalSize digits + exponent - 1) :=
      zpow_le_zpow_right₀ (by norm_num) (by omega)
    exact Or.inr ⟨by linarith [overflow_lt], rfl⟩
  · rw [decimal_eq_div]
    exact ofRatio_cases (by positivity) (by positivity)

/-- What lies near a positive number is positive, by half the finest step at least. -/
theorem InBasin.ge (hm : 0 < m) (hq : InBasin m e q) : (2 : ℚ) ^ (e - 1) ≤ q := by
  obtain ⟨x, rfl⟩ := exists_eq_mul_zpow q e
  have hone : (1 : ℚ) ≤ m := by exact_mod_cast hm
  have hx : 1 / 2 ≤ x := by
    rw [inBasin_iff, low_basin hm] at hq
    split_ifs at hq <;> rcases hq with ⟨hlow, -⟩ | ⟨-, hend | hend⟩ <;> linarith
  rw [two_zpow_eq e 1, zpow_one]
  linarith [mul_le_mul_of_nonneg_right hx (two_zpow_pos (e - 1)).le]

/-- What lies near a finite number is at most halfway past the greatest one. -/
theorem InBasin.le (h : IsCanonical m e) (hm : 0 < m) (hq : InBasin m e q) : q ≤ overflow := by
  obtain ⟨x, rfl⟩ := exists_eq_mul_zpow q e
  have hone : (1 : ℚ) ≤ m := by exact_mod_cast hm
  have hlarge := h.cast_lt
  have hx : x ≤ 2 ^ 53 - 1 / 2 := by
    rw [inBasin_iff, low_basin hm] at hq
    split_ifs at hq <;> rcases hq with ⟨-, hhigh⟩ | ⟨-, hend | hend⟩ <;> linarith
  rw [overflow_eq]
  exact mul_le_mul hx (two_zpow_le h.greatest) (two_zpow_pos e).le (by norm_num)

/-- **Neither of the two shortcuts is taken** between half the finest step and infinity. -/
theorem ofDecimal_eq_ofRatio (negative : Bool)
    (hge : (2 : ℚ) ^ (minExponent - 1) ≤ digits * 10 ^ exponent)
    (hle : (digits : ℚ) * 10 ^ exponent ≤ overflow) : 0 < digits ∧
      ofDecimal negative digits exponent =
        ofRatio negative (digits * 10 ^ exponent.toNat) (10 ^ (-exponent).toNat) := by
  have hdigits : 0 < digits := by
    refine Nat.pos_of_ne_zero fun hzero => ?_
    rw [hzero, Nat.cast_zero, zero_mul] at hge
    exact absurd (two_zpow_pos (minExponent - 1)) (not_lt.2 hge)
  obtain ⟨hlow, hhigh⟩ := size_spec hdigits exponent
  have hsmall : ¬ (digits = 0 ∨ (decimalSize digits : ℤ) + exponent < -330) := by
    rintro (hzero | hsmall)
    · exact hdigits.ne' hzero
    · have hpow : (10 : ℚ) ^ (decimalSize digits + exponent) ≤ 10 ^ (-331 : ℤ) :=
        zpow_le_zpow_right₀ (by norm_num) (by omega)
      have htwo : (10 : ℚ) ^ (-331 : ℤ) ≤ 2 ^ (minExponent - 1) := by
        have hnat : (2 : ℕ) ^ 1075 ≤ 10 ^ 331 := by decide +kernel
        have hrat : (2 : ℚ) ^ 1075 ≤ 10 ^ 331 := by exact_mod_cast hnat
        have hleast : minExponent - 1 = -(1075 : ℕ) := rfl
        rw [hleast, zpow_neg, zpow_neg]
        exact inv_anti₀ (by positivity) (by exact_mod_cast hrat)
      linarith
  have hlarge : ¬ 310 < (decimalSize digits : ℤ) + exponent := by
    intro hlarge
    have hpow : (10 : ℚ) ^ (310 : ℤ) ≤ 10 ^ (decimalSize digits + exponent - 1) :=
      zpow_le_zpow_right₀ (by norm_num) (by omega)
    linarith [overflow_lt]
  simp only [ofDecimal, Nat.pow_eq]
  rw [if_neg hsmall, if_neg hlarge]
  exact ⟨hdigits, rfl⟩

/-- **A decimal near a number is rounded to it.** -/
theorem ofDecimal_of_inBasin (h : IsCanonical m e) (hm : 0 < m)
    (hq : InBasin m e (digits * 10 ^ exponent)) :
    ofDecimal negative digits exponent = .finite negative m e := by
  have hfinest : (2 : ℚ) ^ (minExponent - 1) ≤ 2 ^ (e - 1) := two_zpow_le (by have := h.least; omega)
  obtain ⟨hdigits, hdecimal⟩ :=
    ofDecimal_eq_ofRatio negative (hfinest.trans (hq.ge hm)) (hq.le h hm)
  rw [hdecimal]
  refine ofRatio_of_inBasin h hm (by positivity) (by positivity) ?_
  rwa [← decimal_eq_div]

end Decimals

end Binary64

end DesignTokens
