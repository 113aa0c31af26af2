import Mathlib.Algebra.Order.Field.Power
import Mathlib.Algebra.Order.Field.Rat
import Mathlib.Tactic.Positivity
import Mathlib.Tactic.Linarith
import Mathlib.Tactic.Ring
import RobotBridge.Numeric.Binary

/-! Exact conversion: a fraction that a format can hold is rounded to the number it is, and a double can
hold what a single does, so a single that is widened and narrowed again is the same word. -/
namespace RobotBridge.Numeric

variable {f g : Format} {num den : Nat}

/-! ### Rounding a fraction -/

theorem roundHalfEven_mul (n : Nat) (hden : 0 < den) : roundHalfEven (n * den) den = n := by
  simp [roundHalfEven, Nat.mul_div_cancel n hden, hden]

/-- A fraction against a power of two, in naturals. -/
theorem two_zpow_le_div (hden : 0 < den) (k : Int) : (2 : ℚ) ^ k ≤ num / den ↔
    if 0 ≤ k then den * Nat.pow 2 k.toNat ≤ num else den ≤ num * Nat.pow 2 (-k).toNat := by
  have hpos : (0 : ℚ) < den := by exact_mod_cast hden
  rw [le_div_iff₀ hpos]
  simp only [Nat.pow_eq]
  split
  case isTrue hk =>
    obtain ⟨n, rfl⟩ := Int.eq_ofNat_of_zero_le hk
    rw [Int.toNat_natCast, zpow_natCast, mul_comm]
    exact_mod_cast Iff.rfl
  case isFalse hk =>
    obtain ⟨n, rfl⟩ : ∃ n : Nat, k = -(n : Int) := ⟨(-k).toNat, by omega⟩
    have hpow : (0 : ℚ) < 2 ^ n := by positivity
    rw [neg_neg, Int.toNat_natCast, zpow_neg, zpow_natCast, ← div_eq_inv_mul, div_le_iff₀ hpow]
    exact_mod_cast Iff.rfl

theorem log2_bounds {n : Nat} (hn : n ≠ 0) : (2 : ℚ) ^ (n.log2 : Int) ≤ n ∧ (n : ℚ) < 2 ^ (n.log2 + 1 : Int) := by
  have hhigh : n < 2 ^ (n.log2 + 1) := Nat.lt_log2_self
  constructor
  · exact_mod_cast Nat.log2_self_le hn
  · exact_mod_cast hhigh

theorem leadingExponent_eq {k : Int} (hden : 0 < den) (hlow : (2 : ℚ) ^ k ≤ num / den)
    (hhigh : (num : ℚ) / den < 2 ^ (k + 1)) : leadingExponent num den = k := by
  have hpos : (0 : ℚ) < den := by exact_mod_cast hden
  have hone : (1 : ℚ) < 2 := one_lt_two
  have hnum : num ≠ 0 := by
    rintro rfl
    have hpow : (0 : ℚ) < 2 ^ k := by positivity
    rw [Nat.cast_zero, zero_div] at hlow
    exact absurd hlow (not_le.mpr hpow)
  obtain ⟨hnumLow, hnumHigh⟩ := log2_bounds hnum
  obtain ⟨hdenLow, hdenHigh⟩ := log2_bounds hden.ne'
  -- the guess is the exponent or one more
  have habove : (2 : ℚ) ^ k < 2 ^ ((num.log2 : Int) - den.log2 + 1) := by
    refine lt_of_le_of_lt hlow ?_
    rw [div_lt_iff₀ hpos, show (num.log2 : Int) - den.log2 + 1 = num.log2 + 1 - den.log2 by omega,
      zpow_sub₀ two_ne_zero, div_mul_eq_mul_div, lt_div_iff₀ (by positivity)]
    exact mul_lt_mul hnumHigh hdenLow (by positivity) (by positivity)
  have hbelow : (2 : ℚ) ^ ((num.log2 : Int) - den.log2 - 1) < 2 ^ (k + 1) := by
    refine lt_trans ?_ hhigh
    rw [lt_div_iff₀ hpos, show (num.log2 : Int) - den.log2 - 1 = num.log2 - (den.log2 + 1) by omega,
      zpow_sub₀ two_ne_zero, div_mul_eq_mul_div, div_lt_iff₀ (by positivity)]
    exact mul_lt_mul' hnumLow hdenHigh (by positivity) (by positivity)
  rw [zpow_lt_zpow_iff_right₀ hone] at habove hbelow
  unfold leadingExponent
  simp only [← two_zpow_le_div hden]
  by_cases hreached : (2 : ℚ) ^ ((num.log2 : Int) - den.log2) ≤ num / den
  · have hle := lt_of_le_of_lt hreached hhigh
    rw [zpow_lt_zpow_iff_right₀ hone] at hle
    rw [if_pos hreached]
    omega
  · have hlt := lt_of_le_of_lt hlow (not_le.mp hreached)
    rw [zpow_lt_zpow_iff_right₀ hone] at hlt
    rw [if_neg hreached]
    omega

/-! ### The value of a number -/

namespace Binary

variable {x : Binary f}

def value (x : Binary f) : ℚ := x.significand * 2 ^ x.exponent

theorem minExponent_le : f.minExponent ≤ x.exponent := by
  unfold exponent
  omega

/-- A magnitude is its exponent field and its significand, whose leading bit is carried into the field. -/
theorem magnitude_eq (x : Binary f) :
    x.magnitude = (x.exponent - f.minExponent).toNat * Nat.pow 2 f.fractionBits + x.significand := by
  have hpos : 0 < Nat.pow 2 f.fractionBits := Nat.two_pow_pos _
  have hdiv := Nat.div_add_mod x.magnitude (Nat.pow 2 f.fractionBits)
  have hfield : (x.exponent - f.minExponent).toNat = x.magnitude / Nat.pow 2 f.fractionBits - 1 := by
    unfold exponent
    omega
  rw [hfield]
  unfold significand
  split
  case isTrue h =>
    rw [Nat.div_eq_of_lt h]
    omega
  case isFalse h =>
    have hfirst : 1 ≤ x.magnitude / Nat.pow 2 f.fractionBits := (Nat.one_le_div_iff hpos).mpr (Nat.le_of_not_lt h)
    obtain ⟨q, hq⟩ := Nat.exists_eq_add_of_le hfirst
    rw [hq, Nat.mul_add, Nat.mul_one] at hdiv
    rw [hq, Nat.add_sub_cancel_left, Nat.mul_comm q]
    omega

/-- Above the least exponent the leading bit is there. -/
theorem significand_bounds (x : Binary f) : x.significand < 2 ^ (f.fractionBits + 1) ∧
    (x.exponent ≠ f.minExponent → 2 ^ f.fractionBits ≤ x.significand) := by
  have hpos : 0 < Nat.pow 2 f.fractionBits := Nat.two_pow_pos _
  have hmod := Nat.mod_lt x.magnitude hpos
  unfold significand exponent
  simp only [Nat.pow_eq] at *
  rw [Nat.pow_succ]
  split
  case isTrue h =>
    rw [Nat.div_eq_of_lt h]
    omega
  case isFalse h => omega

theorem fraction_spec (x : Binary f) : 0 < x.fraction.2 ∧ (x.fraction.1 : ℚ) / x.fraction.2 = x.value := by
  unfold fraction value
  simp only [Nat.pow_eq]
  split
  case isTrue hk =>
    obtain ⟨n, hn⟩ := Int.eq_ofNat_of_zero_le hk
    refine ⟨Nat.one_pos, ?_⟩
    rw [hn, Int.toNat_natCast, zpow_natCast]
    push_cast
    rw [div_one]
  case isFalse hk =>
    obtain ⟨n, hn⟩ : ∃ n : Nat, x.exponent = -(n : Int) := ⟨(-x.exponent).toNat, by omega⟩
    refine ⟨Nat.two_pow_pos _, ?_⟩
    rw [hn, neg_neg, Int.toNat_natCast, zpow_neg, zpow_natCast, div_eq_mul_inv]
    push_cast
    rfl

theorem leadingExponent_value (hden : 0 < den) (h : (num : ℚ) / den = x.value) (hs : x.significand ≠ 0) :
    leadingExponent num den = x.significand.log2 + x.exponent := by
  have hpow : (0 : ℚ) < 2 ^ x.exponent := by positivity
  obtain ⟨hlow, hhigh⟩ := log2_bounds hs
  apply leadingExponent_eq hden
  · rw [h, value, zpow_add₀ two_ne_zero]
    exact mul_le_mul_of_nonneg_right hlow hpow.le
  · rw [h, value, add_right_comm, zpow_add₀ two_ne_zero]
    exact mul_lt_mul_of_pos_right hhigh hpow

/-- The exponent at which a fraction is rounded is the one of the number it stands for. -/
theorem max_leadingExponent_value (hden : 0 < den) (h : (num : ℚ) / den = x.value) (hs : x.significand ≠ 0) :
    max (leadingExponent num den - f.fractionBits) f.minExponent = x.exponent := by
  obtain ⟨hhigh, hnormal⟩ := x.significand_bounds
  have hlog : x.significand.log2 < f.fractionBits + 1 := (Nat.log2_lt hs).mpr hhigh
  have hleast : f.minExponent ≤ x.exponent := minExponent_le
  rw [leadingExponent_value hden h hs]
  by_cases he : x.exponent = f.minExponent
  · omega
  · have hlead : f.fractionBits ≤ x.significand.log2 := (Nat.le_log2 hs).mpr (hnormal he)
    omega

/-- At its own exponent the number has its significand. -/
theorem roundHalfEven_value (hden : 0 < den) (h : (num : ℚ) / den = x.value) :
    (if 0 ≤ x.exponent then roundHalfEven num (den * Nat.pow 2 x.exponent.toNat)
      else roundHalfEven (num * Nat.pow 2 (-x.exponent).toNat) den) = x.significand := by
  have hpos : (0 : ℚ) < den := by exact_mod_cast hden
  rw [value, div_eq_iff hpos.ne'] at h
  simp only [Nat.pow_eq]
  split
  case isTrue hk =>
    obtain ⟨n, hn⟩ := Int.eq_ofNat_of_zero_le hk
    rw [hn, zpow_natCast] at h
    have hmul : num = x.significand * (den * 2 ^ n) := by
      rw [Nat.mul_comm den, ← Nat.mul_assoc]
      exact_mod_cast h
    rw [hn, Int.toNat_natCast, hmul]
    exact roundHalfEven_mul _ (Nat.mul_pos hden (Nat.two_pow_pos _))
  case isFalse hk =>
    obtain ⟨n, hn⟩ : ∃ n : Nat, x.exponent = -(n : Int) := ⟨(-x.exponent).toNat, by omega⟩
    have htwo : (0 : ℚ) < 2 ^ n := by positivity
    have hmul : num * 2 ^ n = x.significand * den := by
      rw [hn, zpow_neg, zpow_natCast, mul_right_comm, ← div_eq_mul_inv, eq_div_iff htwo.ne'] at h
      exact_mod_cast h
    rw [hn, neg_neg, Int.toNat_natCast, hmul]
    exact roundHalfEven_mul _ hden

/-- A fraction that a finite number stands for is rounded to this number. -/
theorem roundMagnitude_value (hx : x.isFinite) (hden : 0 < den) (h : (num : ℚ) / den = x.value) :
    roundMagnitude f num den = x.magnitude := by
  have hpos : (0 : ℚ) < den := by exact_mod_cast hden
  have hpow : (0 : ℚ) < 2 ^ x.exponent := by positivity
  have hfinite : x.magnitude < f.infinity := by simpa [isFinite] using hx
  have hzero : num = 0 ↔ x.significand = 0 := by
    rw [value, div_eq_iff hpos.ne'] at h
    rw [← Nat.cast_eq_zero (R := ℚ), h]
    simp [hpos.ne', hpow.ne']
  unfold roundMagnitude
  by_cases hs : x.significand = 0
  · have hleast : x.exponent = f.minExponent := by
      by_contra he
      have hlow := x.significand_bounds.2 he
      have htwo := Nat.two_pow_pos f.fractionBits
      omega
    rw [if_pos (hzero.mpr hs), x.magnitude_eq, hs, hleast, Int.sub_self, Int.toNat_zero, Nat.zero_mul]
  · simp only [if_neg (mt hzero.mp hs), max_leadingExponent_value hden h hs, roundHalfEven_value hden h]
    rw [← x.magnitude_eq]
    exact Nat.min_eq_left hfinite.le

/-! ### Words -/

theorem infinity_lt (f : Format) : f.infinity < 2 ^ f.magnitudeBits := by
  have hpos := Nat.two_pow_pos f.exponentBits
  simp only [Format.infinity, Format.magnitudeBits, Nat.pow_eq, Nat.pow_add]
  exact Nat.mul_lt_mul_of_pos_right (by omega) (Nat.two_pow_pos _)

theorem two_pow_width (f : Format) : 2 ^ f.width = 2 * 2 ^ f.magnitudeBits := Nat.pow_succ'

theorem negative_eq (x : Binary f) : x.negative = decide (2 ^ f.magnitudeBits ≤ x.word.toNat) :=
  BitVec.msb_eq_decide x.word

section OfMagnitude

variable {negative : Bool} {m : Nat} (hm : m < 2 ^ f.magnitudeBits)
include hm

theorem toNat_ofMagnitude :
    (ofMagnitude negative m : Binary f).word.toNat = (if negative then 2 ^ f.magnitudeBits else 0) + m := by
  simp only [ofMagnitude, BitVec.toNat_ofNat, Nat.pow_eq]
  rw [two_pow_width, Nat.mod_eq_of_lt hm]
  apply Nat.mod_eq_of_lt
  split <;> omega

theorem magnitude_ofMagnitude : (ofMagnitude negative m : Binary f).magnitude = m := by
  rw [magnitude, toNat_ofMagnitude hm, Nat.pow_eq]
  cases negative
  · rw [if_neg Bool.false_ne_true, Nat.zero_add, Nat.mod_eq_of_lt hm]
  · rw [if_pos rfl, Nat.add_mod_left, Nat.mod_eq_of_lt hm]

theorem negative_ofMagnitude : (ofMagnitude negative m : Binary f).negative = negative := by
  rw [negative_eq, toNat_ofMagnitude hm]
  cases negative <;> simp [hm]

end OfMagnitude

theorem ofMagnitude_magnitude (x : Binary f) : ofMagnitude x.negative x.magnitude = x := by
  have hm : x.magnitude < 2 ^ f.magnitudeBits := Nat.mod_lt _ (Nat.two_pow_pos _)
  have hword : (ofMagnitude x.negative x.magnitude : Binary f).word = x.word := by
    apply BitVec.eq_of_toNat_eq
    have hlt : x.word.toNat < 2 * 2 ^ f.magnitudeBits := two_pow_width f ▸ x.word.isLt
    rw [toNat_ofMagnitude hm, x.negative_eq, magnitude, Nat.pow_eq]
    by_cases h : 2 ^ f.magnitudeBits ≤ x.word.toNat
    · rw [if_pos (decide_eq_true h), Nat.mod_eq_sub_mod h, Nat.mod_eq_of_lt (by omega)]
      omega
    · rw [if_neg (by simpa using h), Nat.zero_add, Nat.mod_eq_of_lt (by omega)]
  cases x
  exact congrArg Binary.mk hword

/-! ### Conversion -/

/-- A finite number is converted to the one of the same sign and value, where the format has it. -/
theorem convert_eq {y : Binary g} (hx : x.isFinite) (hy : y.isFinite) (hsign : x.negative = y.negative)
    (hvalue : x.value = y.value) : x.convert = y := by
  have hfinite : x.magnitude < f.infinity := by simpa [isFinite] using hx
  have hnan : x.isNaN = false := by simpa [isNaN] using hfinite.le
  have hinfinite : x.isInfinite = false := by simpa [isInfinite] using hfinite.ne
  obtain ⟨hden, hfraction⟩ := x.fraction_spec
  rw [convert, hnan, hinfinite, if_neg Bool.false_ne_true, if_neg Bool.false_ne_true, ofFraction,
    roundMagnitude_value hy hden (hfraction.trans hvalue), hsign, ofMagnitude_magnitude]

/-- What an exponent field and a significand stand for. -/
theorem value_of_magnitude {n s : Nat} (hs : s < 2 ^ (f.fractionBits + 1))
    (hnormal : n ≠ 0 → 2 ^ f.fractionBits ≤ s) (hx : x.magnitude = n * 2 ^ f.fractionBits + s) :
    x.value = s * 2 ^ (f.minExponent + n) := by
  have hpos := Nat.two_pow_pos f.fractionBits
  have hparts : x.significand = s ∧ x.exponent = f.minExponent + n := by
    unfold significand exponent
    simp only [Nat.pow_eq, hx]
    by_cases hlow : s < 2 ^ f.fractionBits
    · obtain rfl : n = 0 := by
        by_contra hn
        exact absurd (hnormal hn) (Nat.not_le.mpr hlow)
      rw [Nat.zero_mul, Nat.zero_add, if_pos hlow, Nat.div_eq_of_lt hlow]
      exact ⟨rfl, rfl⟩
    · obtain ⟨r, rfl⟩ := Nat.exists_eq_add_of_le (Nat.le_of_not_lt hlow)
      have hr : r < 2 ^ f.fractionBits := by
        rw [Nat.pow_succ] at hs
        omega
      have hfield : n * 2 ^ f.fractionBits + (2 ^ f.fractionBits + r) = 2 ^ f.fractionBits * (n + 1) + r := by
        ring
      rw [hfield, Nat.mul_add_mod, Nat.mod_eq_of_lt hr, Nat.mul_add_div hpos, Nat.div_eq_of_lt hr,
        if_neg (by nlinarith)]
      exact ⟨rfl, by omega⟩
  rw [value, hparts.1, hparts.2]

/-- A significand with at most one bit more than is stored, scaled by a power of two that is not below the
least, is a number: doubled until its leading bit is there or the least power is reached. -/
theorem exists_value (negative : Bool) (n s : Nat) (hs : s < 2 ^ (f.fractionBits + 1))
    (hfits : n * 2 ^ f.fractionBits + s < f.infinity) :
    ∃ x : Binary f, x.isFinite ∧ x.negative = negative ∧ x.value = s * 2 ^ (f.minExponent + n) := by
  by_cases hnormal : n ≠ 0 → 2 ^ f.fractionBits ≤ s
  · have hm := Nat.lt_trans hfits (infinity_lt f)
    refine ⟨ofMagnitude negative (n * 2 ^ f.fractionBits + s), ?_, negative_ofMagnitude hm,
      value_of_magnitude hs hnormal (magnitude_ofMagnitude hm)⟩
    rw [isFinite, magnitude_ofMagnitude hm]
    exact decide_eq_true hfits
  · obtain ⟨hn, hlow⟩ := Classical.not_imp.mp hnormal
    obtain ⟨n, rfl⟩ := Nat.exists_eq_succ_of_ne_zero hn
    rw [Nat.pow_succ] at hs
    rw [Nat.succ_mul] at hfits
    obtain ⟨x, hx, hsign, hvalue⟩ := exists_value negative n (2 * s) (by rw [Nat.pow_succ]; omega) (by omega)
    refine ⟨x, hx, hsign, ?_⟩
    rw [hvalue, Nat.cast_succ, ← add_assoc, zpow_add_one₀ two_ne_zero]
    push_cast
    ring

theorem exists_double {x : Single} (hx : x.isFinite) :
    ∃ y : Double, y.isFinite ∧ y.negative = x.negative ∧ y.value = x.value := by
  have hfinite : x.magnitude < Format.single.infinity := by simpa [isFinite] using hx
  have hinfinity : Format.single.infinity = 255 * 2 ^ 23 := by decide
  have hleast : Format.single.minExponent = -149 := by decide
  have hdouble : Format.double.minExponent = -1074 := by decide
  have hlimit : Format.double.infinity = 2047 * 2 ^ 52 := by decide
  have hlow : Format.single.minExponent ≤ x.exponent := minExponent_le
  have hs : x.significand < 2 ^ 24 := x.significand_bounds.1
  have hmagnitude : x.magnitude = (x.exponent - Format.single.minExponent).toNat * 2 ^ 23 + x.significand :=
    x.magnitude_eq
  rw [hleast] at hlow hmagnitude
  obtain ⟨y, hy, hsign, hvalue⟩ := exists_value (f := .double) x.negative (x.exponent + 1074).toNat x.significand
    (Nat.lt_trans hs (by decide)) (by rw [hlimit]; change _ * 2 ^ 52 + _ < _; omega)
  refine ⟨y, hy, hsign, hvalue.trans ?_⟩
  rw [value, hdouble]
  congr 2
  omega

/-- A finite single is the same word after widening and narrowing. -/
theorem convert_convert {x : Single} (hx : x.isFinite) : (x.convert : Double).convert = x := by
  obtain ⟨y, hy, hsign, hvalue⟩ := exists_double hx
  rw [convert_eq hx hy hsign.symm hvalue.symm, convert_eq hy hx hsign hvalue]

end Binary

end RobotBridge.Numeric
