import BulkDml.Number.Shortest
import Mathlib.Algebra.Order.Field.Power
import Mathlib.Algebra.Order.Floor.Semifield
import Mathlib.Data.Int.Log
import Mathlib.Data.Rat.Floor
import Mathlib.Tactic.FieldSimp
import Mathlib.Tactic.GCongr
import Mathlib.Tactic.Positivity
import Mathlib.Tactic.Ring

/-! # Rounding

Rounding a quotient depends on its value only, and a magnitude that has a code is rounded to this code.
Magnitudes are rational numbers here, `s · 2^q` and `d · 10^e` with exponents of either sign.

* `floorLog2_eq_log` — the exponent of a quotient is its logarithm;
* `BinaryFormat.nearest_congr` — equal quotients are rounded alike;
* `BinaryFormat.nearest_of_eq` — a significand that fits is kept;
* `BinaryFormat.nearest_of_magnitude` — the magnitude of a code is rounded to the code;
* `BinaryFormat.nearestDecimal_mul_pow` — a decimal can be written with more digits.
-/

namespace BulkDml

/-! ## Quotients -/

/-- Rounding a quotient of multiples. -/
theorem roundQuotient_mul_right (numerator denominator : Nat) {factor : Nat} (h : 0 < factor) :
    roundQuotient (numerator * factor) (denominator * factor) = roundQuotient numerator denominator := by
  have htwice : 2 * (numerator * factor % (denominator * factor))
      = 2 * (numerator % denominator) * factor := by
    rw [Nat.mul_mod_mul_right, Nat.mul_assoc]
  simp only [roundQuotient, Nat.mul_div_mul_right _ _ h, htwice, Nat.mul_lt_mul_right h]

/-- Equal quotients are rounded alike. -/
theorem roundQuotient_congr {numerator denominator other otherDenominator : Nat}
    (hdenominator : 0 < denominator) (hother : 0 < otherDenominator)
    (h : numerator * otherDenominator = other * denominator) :
    roundQuotient numerator denominator = roundQuotient other otherDenominator := by
  rw [← roundQuotient_mul_right numerator denominator hother, h, Nat.mul_comm denominator,
    roundQuotient_mul_right other otherDenominator hdenominator]

/-- A whole number is not rounded. -/
theorem roundQuotient_mul_self (n : Nat) {denominator : Nat} (h : 0 < denominator) :
    roundQuotient (n * denominator) denominator = n := by
  simp [roundQuotient, Nat.mul_div_cancel _ h, h]

/-- A power with an exponent of either sign is a quotient of whole numbers. -/
theorem zpow_eq_div {base : Nat} (h : base ≠ 0) (exponent : Int) :
    (base : ℚ) ^ exponent = (base ^ exponent.toNat : Nat) / (base ^ (-exponent).toNat : Nat) := by
  have hbase : (base : ℚ) ≠ 0 := Nat.cast_ne_zero.mpr h
  rcases Int.le_total 0 exponent with hnonneg | hneg
  · obtain ⟨n, rfl⟩ := Int.eq_ofNat_of_zero_le hnonneg
    simp
  · obtain ⟨n, hn⟩ := Int.eq_ofNat_of_zero_le (Int.neg_nonneg.mpr hneg)
    obtain rfl : exponent = -(n : Int) := by omega
    simp

/-- When a power is at most a quotient. -/
theorem zpow_le_div_iff {base : Nat} (h : 0 < base) (exponent : Int) (numerator : Nat)
    {denominator : Nat} (hdenominator : 0 < denominator) :
    (base : ℚ) ^ exponent ≤ (numerator : ℚ) / denominator
      ↔ denominator * base ^ exponent.toNat ≤ numerator * base ^ (-exponent).toNat := by
  have hbelow : (0 : ℚ) < (base ^ (-exponent).toNat : Nat) := by exact_mod_cast Nat.pow_pos h
  rw [zpow_eq_div h.ne', div_le_div_iff₀ hbelow (by exact_mod_cast hdenominator),
    Nat.mul_comm denominator]
  exact_mod_cast Iff.rfl

/-- A quotient lies between the powers around the quotient of the leading powers. -/
theorem div_mem_zpow_log2 {numerator denominator : Nat} (hnumerator : numerator ≠ 0)
    (hdenominator : denominator ≠ 0) :
    (2 : ℚ) ^ ((numerator.log2 : Int) - denominator.log2 - 1) ≤ (numerator : ℚ) / denominator
      ∧ (numerator : ℚ) / denominator < (2 : ℚ) ^ ((numerator.log2 : Int) - denominator.log2 + 1) := by
  have hlower : (2 : ℚ) ^ numerator.log2 ≤ numerator := by exact_mod_cast Nat.log2_self_le hnumerator
  have hupper : (numerator : ℚ) < 2 ^ (numerator.log2 + 1) := by exact_mod_cast Nat.lt_log2_self
  have hlower' : (2 : ℚ) ^ denominator.log2 ≤ denominator := by
    exact_mod_cast Nat.log2_self_le hdenominator
  have hupper' : (denominator : ℚ) < 2 ^ (denominator.log2 + 1) := by exact_mod_cast Nat.lt_log2_self
  have hpositive : (0 : ℚ) < denominator := by positivity
  constructor
  · have hpower : (2 : ℚ) ^ ((numerator.log2 : Int) - denominator.log2 - 1)
        = 2 ^ numerator.log2 / 2 ^ (denominator.log2 + 1) := by
      rw [sub_sub, zpow_sub₀ two_ne_zero, zpow_natCast]
      exact_mod_cast rfl
    rw [hpower, div_le_div_iff₀ (by positivity) hpositive]
    gcongr
  · have hpower : (2 : ℚ) ^ ((numerator.log2 : Int) - denominator.log2 + 1)
        = 2 ^ (numerator.log2 + 1) / 2 ^ denominator.log2 := by
      rw [sub_add_eq_add_sub, zpow_sub₀ two_ne_zero, zpow_natCast]
      exact_mod_cast rfl
    rw [hpower, div_lt_div_iff₀ hpositive (by positivity)]
    calc (numerator : ℚ) * 2 ^ denominator.log2
        < 2 ^ (numerator.log2 + 1) * 2 ^ denominator.log2 := by gcongr
      _ ≤ 2 ^ (numerator.log2 + 1) * denominator := by gcongr

/-- **The exponent of a quotient is its logarithm.** -/
theorem floorLog2_eq_log {numerator denominator : Nat} (hnumerator : numerator ≠ 0)
    (hdenominator : denominator ≠ 0) :
    floorLog2 numerator denominator = Int.log 2 ((numerator : ℚ) / denominator) := by
  obtain ⟨hlower, hupper⟩ := div_mem_zpow_log2 hnumerator hdenominator
  have hpositive : (0 : ℚ) < (numerator : ℚ) / denominator := by positivity
  have hle := fun exponent => Int.zpow_le_iff_le_log (b := 2) (x := exponent) one_lt_two hpositive
  have hlt := fun exponent => Int.lt_zpow_iff_log_lt (b := 2) (x := exponent) one_lt_two hpositive
  have hreached := zpow_le_div_iff two_pos ((numerator.log2 : Int) - denominator.log2) numerator
    (Nat.pos_of_ne_zero hdenominator)
  rw [Nat.cast_ofNat] at hreached hle hlt
  rw [hle] at hlower hreached
  rw [hlt] at hupper
  simp only [floorLog2, Nat.shiftLeft_eq]
  split
  · next h =>
    have := hreached.mpr h
    omega
  · next h =>
    have := mt hreached.mp h
    omega

namespace BinaryFormat

variable (format : BinaryFormat)

/-! ## Codes -/

/-- The exponent with which a magnitude is rounded. -/
def roundingExponent (magnitude : ℚ) : Int :=
  max format.leastExponent (Int.log 2 magnitude - format.fractionBits)

/-- The significand is the quotient rounded at its exponent. -/
theorem nearest_of_ne_zero {numerator denominator : Nat} (hnumerator : numerator ≠ 0)
    (hdenominator : denominator ≠ 0) {exponent : Int}
    (h : format.roundingExponent ((numerator : ℚ) / denominator) = exponent) :
    format.nearest numerator denominator
      = min format.infinity ((exponent - format.leastExponent).toNat * format.span
        + roundQuotient (numerator * 2 ^ (-exponent).toNat) (denominator * 2 ^ exponent.toNat)) := by
  rw [nearest, if_neg hnumerator]
  simp only [floorLog2_eq_log hnumerator hdenominator, Nat.shiftLeft_eq]
  rw [roundingExponent] at h
  rw [h]

/-- **Equal quotients are rounded alike.** -/
theorem nearest_congr {numerator denominator other otherDenominator : Nat}
    (hdenominator : denominator ≠ 0) (hother : otherDenominator ≠ 0)
    (h : (numerator : ℚ) / denominator = (other : ℚ) / otherDenominator) :
    format.nearest numerator denominator = format.nearest other otherDenominator := by
  have hcross : numerator * otherDenominator = other * denominator := by
    rw [div_eq_div_iff (Nat.cast_ne_zero.mpr hdenominator) (Nat.cast_ne_zero.mpr hother)] at h
    exact_mod_cast h
  by_cases hzero : numerator = 0
  · have hzero' : other = 0 := by
      rw [hzero, Nat.zero_mul] at hcross
      exact (Nat.mul_eq_zero.mp hcross.symm).resolve_right hdenominator
    rw [hzero, hzero', nearest, nearest, if_pos rfl, if_pos rfl]
  · have hzero' : other ≠ 0 := by
      rintro rfl
      rw [Nat.zero_mul] at hcross
      exact (Nat.mul_eq_zero.mp hcross).elim hzero hother
    obtain ⟨exponent, hexponent⟩ :
        ∃ exponent, format.roundingExponent ((numerator : ℚ) / denominator) = exponent := ⟨_, rfl⟩
    have hexponent' := hexponent
    rw [h] at hexponent'
    rw [format.nearest_of_ne_zero hzero hdenominator hexponent,
      format.nearest_of_ne_zero hzero' hother hexponent']
    have hrounded := roundQuotient_congr
      (Nat.mul_pos (Nat.pos_of_ne_zero hdenominator) (Nat.two_pow_pos exponent.toNat))
      (Nat.mul_pos (Nat.pos_of_ne_zero hother) (Nat.two_pow_pos exponent.toNat))
      (calc numerator * 2 ^ (-exponent).toNat * (otherDenominator * 2 ^ exponent.toNat)
          = numerator * otherDenominator * 2 ^ (-exponent).toNat * 2 ^ exponent.toNat := by ring
        _ = other * 2 ^ (-exponent).toNat * (denominator * 2 ^ exponent.toNat) := by
          rw [hcross]
          ring)
    rw [hrounded]

/-- The least full significand is a power of two. -/
theorem span_eq : format.span = 2 ^ format.fractionBits := by
  rw [span, Nat.shiftLeft_eq, Nat.one_mul]

/-- A magnitude whose significand fits is rounded at its own exponent. -/
theorem roundingExponent_of_fits {significand : Nat} {exponent : Int} (hsignificand : significand ≠ 0)
    (hfits : significand < 2 * format.span) (hleast : format.leastExponent ≤ exponent)
    (hfull : exponent = format.leastExponent ∨ format.span ≤ significand) :
    format.roundingExponent (significand * 2 ^ exponent) = exponent := by
  have hpositive : (0 : ℚ) < significand * 2 ^ exponent := by positivity
  have hle := Int.zpow_le_iff_le_log (b := 2) (x := format.fractionBits + exponent) one_lt_two hpositive
  have hlt := Int.lt_zpow_iff_log_lt (b := 2) (x := format.fractionBits + 1 + exponent) one_lt_two hpositive
  rw [Nat.cast_ofNat, zpow_add₀ two_ne_zero] at hle hlt
  have hpower : (0 : ℚ) < 2 ^ exponent := by positivity
  rw [mul_le_mul_iff_left₀ hpower] at hle
  rw [mul_lt_mul_iff_left₀ hpower] at hlt
  rw [span_eq] at hfits hfull
  have hupper : Int.log 2 ((significand : ℚ) * 2 ^ exponent) < format.fractionBits + 1 + exponent := by
    refine hlt.mp ?_
    rw [← Nat.pow_succ'] at hfits
    exact_mod_cast hfits
  rw [roundingExponent]
  rcases hfull with hsame | hfull
  · omega
  · have hlower : format.fractionBits + exponent ≤ Int.log 2 ((significand : ℚ) * 2 ^ exponent) := by
      refine hle.mp ?_
      exact_mod_cast hfull
    omega

/-- **A significand that fits is kept.** -/
theorem nearest_of_eq {numerator denominator significand : Nat} {exponent : Int}
    (hdenominator : denominator ≠ 0) (hsignificand : significand ≠ 0)
    (hfits : significand < 2 * format.span) (hleast : format.leastExponent ≤ exponent)
    (hfull : exponent = format.leastExponent ∨ format.span ≤ significand)
    (h : (numerator : ℚ) / denominator = significand * 2 ^ exponent) :
    format.nearest numerator denominator
      = min format.infinity ((exponent - format.leastExponent).toNat * format.span + significand) := by
  have hnumerator : numerator ≠ 0 := by
    rintro rfl
    have hpositive : (0 : ℚ) < significand * 2 ^ exponent := by positivity
    rw [← h, Nat.cast_zero, zero_div] at hpositive
    exact lt_irrefl _ hpositive
  have hexponent : format.roundingExponent ((numerator : ℚ) / denominator) = exponent := by
    rw [h]
    exact format.roundingExponent_of_fits hsignificand hfits hleast hfull
  have hwhole : numerator * 2 ^ (-exponent).toNat = significand * (denominator * 2 ^ exponent.toNat) := by
    have hpower := zpow_eq_div two_ne_zero exponent
    rw [Nat.cast_ofNat] at hpower
    rw [hpower, ← mul_div_assoc, div_eq_div_iff (Nat.cast_ne_zero.mpr hdenominator)
      (by positivity)] at h
    rw [← Nat.mul_assoc, Nat.mul_right_comm]
    exact_mod_cast h
  rw [format.nearest_of_ne_zero hnumerator hdenominator hexponent, hwhole,
    roundQuotient_mul_self _ (by positivity)]

/-- The magnitude of a finite code. -/
theorem numerator_div_denominator (code : Nat) :
    (format.numerator code : ℚ) / format.denominator code
      = format.significand code * 2 ^ format.exponent code := by
  have hpower := zpow_eq_div two_ne_zero (format.exponent code)
  rw [Nat.cast_ofNat] at hpower
  rw [hpower, numerator, denominator, Nat.shiftLeft_eq, Nat.shiftLeft_eq, Nat.one_mul, ← mul_div_assoc]
  push_cast
  rfl

/-- The denominator of a code is positive. -/
theorem denominator_ne_zero (code : Nat) : format.denominator code ≠ 0 := by
  rw [denominator, Nat.shiftLeft_eq, Nat.one_mul]
  exact (Nat.two_pow_pos _).ne'

/-- There is a least full significand. -/
theorem span_pos : 0 < format.span := by
  rw [span_eq]
  exact Nat.two_pow_pos _

/-- A positive code is made of its exponent and its significand, which fits. -/
theorem code_eq {code : Nat} (h : code ≠ 0) :
    format.significand code ≠ 0 ∧ format.significand code < 2 * format.span
      ∧ format.leastExponent ≤ format.exponent code
      ∧ (format.exponent code = format.leastExponent ∨ format.span ≤ format.significand code)
      ∧ (format.exponent code - format.leastExponent).toNat * format.span + format.significand code
        = code := by
  have hspan := format.span_pos
  by_cases hlt : code < format.span
  · simp only [significand, exponent, if_pos hlt, Int.sub_self, Int.toNat_zero, Nat.zero_mul,
      Nat.zero_add]
    exact ⟨h, by omega, Int.le_refl _, Or.inl trivial, trivial⟩
  · simp only [significand, exponent, if_neg hlt]
    have hmod := Nat.mod_lt code hspan
    have hquotient : 1 ≤ code / format.span := (Nat.one_le_div_iff hspan).mpr (Nat.le_of_not_lt hlt)
    have hexponent : (format.leastExponent + (code / format.span : Nat) - 1 - format.leastExponent).toNat
        = code / format.span - 1 := by omega
    refine ⟨by omega, by omega, by omega, Or.inr (by omega), ?_⟩
    rw [hexponent, Nat.sub_mul, Nat.one_mul]
    have hdivision := Nat.div_add_mod' code format.span
    have hle := Nat.le_mul_of_pos_left format.span hquotient
    omega

/-- **The magnitude of a code is rounded to the code**, however it is written as a quotient. -/
theorem nearest_of_magnitude {code numerator denominator : Nat} (hdenominator : denominator ≠ 0)
    (hcode : code ≤ format.infinity)
    (h : (numerator : ℚ) / denominator = format.numerator code / format.denominator code) :
    format.nearest numerator denominator = code := by
  by_cases hzero : code = 0
  · have hnumerator : format.numerator code = 0 := by
      rw [hzero, BinaryFormat.numerator, significand, if_pos format.span_pos, Nat.zero_shiftLeft]
    rw [hnumerator, Nat.cast_zero, zero_div, div_eq_zero_iff] at h
    have hnumerator' : numerator = 0 :=
      Nat.cast_eq_zero.mp (h.resolve_right (Nat.cast_ne_zero.mpr hdenominator))
    rw [nearest, if_pos hnumerator', hzero]
  · obtain ⟨hsignificand, hfits, hleast, hfull, hsum⟩ := format.code_eq hzero
    rw [numerator_div_denominator] at h
    rw [format.nearest_of_eq hdenominator hsignificand hfits hleast hfull h, hsum,
      Nat.min_eq_right hcode]

/-- The code of a significand that fits has this significand and its exponent. -/
theorem magnitude_of_fits {significand : Nat} {exponent : Int} (hfits : significand < 2 * format.span)
    (hleast : format.leastExponent ≤ exponent)
    (hfull : exponent = format.leastExponent ∨ format.span ≤ significand) :
    format.significand ((exponent - format.leastExponent).toNat * format.span + significand)
        = significand
      ∧ format.exponent ((exponent - format.leastExponent).toNat * format.span + significand)
        = exponent := by
  have hspan := format.span_pos
  by_cases hlt : significand < format.span
  · have hsame : exponent = format.leastExponent := hfull.resolve_right (by omega)
    rw [hsame, Int.sub_self, Int.toNat_zero, Nat.zero_mul, Nat.zero_add]
    simp only [BinaryFormat.significand, BinaryFormat.exponent, if_pos hlt]
    exact ⟨trivial, trivial⟩
  · obtain ⟨rest, rfl⟩ := Nat.exists_eq_add_of_le (Nat.le_of_not_lt hlt)
    have hcode : (exponent - format.leastExponent).toNat * format.span + (format.span + rest)
        = rest + ((exponent - format.leastExponent).toNat + 1) * format.span := by ring
    have hrest : rest < format.span := by omega
    rw [hcode, BinaryFormat.significand, BinaryFormat.exponent, Nat.add_mul_mod_self_right,
      Nat.mod_eq_of_lt hrest, Nat.add_mul_div_right _ _ hspan, Nat.div_eq_of_lt hrest]
    have hge : ¬rest + ((exponent - format.leastExponent).toNat + 1) * format.span < format.span := by
      rw [Nat.add_mul, Nat.one_mul]
      omega
    rw [if_neg hge, if_neg hge]
    exact ⟨rfl, by omega⟩

/-- **A quotient that is a number of the format is not changed by rounding.** -/
theorem magnitude_nearest {numerator denominator significand : Nat} {exponent : Int}
    (hdenominator : denominator ≠ 0) (hsignificand : significand ≠ 0)
    (hfits : significand < 2 * format.span) (hleast : format.leastExponent ≤ exponent)
    (hfull : exponent = format.leastExponent ∨ format.span ≤ significand)
    (hfinite : (exponent - format.leastExponent).toNat * format.span + significand ≤ format.infinity)
    (h : (numerator : ℚ) / denominator = significand * 2 ^ exponent) :
    (format.numerator (format.nearest numerator denominator) : ℚ)
        / format.denominator (format.nearest numerator denominator)
      = (numerator : ℚ) / denominator := by
  obtain ⟨hkept, hexponent⟩ := format.magnitude_of_fits hfits hleast hfull
  rw [format.nearest_of_eq hdenominator hsignificand hfits hleast hfull h, Nat.min_eq_right hfinite,
    numerator_div_denominator, hkept, hexponent, h]

/-! ## Decimals -/

/-- No power of ten is zero. -/
theorem tenTo_ne_zero (exponent : Nat) : tenTo exponent ≠ 0 := (Nat.pow_pos (by decide)).ne'

/-- The value of a decimal as a quotient. -/
theorem decimal_eq (digits : Nat) (exponent : Int) :
    ((digits * tenTo exponent.toNat : Nat) : ℚ) / tenTo (-exponent).toNat = digits * 10 ^ exponent := by
  have hpower := zpow_eq_div (show 10 ≠ 0 by decide) exponent
  rw [Nat.cast_ofNat] at hpower
  rw [hpower, ← mul_div_assoc, Nat.cast_mul]
  rfl

/-- Zeros behind the digits of a positive number add to their count. -/
theorem digitCount_mul_pow {digits : Nat} (h : digits ≠ 0) (zeros : Nat) :
    digitCount (digits * 10 ^ zeros) = digitCount digits + zeros := by
  induction zeros with
  | zero => rw [pow_zero, Nat.mul_one, Nat.add_zero]
  | succ zeros ih =>
    have hpositive : 0 < digits * 10 ^ zeros := Nat.mul_pos (Nat.pos_of_ne_zero h) (by positivity)
    have hshift : digits * 10 ^ (zeros + 1) = 10 * (digits * 10 ^ zeros) + 0 := by ring
    have happend := Nat.toDigits_append_toDigits (b := 10) (by decide) hpositive (d := 0) (by decide)
    rw [digitCount] at ih ⊢
    rw [hshift, ← happend, List.length_append, ih, Nat.toDigits_zero]
    rfl

/-- **A decimal can be written with more digits.** -/
theorem nearestDecimal_mul_pow (digits zeros : Nat) (exponent : Int) :
    format.nearestDecimal (digits * 10 ^ zeros) (exponent - zeros)
      = format.nearestDecimal digits exponent := by
  by_cases hzero : digits = 0
  · rw [hzero, Nat.zero_mul, nearestDecimal, nearestDecimal, if_pos rfl, if_pos rfl]
  · have hpositive : digits * 10 ^ zeros ≠ 0 := Nat.mul_ne_zero hzero (by positivity)
    have hcount : ((digitCount (digits * 10 ^ zeros) : Nat) : Int) + (exponent - zeros)
        = digitCount digits + exponent := by
      rw [digitCount_mul_pow hzero]
      omega
    have hvalue : ((digits * 10 ^ zeros : Nat) : ℚ) * 10 ^ (exponent - zeros) = digits * 10 ^ exponent := by
      rw [zpow_sub₀ (by norm_num), zpow_natCast]
      push_cast
      field_simp
    have hnearest : format.nearest (digits * 10 ^ zeros * tenTo (exponent - zeros).toNat)
          (tenTo (-(exponent - zeros)).toNat)
        = format.nearest (digits * tenTo exponent.toNat) (tenTo (-exponent).toNat) := by
      refine format.nearest_congr (tenTo_ne_zero _) (tenTo_ne_zero _) ?_
      rw [decimal_eq, decimal_eq, hvalue]
    rw [nearestDecimal, nearestDecimal, if_neg hpositive, if_neg hzero, hcount, hnearest]

end BinaryFormat

end BulkDml
