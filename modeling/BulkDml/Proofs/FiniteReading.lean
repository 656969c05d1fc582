import BulkDml.Proofs.JsonNumbers

/-! # Numbers that are read are finite

Rounding keeps the order of quotients.  The reader of numbers refuses a product that is infinite, and it
divides only by magnitudes of at least one, which leaves no more than there was: whatever number it reads is
finite, and can be written again.

* `roundQuotient_mono`, `BinaryFormat.nearest_mono` — a greater quotient is not rounded to less;
* `BinaryFormat.divide_le` — a quotient by a magnitude of at least one is no greater than the dividend;
* `Numeral.isFinite_of_toBinary64?` — a number that is read is finite.
-/

namespace BulkDml

/-! ## Rounding keeps the order -/

/-- A quotient is rounded to its whole part or the number behind it. -/
theorem roundQuotient_mem (numerator denominator : Nat) :
    numerator / denominator ≤ roundQuotient numerator denominator
      ∧ roundQuotient numerator denominator ≤ numerator / denominator + 1 := by
  simp only [roundQuotient]
  split
  · omega
  · split <;> omega

/-- With one denominator a greater numerator is not rounded to less. -/
theorem roundQuotient_le_of_le {numerator other : Nat} (h : numerator ≤ other) (denominator : Nat) :
    roundQuotient numerator denominator ≤ roundQuotient other denominator := by
  have hupper := (roundQuotient_mem numerator denominator).2
  have hlower := (roundQuotient_mem other denominator).1
  rcases Nat.lt_or_eq_of_le (Nat.div_le_div_right (c := denominator) h) with hlt | heq
  · omega
  · -- of one whole part, the remainders are in order
    have hdivision := Nat.div_add_mod numerator denominator
    have hdivision' := Nat.div_add_mod other denominator
    rw [heq] at hdivision
    have hremainder : numerator % denominator ≤ other % denominator := by omega
    simp only [roundQuotient, heq]
    split_ifs <;> omega

/-- **A greater quotient is not rounded to less.** -/
theorem roundQuotient_mono {numerator denominator other otherDenominator : Nat}
    (hdenominator : 0 < denominator) (hother : 0 < otherDenominator)
    (h : numerator * otherDenominator ≤ other * denominator) :
    roundQuotient numerator denominator ≤ roundQuotient other otherDenominator := by
  rw [← roundQuotient_mul_right numerator denominator hother,
    ← roundQuotient_mul_right other otherDenominator hdenominator, Nat.mul_comm otherDenominator]
  exact roundQuotient_le_of_le h _

/-- A quotient of at most a whole number is not rounded to more. -/
theorem roundQuotient_le {numerator denominator n : Nat} (hdenominator : 0 < denominator)
    (h : numerator ≤ n * denominator) : roundQuotient numerator denominator ≤ n := by
  have hle := roundQuotient_le_of_le h denominator
  rwa [roundQuotient_mul_self n hdenominator] at hle

/-- A quotient of at least a whole number is not rounded to less. -/
theorem le_roundQuotient {numerator denominator n : Nat} (hdenominator : 0 < denominator)
    (h : n * denominator ≤ numerator) : n ≤ roundQuotient numerator denominator := by
  have hle := roundQuotient_le_of_le h denominator
  rwa [roundQuotient_mul_self n hdenominator] at hle

namespace BinaryFormat

variable (format : BinaryFormat)

/-- When a quotient is at most a multiple of a power of two. -/
theorem div_le_mul_zpow_iff (numerator n : Nat) {denominator : Nat} (hdenominator : denominator ≠ 0)
    (exponent : Int) :
    (numerator : ℚ) / denominator ≤ n * 2 ^ exponent
      ↔ numerator * 2 ^ (-exponent).toNat ≤ n * (denominator * 2 ^ exponent.toNat) := by
  have hpower := zpow_eq_div two_ne_zero exponent
  rw [Nat.cast_ofNat] at hpower
  rw [hpower, ← mul_div_assoc, div_le_div_iff₀ (by positivity) (by positivity), Nat.mul_comm denominator,
    ← Nat.mul_assoc]
  exact_mod_cast Iff.rfl

/-- When a multiple of a power of two is at most a quotient. -/
theorem mul_zpow_le_div_iff (numerator n : Nat) {denominator : Nat} (hdenominator : denominator ≠ 0)
    (exponent : Int) :
    n * 2 ^ exponent ≤ (numerator : ℚ) / denominator
      ↔ n * (denominator * 2 ^ exponent.toNat) ≤ numerator * 2 ^ (-exponent).toNat := by
  have hpower := zpow_eq_div two_ne_zero exponent
  rw [Nat.cast_ofNat] at hpower
  rw [hpower, ← mul_div_assoc, div_le_div_iff₀ (by positivity) (by positivity), Nat.mul_comm denominator,
    ← Nat.mul_assoc]
  exact_mod_cast Iff.rfl

/-- A magnitude is below twice the full significand at the exponent with which it is rounded. -/
theorem le_mul_roundingExponent {magnitude : ℚ} (h : 0 < magnitude) :
    magnitude ≤ (2 * format.span : Nat) * 2 ^ format.roundingExponent magnitude := by
  have hlog : Int.log 2 magnitude < format.fractionBits + 1 + format.roundingExponent magnitude := by
    rw [roundingExponent]
    omega
  have hlt := (Int.lt_zpow_iff_log_lt one_lt_two h).mpr hlog
  rw [Nat.cast_ofNat, zpow_add₀ two_ne_zero] at hlt
  rw [span_eq, ← Nat.pow_succ']
  exact_mod_cast hlt.le

/-- A magnitude that is not rounded at the least exponent has a full significand at its own. -/
theorem mul_roundingExponent_le {magnitude : ℚ} (h : 0 < magnitude)
    (hleast : format.leastExponent < format.roundingExponent magnitude) :
    format.span * 2 ^ format.roundingExponent magnitude ≤ magnitude := by
  have hlog : format.fractionBits + format.roundingExponent magnitude ≤ Int.log 2 magnitude := by
    rw [roundingExponent] at hleast ⊢
    omega
  have hle := (Int.zpow_le_iff_le_log one_lt_two h).mpr hlog
  rw [Nat.cast_ofNat, zpow_add₀ two_ne_zero] at hle
  rw [span_eq]
  exact_mod_cast hle

/-- A greater magnitude is not rounded at a smaller exponent. -/
theorem roundingExponent_mono {magnitude other : ℚ} (hpositive : 0 < magnitude) (h : magnitude ≤ other) :
    format.roundingExponent magnitude ≤ format.roundingExponent other := by
  have hlog := Int.log_mono_right (b := 2) hpositive h
  rw [roundingExponent, roundingExponent]
  omega

/-- **A greater quotient is not rounded to a smaller code.** -/
theorem nearest_mono {numerator denominator other otherDenominator : Nat} (hdenominator : denominator ≠ 0)
    (hother : otherDenominator ≠ 0) (h : (numerator : ℚ) / denominator ≤ other / otherDenominator) :
    format.nearest numerator denominator ≤ format.nearest other otherDenominator := by
  by_cases hzero : numerator = 0
  · rw [hzero, nearest, if_pos rfl]
    exact Nat.zero_le _
  have hpositive : (0 : ℚ) < (numerator : ℚ) / denominator := by positivity
  have hzero' : other ≠ 0 := by
    rintro rfl
    rw [Nat.cast_zero, zero_div] at h
    exact absurd h hpositive.not_ge
  obtain ⟨lower, hlower⟩ :
      ∃ exponent, format.roundingExponent ((numerator : ℚ) / denominator) = exponent := ⟨_, rfl⟩
  obtain ⟨upper, hupper⟩ :
      ∃ exponent, format.roundingExponent ((other : ℚ) / otherDenominator) = exponent := ⟨_, rfl⟩
  have hexponents := format.roundingExponent_mono hpositive h
  rw [format.nearest_of_ne_zero hzero hdenominator hlower,
    format.nearest_of_ne_zero hzero' hother hupper]
  rw [hlower, hupper] at hexponents
  refine min_le_min_left _ ?_
  rcases hexponents.lt_or_eq with hlt | rfl
  · -- the greater exponent has a full significand, and the smaller one at most the next power of two
    have hleast : format.leastExponent ≤ lower := by
      rw [← hlower]
      exact le_max_left _ _
    have hsmall := format.le_mul_roundingExponent hpositive
    have hgreat := format.mul_roundingExponent_le (hpositive.trans_le h) (by omega)
    rw [hlower, div_le_mul_zpow_iff _ _ hdenominator] at hsmall
    rw [hupper, mul_zpow_le_div_iff _ _ hother] at hgreat
    have hsmall' := roundQuotient_le (by positivity) hsmall
    have hgreat' := le_roundQuotient (by positivity) hgreat
    have hsteps : (lower - format.leastExponent).toNat + 1 ≤ (upper - format.leastExponent).toNat := by
      omega
    have hcodes := Nat.mul_le_mul_right format.span hsteps
    rw [Nat.add_mul, Nat.one_mul] at hcodes
    omega
  · -- at one exponent the significands are in order
    refine Nat.add_le_add_left (roundQuotient_mono (by positivity) (by positivity) ?_) _
    rw [div_le_div_iff₀ (by positivity) (by positivity)] at h
    have hcross : numerator * otherDenominator ≤ other * denominator := by exact_mod_cast h
    calc numerator * 2 ^ (-lower).toNat * (otherDenominator * 2 ^ lower.toNat)
        = numerator * otherDenominator * (2 ^ (-lower).toNat * 2 ^ lower.toNat) := by ring
      _ ≤ other * denominator * (2 ^ (-lower).toNat * 2 ^ lower.toNat) := Nat.mul_le_mul_right _ hcross
      _ = other * 2 ^ (-lower).toNat * (denominator * 2 ^ lower.toNat) := by ring

/-- No quotient is rounded beyond infinity. -/
theorem nearest_le_infinity (numerator denominator : Nat) :
    format.nearest numerator denominator ≤ format.infinity := by
  rw [nearest]
  split
  · exact Nat.zero_le _
  · exact min_le_left _ _

/-- **A quotient by a magnitude of at least one is no greater than the dividend.** -/
theorem divide_le {code divisor : Nat} (hcode : code ≤ format.infinity)
    (hdivisor : format.denominator divisor ≤ format.numerator divisor) :
    format.divide code divisor ≤ code := by
  have hone := Nat.pos_of_ne_zero (format.denominator_ne_zero divisor)
  have hpositive := hone.trans_le hdivisor
  have hdenominator := format.denominator_ne_zero code
  calc format.divide code divisor
      ≤ format.nearest (format.numerator code) (format.denominator code) := by
        refine format.nearest_mono (Nat.mul_ne_zero hdenominator hpositive.ne') hdenominator ?_
        rw [div_le_div_iff₀ (by positivity) (by positivity)]
        have hcross : format.numerator code * format.denominator divisor * format.denominator code
            ≤ format.numerator code * (format.denominator code * format.numerator divisor) := by
          rw [Nat.mul_assoc, Nat.mul_comm (format.denominator divisor)]
          exact Nat.mul_le_mul_left _ (Nat.mul_le_mul_left _ hdivisor)
        exact_mod_cast hcross
    _ = code := format.nearest_of_magnitude hdenominator hcode rfl

end BinaryFormat

/-! ## Reading numbers -/

namespace Numeral

open BinaryFormat

/-- Digits are taken only as long as their number fits 64 bits. -/
theorem absorb_lt {value : Nat} (h : value < 0x10000000000000000) (digits : Text) :
    (absorb value digits).1 < 0x10000000000000000 := by
  induction digits generalizing value with
  | nil => exact h
  | cons d rest ih =>
    simp only [absorb]
    split
    · next hlonger => exact ih hlonger
    · exact h

/-- No rounded power of ten is below one. -/
theorem denominator_powerOfTen_le {exponent : Nat} (h : exponent ≤ 308) :
    binary64.denominator (powerOfTen exponent) ≤ binary64.numerator (powerOfTen exponent) := by
  have hall : ∀ exponent < 309,
      binary64.denominator (powerOfTen exponent) ≤ binary64.numerator (powerOfTen exponent) := by
    decide +kernel
  exact hall exponent (by omega)

/-- Dividing by powers of ten makes nothing greater. -/
theorem shrink_le (times : Nat) {code : Nat} (h : code ≤ binary64.infinity) : shrink times code ≤ code := by
  induction times generalizing code with
  | zero => exact Nat.le_refl _
  | succ times ih =>
    rw [shrink]
    split
    · exact Nat.zero_le _
    · have hle := binary64.divide_le h (denominator_powerOfTen_le (Nat.le_refl 308))
      exact (ih (hle.trans h)).trans hle

/-- What is scaled is finite. -/
theorem scaled?_lt {significand : Nat} (h : significand < 0x10000000000000000) {exponent : Int} {code : Nat}
    (hscaled : scaled? significand exponent = some code) : code < binary64.infinity := by
  -- the digits alone are far below infinity
  have hdigits : binary64.nearest significand 1 < binary64.infinity := by
    have hbound : binary64.nearest 0x10000000000000000 1 < binary64.infinity := by decide +kernel
    refine (binary64.nearest_mono one_ne_zero one_ne_zero ?_).trans_lt hbound
    gcongr
  simp only [scaled?] at hscaled
  split at hscaled
  · split at hscaled
    · cases hscaled
      decide +kernel
    · cases hscaled
  · split at hscaled
    · split at hscaled
      · cases hscaled
      · next hfinite =>
        cases hscaled
        exact Nat.lt_of_le_of_ne (binary64.nearest_le_infinity _ _) hfinite
    · cases hscaled
      have hshrunk := shrink_le ((exponent.natAbs - 1) / 308) hdigits.le
      have hdivided := binary64.divide_le (hshrunk.trans hdigits.le)
        (denominator_powerOfTen_le
          (show exponent.natAbs - 308 * ((exponent.natAbs - 1) / 308) ≤ 308 by omega))
      omega

/-- **A floating-point number that is read is finite.** -/
theorem isFinite_of_toBinary64? {numeral : Numeral} {x : Binary64} (h : numeral.toBinary64? = some x) :
    x.isFinite = true := by
  simp only [toBinary64?] at h
  obtain ⟨code, hscaled, rfl⟩ := Option.map_eq_some_iff.mp h
  have hcode := scaled?_lt (absorb_lt (absorb_lt (by decide) _) _) hscaled
  have hsign : binary64.infinity < Binary64.signBit := by decide +kernel
  rw [Binary64.isFinite, Binary64.code_ofCode _ (hcode.trans hsign)]
  exact decide_eq_true hcode

end Numeral

end BulkDml
