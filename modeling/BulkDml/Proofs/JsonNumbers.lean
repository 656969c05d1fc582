import BulkDml.Json.Number
import BulkDml.Proofs.FloatNumeral
import BulkDml.Proofs.JsonScalars

/-! # Numbers of JSON documents

The reader takes a numeral without point and exponent for an integer, and any other one for a floating-point
number, which it computes with two roundings.  It gives back every integer of 64 bits and every byte.  Of the
floating-point numbers it gives back those with few digits around the point: their digits and the power of ten
are numbers of the format themselves, so that only the last rounding counts.

* `Numeral.toInt64?_ofInt`, `Numeral.toByte?_ofInt` — integers and bytes are read back;
* `FloatLayout.toInt64?_numeral` — no floating-point number is read as an integer;
* `Binary64.ReadsBack`, `Binary64.readsBack_of_short` — floating-point numbers that are read back.
-/

namespace BulkDml

/-! ## Integers -/

/-- The numeral of an integer of 64 bits writes this integer. -/
theorem Numeral.toInt64?_ofInt (n : Int64) : (ofInt n.toInt).toInt64? = some n := by
  have hlower := n.le_toInt
  have hupper := n.toInt_lt
  have hback := Int64.ofInt_toInt n
  cases hn : n.toInt with
  | ofNat m =>
    rw [hn, Int.ofNat_eq_natCast] at hback hupper
    have hlt : m < int64Bound := by
      unfold int64Bound
      omega
    have hwhole : (ofInt (.ofNat m)).toInt64?
        = if m < int64Bound then some (Int64.ofInt m) else none := by
      simp only [ofInt, toInt64?, isWhole, Text.toNat_ofNat]
      rfl
    rw [hwhole, if_pos hlt]
    exact congrArg some hback
  | negSucc m =>
    rw [hn] at hback hlower
    have hle : 0 < m + 1 ∧ m + 1 ≤ int64Bound := by
      unfold int64Bound
      omega
    have hwhole : (ofInt (.negSucc m)).toInt64?
        = if 0 < m + 1 ∧ m + 1 ≤ int64Bound then some (Int64.ofInt (-(m + 1 : Nat))) else none := by
      simp only [ofInt, toInt64?, isWhole, Text.toNat_ofNat]
      rfl
    rw [hwhole, if_pos hle]
    exact congrArg some hback

/-- The numeral of a byte writes this byte. -/
theorem Numeral.toByte?_ofInt (byte : UInt8) : (ofInt byte.toNat).toByte? = some byte := by
  have hlt := byte.toNat_lt
  have hofInt : ofInt byte.toNat = ⟨false, Text.ofNat byte.toNat, [], none⟩ := rfl
  rw [hofInt]
  simp only [toByte?, isWhole, Text.toNat_ofNat]
  simpa using hlt

/-- The numeral of a floating-point number writes no integer. -/
theorem FloatLayout.toInt64?_numeral (layout : FloatLayout) (x : Binary64) :
    (layout.numeral x).toInt64? = none := by
  rw [Numeral.toInt64?, isWhole_numeral, if_neg (by simp)]

/-! ## Few digits around a point -/

namespace BinaryFormat

/-- A whole number of 53 bits is a number of the format. -/
theorem magnitude_nearest_one {n : Nat} (h : n < 2 ^ 53) :
    (binary64.numerator (binary64.nearest n 1) : ℚ) / binary64.denominator (binary64.nearest n 1) = n := by
  by_cases hzero : n = 0
  · rw [hzero]
    norm_num [nearest, numerator, significand]
  · have hspan : binary64.span = 2 ^ 52 := rfl
    have hleast : binary64.leastExponent = -1074 := rfl
    have hinfinity : binary64.infinity = 2047 * 2 ^ 52 := rfl
    have hlog : n.log2 ≤ 52 := Nat.le_of_lt_succ ((Nat.log2_lt hzero).mpr h)
    obtain ⟨shift, hshift⟩ := Nat.exists_eq_add_of_le hlog
    -- shifted to the full 53 bits it is a significand
    have hlower : 2 ^ 52 ≤ n * 2 ^ shift := by
      rw [hshift, Nat.pow_add]
      exact Nat.mul_le_mul_right _ (Nat.log2_self_le hzero)
    have hupper : n * 2 ^ shift < 2 ^ 53 := by
      have hpower : 2 ^ 53 = 2 ^ (n.log2 + 1) * 2 ^ shift := by
        rw [← Nat.pow_add]
        congr 1
        omega
      rw [hpower]
      exact Nat.mul_lt_mul_of_pos_right Nat.lt_log2_self (Nat.two_pow_pos shift)
    have hvalue : (n : ℚ) / (1 : Nat) = (n * 2 ^ shift : Nat) * 2 ^ (-(shift : Int)) := by
      rw [zpow_neg, zpow_natCast]
      push_cast
      field_simp
    have hfinite : (-(shift : Int) - binary64.leastExponent).toNat * binary64.span + n * 2 ^ shift
        ≤ binary64.infinity := by
      rw [hleast, hspan, hinfinity]
      omega
    have hmagnitude := binary64.magnitude_nearest one_ne_zero (by omega) (by omega) (by omega)
      (Or.inr (by omega)) hfinite hvalue
    rw [hmagnitude, Nat.cast_one, div_one]

end BinaryFormat

namespace Numeral

/-- The powers of ten up to `10^22` are numbers of the format. -/
theorem magnitude_powerOfTen {exponent : Nat} (h : exponent ≤ 22) :
    (BinaryFormat.binary64.numerator (powerOfTen exponent) : ℚ)
        / BinaryFormat.binary64.denominator (powerOfTen exponent) = 10 ^ exponent := by
  have hexact : ∀ exponent < 23, BinaryFormat.binary64.numerator (powerOfTen exponent)
      = tenTo exponent * BinaryFormat.binary64.denominator (powerOfTen exponent) := by
    decide +kernel
  have hdenominator := Nat.cast_ne_zero (R := ℚ).mpr
    (BinaryFormat.binary64.denominator_ne_zero (powerOfTen exponent))
  rw [hexact exponent (by omega), Nat.cast_mul, mul_div_assoc, div_self hdenominator, mul_one]
  exact_mod_cast rfl

/-- Digits are all taken if the number that they write fits 64 bits. -/
theorem absorb_of_lt {value : Nat} {digits : Text}
    (h : value * 10 ^ digits.length + Text.toNat digits < 0x10000000000000000) :
    absorb value digits = (value * 10 ^ digits.length + Text.toNat digits, []) := by
  induction digits generalizing value with
  | nil => simp [absorb, Text.toNat]
  | cons d rest ih =>
    have hcons : Text.toNat (d :: rest) = (d.toNat - '0'.toNat) * 10 ^ rest.length + Text.toNat rest := by
      have happend := Text.toNat_append [d] rest
      rw [List.singleton_append] at happend
      rw [happend]
      simp [Text.toNat, Nat.ofDigitChars_cons]
    have hlonger : value * 10 ^ (d :: rest).length + Text.toNat (d :: rest)
        = (value * 10 + (d.toNat - '0'.toNat)) * 10 ^ rest.length + Text.toNat rest := by
      rw [hcons, List.length_cons]
      ring
    rw [hlonger] at h ⊢
    have hfits : value * 10 + (d.toNat - '0'.toNat) < 0x10000000000000000 := by
      have hle := Nat.le_mul_of_pos_right (value * 10 + (d.toNat - '0'.toNat))
        (Nat.pow_pos (n := rest.length) (a := 10) (by decide))
      omega
    simp only [absorb]
    rw [if_pos hfits, ih h]

/-- A numeral whose digits fit 64 bits is read by scaling these. -/
theorem toBinary64?_of_lt {numeral : Numeral} (h : numeral.digits < 0x10000000000000000) :
    numeral.toBinary64?
      = (scaled? numeral.digits numeral.scale).map (Binary64.ofCode numeral.negative) := by
  have hdigits : numeral.digits
      = Text.toNat numeral.whole * 10 ^ numeral.fraction.length + Text.toNat numeral.fraction :=
    Text.toNat_append _ _
  have hwhole : Text.toNat numeral.whole < 0x10000000000000000 := by
    have hle := Nat.le_mul_of_pos_right (Text.toNat numeral.whole)
      (Nat.pow_pos (n := numeral.fraction.length) (a := 10) (by decide))
    omega
  have hfirst : absorb 0 numeral.whole = (Text.toNat numeral.whole, []) := by
    rw [absorb_of_lt (by omega)]
    simp
  have hsecond : absorb (Text.toNat numeral.whole) numeral.fraction = (numeral.digits, []) := by
    rw [absorb_of_lt (by omega), hdigits]
  simp only [toBinary64?, hfirst, hsecond, scale, List.length_nil]
  congr 2
  omega

open BinaryFormat

/-- A decimal of few digits and a small exponent is neither taken for infinite nor for zero at once. -/
theorem nearestDecimal_of_short {significand : Nat} {exponent : Int} (hsignificand : significand < 2 ^ 53)
    (hexponent : exponent.natAbs ≤ 22) :
    binary64.nearestDecimal significand exponent
      = binary64.nearest (significand * tenTo exponent.toNat) (tenTo (-exponent).toNat) := by
  have hcount : digitCount significand ≤ 16 := (digitCount_le_iff (by decide)).mpr (by omega)
  by_cases hzero : significand = 0
  · rw [hzero, Nat.zero_mul, nearestDecimal, if_pos rfl, nearest, if_pos rfl]
  · rw [nearestDecimal, if_neg hzero, if_neg (by omega), if_neg (by omega)]

/-- **Few digits around the point are rounded once.** -/
theorem scaled?_of_short {significand : Nat} {exponent : Int} (hsignificand : significand < 2 ^ 53)
    (hexponent : exponent.natAbs ≤ 22)
    (hfinite : binary64.nearestDecimal significand exponent < binary64.infinity) :
    scaled? significand exponent = some (binary64.nearestDecimal significand exponent) := by
  have hcode := magnitude_nearest_one hsignificand
  have hdenominator := binary64.denominator_ne_zero (binary64.nearest significand 1)
  rw [nearestDecimal_of_short hsignificand hexponent] at hfinite ⊢
  rcases lt_or_ge exponent 0 with hneg | hnonneg
  · -- a quotient of two numbers of the format
    obtain ⟨k, hk⟩ := Int.eq_ofNat_of_zero_le (Int.neg_nonneg.mpr hneg.le)
    obtain rfl : exponent = -(k : Int) := by omega
    have hpower := magnitude_powerOfTen (show k ≤ 22 by omega)
    have hnumerator : binary64.numerator (powerOfTen k) ≠ 0 := by
      intro hzero
      have hpositive : (0 : ℚ) < 10 ^ k := by positivity
      rw [hzero, Nat.cast_zero, zero_div] at hpower
      exact hpositive.ne hpower
    have hquotient : binary64.divide (binary64.nearest significand 1) (powerOfTen k)
        = binary64.nearest (significand * tenTo (-(k : Int)).toNat) (tenTo (- -(k : Int)).toNat) := by
      refine binary64.nearest_congr (Nat.mul_ne_zero hdenominator hnumerator) (tenTo_ne_zero _) ?_
      rw [decimal_eq, Nat.cast_mul, Nat.cast_mul, mul_div_mul_comm, hcode, zpow_neg, zpow_natCast,
        ← hpower, inv_div]
    have hrounds : ((-(k : Int)).natAbs - 1) / 308 = 0 := by omega
    rw [scaled?, if_neg (by omega), if_neg (by omega)]
    dsimp only
    rw [hrounds, shrink, Nat.mul_zero, Nat.sub_zero, Int.natAbs_neg, Int.natAbs_natCast, hquotient]
  · -- a product of two numbers of the format
    obtain ⟨k, rfl⟩ := Int.eq_ofNat_of_zero_le hnonneg
    have hpower := magnitude_powerOfTen (show k ≤ 22 by omega)
    have hproduct : binary64.multiply (binary64.nearest significand 1) (powerOfTen k)
        = binary64.nearest (significand * tenTo (k : Int).toNat) (tenTo (-(k : Int)).toNat) := by
      refine binary64.nearest_congr (Nat.mul_ne_zero hdenominator (binary64.denominator_ne_zero _))
        (tenTo_ne_zero _) ?_
      rw [decimal_eq, Nat.cast_mul, Nat.cast_mul, mul_div_mul_comm, hcode, hpower, zpow_natCast]
    rw [scaled?, if_neg (by omega), if_pos hnonneg]
    simp only [Int.toNat_natCast] at hproduct hfinite ⊢
    rw [hproduct, if_neg hfinite.ne]

/-- **A numeral of few digits around the point is read as the number nearest to it**, if that is finite. -/
theorem toBinary64?_of_short {numeral : Numeral} (hdigits : numeral.digits < 2 ^ 53)
    (hscale : numeral.scale.natAbs ≤ 22)
    (hfinite : binary64.nearestDecimal numeral.digits numeral.scale < binary64.infinity) :
    numeral.toBinary64? = some (.ofDecimal numeral.negative numeral.digits numeral.scale) := by
  rw [toBinary64?_of_lt (by omega), scaled?_of_short hdigits hscale hfinite]
  rfl

end Numeral

/-! ## Floating-point numbers -/

/-- Whether the shortest digits of a floating-point number, as they are written, are read as this number. -/
def Binary64.ReadsBack (x : Binary64) : Prop := (FloatLayout.json.numeral x).toBinary64? = some x

instance (x : Binary64) : Decidable x.ReadsBack := inferInstanceAs (Decidable (_ = _))

/-- **A finite number with few digits around the point is read back.** -/
theorem Binary64.readsBack_of_short {x : Binary64} (h : x.isFinite = true)
    (hdigits : (FloatLayout.json.numeral x).digits < 2 ^ 53)
    (hscale : (FloatLayout.json.numeral x).scale.natAbs ≤ 22) : x.ReadsBack := by
  have hcode := (FloatLayout.json.nearestDecimal_numeral h).2
  have hfinite : x.code < BinaryFormat.binary64.infinity := by simpa [isFinite] using h
  rw [ReadsBack, Numeral.toBinary64?_of_short hdigits hscale (by rw [hcode]; exact hfinite),
    FloatLayout.json.ofDecimal_numeral h]

example : (Binary64.ofDecimal false 25 (-1)).ReadsBack := by decide +kernel

-- with the zero behind its point this one is a digit too long
example : ¬(Binary64.ofDecimal false 9007199254740991 0).ReadsBack := by decide +kernel

end BulkDml
