import BulkDml.Number.FloatText
import BulkDml.Proofs.OperandText
import BulkDml.Proofs.Rounding

/-! # The numerals of floating-point numbers

The numeral of a finite number is nearest to this number, in every layout: the digits that are looked for read
back by choice, those of the exact value because they have the value of the number, and neither the zeros
that are cut off nor the place of the point changes what is written.

* `BinaryFormat.nearestDecimal_shortest` — the shortest decimal of a magnitude is nearest to it;
* `FloatLayout.exists_digits_place` — digits keep their value around the point;
* `FloatLayout.ofDecimal_numeral` — the number nearest to a numeral that is written is the number written.
-/

namespace BulkDml

/-! ## The shortest decimal -/

namespace BinaryFormat

variable (format : BinaryFormat)

/-- A decimal of the value of a code is nearest to it, if it is not taken for infinite or zero at once. -/
theorem nearestDecimal_of_magnitude {code digits : Nat} {exponent : Int} (hcode : code ≤ format.infinity)
    (hupper : (digitCount digits : Int) + exponent ≤ 400)
    (hlower : -400 ≤ (digitCount digits : Int) + exponent)
    (h : (digits : ℚ) * 10 ^ exponent = format.numerator code / format.denominator code) :
    format.nearestDecimal digits exponent = code := by
  rw [← decimal_eq] at h
  have hnearest := format.nearest_of_magnitude (tenTo_ne_zero _) hcode h
  by_cases hzero : digits = 0
  · rw [hzero, Nat.zero_mul, nearest, if_pos rfl] at hnearest
    rw [hzero, nearestDecimal, if_pos rfl, hnearest]
  · rw [nearestDecimal, if_neg hzero, if_neg (by omega), if_neg (by omega), hnearest]

/-- The exact decimal of a code has its value. -/
theorem exact_eq (code : Nat) :
    ((format.exact code).digits : ℚ) * 10 ^ (format.exact code).exponent
      = format.numerator code / format.denominator code := by
  have hdenominator : format.denominator code = 2 ^ (-format.exponent code).toNat := by
    rw [denominator, Nat.shiftLeft_eq, Nat.one_mul]
  have hexact : format.exact code
      = ⟨format.numerator code * 5 ^ (-format.exponent code).toNat, min (format.exponent code) 0⟩ := rfl
  have hexponent : min (format.exponent code) 0 = -((-format.exponent code).toNat : Int) := by omega
  rw [hexact, hdenominator, hexponent, zpow_neg, zpow_natCast]
  have hten : (10 : ℚ) = 2 * 5 := by norm_num
  push_cast
  rw [hten, mul_pow]
  field_simp

/-- A positive number of digits is enough for the numbers below the power of ten. -/
theorem digitCount_le_iff {n count : Nat} (h : 0 < count) : digitCount n ≤ count ↔ n < 10 ^ count :=
  Nat.length_toDigits_le_iff (by decide) h

/-- The exponents of finite codes. -/
theorem exponent_binary64 {code : Nat} (h : code < binary64.infinity) :
    -1074 ≤ binary64.exponent code ∧ binary64.exponent code ≤ 971 := by
  have hspan : binary64.span = 2 ^ 52 := rfl
  have hinfinity : binary64.infinity = 2047 * 2 ^ 52 := rfl
  have hleast : binary64.leastExponent = -1074 := rfl
  rw [exponent, hspan, hleast]
  rw [hinfinity] at h
  split <;> omega

/-- The exact decimal of a finite code is neither taken for infinite nor for zero at once. -/
theorem digitCount_exact {code : Nat} (hcode : code ≠ 0) (h : code < binary64.infinity) :
    (digitCount (binary64.exact code).digits : Int) + (binary64.exact code).exponent ≤ 400
      ∧ -400 ≤ (digitCount (binary64.exact code).digits : Int) + (binary64.exact code).exponent := by
  obtain ⟨hsignificand, hfits, -, -, -⟩ := binary64.code_eq hcode
  obtain ⟨hleast, hgreatest⟩ := exponent_binary64 h
  have hspan : 2 * binary64.span ≤ 10 ^ 16 := by decide
  have hexact : binary64.exact code = ⟨binary64.significand code * 2 ^ (binary64.exponent code).toNat
      * 5 ^ (-binary64.exponent code).toNat, min (binary64.exponent code) 0⟩ := by
    rw [exact, numerator, Nat.shiftLeft_eq]
    rfl
  rw [hexact]
  generalize binary64.significand code = significand at *
  generalize binary64.exponent code = exponent at *
  dsimp only
  rcases Int.le_total 0 exponent with hnonneg | hneg
  · -- a whole number
    obtain ⟨n, rfl⟩ := Int.eq_ofNat_of_zero_le hnonneg
    have hn : (-(n : Int)).toNat = 0 := by omega
    rw [Int.toNat_natCast, hn, Nat.pow_zero, Nat.mul_one]
    have hlt : significand * 2 ^ n < 10 ^ 400 :=
      calc significand * 2 ^ n < 10 ^ 16 * 2 ^ n :=
            Nat.mul_lt_mul_of_pos_right (by omega) (Nat.two_pow_pos n)
        _ ≤ 10 ^ 16 * 2 ^ 971 := Nat.mul_le_mul_left _ (Nat.pow_le_pow_right (by decide) (by omega))
        _ ≤ 10 ^ 400 := by decide +kernel
    have hcount := (digitCount_le_iff (by decide)).mpr hlt
    omega
  · -- a multiple of a power of five, whose power of two cannot make up for its digits
    obtain ⟨k, hk⟩ := Int.eq_ofNat_of_zero_le (Int.neg_nonneg.mpr hneg)
    obtain rfl : exponent = -(k : Int) := by omega
    have hk' : (- -(k : Int)).toNat = k := by omega
    have hzero : (-(k : Int)).toNat = 0 := by omega
    rw [hk', hzero, Nat.pow_zero, Nat.mul_one]
    have hlt : significand * 5 ^ k < 10 ^ (16 + k) :=
      calc significand * 5 ^ k < 10 ^ 16 * 5 ^ k :=
            Nat.mul_lt_mul_of_pos_right (by omega) (Nat.pow_pos (by decide))
        _ ≤ 10 ^ 16 * 10 ^ k := Nat.mul_le_mul_left _ (Nat.pow_le_pow_left (by decide) k)
        _ = 10 ^ (16 + k) := (Nat.pow_add 10 16 k).symm
    have hcount := (digitCount_le_iff (by omega)).mpr hlt
    refine ⟨by omega, ?_⟩
    by_contra hfew
    have hpositive : 0 < digitCount (significand * 5 ^ k) := Nat.length_toDigits_pos
    obtain ⟨more, rfl⟩ : ∃ more, k = 401 + more := ⟨k - 401, by omega⟩
    have hsmall : significand * 5 ^ (401 + more) < 10 ^ more :=
      (digitCount_le_iff (by omega)).mp (by omega)
    have htwo : 2 ^ (401 + more) ≤ 10 ^ 401 :=
      calc 2 ^ (401 + more) ≤ 2 ^ 1074 := Nat.pow_le_pow_right (by decide) (by omega)
        _ ≤ 10 ^ 401 := by decide +kernel
    have hlarge : 10 ^ more * 10 ^ 401 ≤ 5 ^ (401 + more) * 10 ^ 401 :=
      calc 10 ^ more * 10 ^ 401 = 5 ^ (401 + more) * 2 ^ (401 + more) := by
            rw [← Nat.pow_add, ← Nat.mul_pow, Nat.add_comm]
        _ ≤ 5 ^ (401 + more) * 10 ^ 401 := Nat.mul_le_mul_left _ htwo
    have hle := Nat.le_of_mul_le_mul_right hlarge (by decide +kernel)
    have hfactor := Nat.le_mul_of_pos_left (5 ^ (401 + more)) (Nat.pos_of_ne_zero hsignificand)
    omega

/-- **The shortest decimal of a finite magnitude is nearest to it.** -/
theorem nearestDecimal_shortest (tie : Tie) {code : Nat} (hcode : code ≠ 0) (h : code < binary64.infinity) :
    binary64.nearestDecimal (binary64.shortest tie code).digits (binary64.shortest tie code).exponent
      = code := by
  rw [shortest]
  cases hfound : (List.range 17).findSome? fun (finer : Nat) =>
      binary64.shortestOn tie code
        (floorLog10 (binary64.numerator code) (binary64.denominator code) - finer) with
  | none =>
    obtain ⟨hupper, hlower⟩ := digitCount_exact hcode h
    exact binary64.nearestDecimal_of_magnitude (Nat.le_of_lt h) hupper hlower (binary64.exact_eq code)
  | some decimal =>
    obtain ⟨finer, -, hon⟩ := List.exists_of_findSome?_eq_some hfound
    exact beq_iff_eq.mp (binary64.readsBack_of_shortestOn hon)

end BinaryFormat

/-! ## Digits around a point -/

/-- The digits of two runs, one after the other. -/
theorem Text.toNat_append (left right : Text) :
    toNat (left ++ right) = toNat left * 10 ^ right.length + toNat right := by
  rw [toNat, Nat.ofDigitChars_append, Nat.ofDigitChars_eq_ofDigitChars_zero, Nat.mul_comm]
  rfl

/-- Zeros behind digits multiply what they write. -/
theorem Text.toNat_append_replicate_zero (digits : Text) (zeros : Nat) :
    toNat (digits ++ List.replicate zeros '0') = toNat digits * 10 ^ zeros := by
  rw [toNat_append, toNat_replicate_zero, List.length_replicate, Nat.add_zero]

/-- The sign and the code make up the number. -/
theorem Binary64.ofCode_code (x : Binary64) : ofCode x.isNegative x.code = x := by
  have hlt := x.bits.toNat_lt
  have hsum : (if x.isNegative then signBit else 0) + x.code = x.bits.toNat := by
    unfold isNegative code signBit
    by_cases hsign : 9223372036854775808 ≤ x.bits.toNat
    · rw [decide_eq_true hsign, if_pos rfl]
      omega
    · rw [decide_eq_false hsign, if_neg (by simp)]
      omega
  rw [ofCode, hsum, UInt64.ofNat_toNat]

namespace FloatLayout

/-- The zeros that are cut off. -/
theorem exists_dropTrailingZeros_append (digits : Text) :
    ∃ zeros, digits = dropTrailingZeros digits ++ List.replicate zeros '0' := by
  refine ⟨(digits.reverse.takeWhile (· == '0')).length, ?_⟩
  have hzeros : digits.reverse.takeWhile (· == '0')
      = List.replicate (digits.reverse.takeWhile (· == '0')).length '0' := by
    refine List.eq_replicate_iff.mpr ⟨rfl, ?_⟩
    intro c hc
    have hzero : (c == '0') = true := List.mem_takeWhile_imp (p := (· == '0')) hc
    exact beq_iff_eq.mp hzero
  have hreverse := congrArg List.reverse
    (List.takeWhile_append_dropWhile (p := (· == '0')) (l := digits.reverse))
  rw [List.reverse_append, List.reverse_reverse, hzeros, List.reverse_replicate] at hreverse
  exact hreverse.symm

/-- **Digits keep their value around the point**, whatever zeros are put around them. -/
theorem exists_digits_place (layout : FloatLayout) (negative : Bool) {digits : Text} (leading : Int)
    (hne : digits ≠ []) :
    ∃ zeros : Nat, (layout.place negative digits leading).digits = Text.toNat digits * 10 ^ zeros
      ∧ (layout.place negative digits leading).scale = leading + 1 - digits.length - zeros
      ∧ (layout.place negative digits leading).negative = negative := by
  have hpositive := List.length_pos_iff.mpr hne
  unfold place
  split
  · split
    · refine ⟨0, ?_, ?_, rfl⟩
      · have hzeros : '0' :: List.replicate (-leading - 1).toNat '0'
            = List.replicate ((-leading - 1).toNat + 1) '0' := List.replicate_succ.symm
        rw [Numeral.digits, List.singleton_append, ← List.cons_append, hzeros, Text.toNat_append,
          Text.toNat_replicate_zero]
        simp
      · simp only [Numeral.scale, List.length_append, List.length_replicate, Option.getD_none]
        omega
    · dsimp only
      split
      · next hshort =>
        refine ⟨leading.toNat + 1 - digits.length + 1, ?_, ?_, rfl⟩
        · rw [Numeral.digits, List.append_assoc, ← List.replicate_succ', Text.toNat_append_replicate_zero]
        · simp only [Numeral.scale, List.length_singleton, Option.getD_none]
          omega
      · next hlong =>
        refine ⟨0, ?_, ?_, rfl⟩
        · rw [Numeral.digits, List.take_append_drop, pow_zero, Nat.mul_one]
        · simp only [Numeral.scale, List.length_drop, Option.getD_none]
          omega
  · refine ⟨0, ?_, ?_, rfl⟩
    · rw [Numeral.digits, List.take_append_drop, pow_zero, Nat.mul_one]
    · simp only [Numeral.scale, List.length_drop, Option.getD_some]
      omega

/-- The numeral of a finite number has its sign and is nearest to its magnitude. -/
theorem nearestDecimal_numeral (layout : FloatLayout) {x : Binary64} (h : x.isFinite = true) :
    (layout.numeral x).negative = x.isNegative
      ∧ BinaryFormat.binary64.nearestDecimal (layout.numeral x).digits (layout.numeral x).scale
        = x.code := by
  have hfinite : x.code < BinaryFormat.binary64.infinity := by simpa [Binary64.isFinite] using h
  unfold numeral
  split
  · next hzero => exact ⟨rfl, hzero.symm⟩
  · next hcode =>
    have hshortest := BinaryFormat.nearestDecimal_shortest layout.tie hcode hfinite
    have hpositive := BinaryFormat.binary64.digits_shortest_ne_zero layout.tie hcode
    generalize BinaryFormat.binary64.shortest layout.tie x.code = decimal at *
    obtain ⟨cut, hcut⟩ := exists_dropTrailingZeros_append (Text.ofNat decimal.digits)
    obtain ⟨zeros, hdigits, hscale, hnegative⟩ := layout.exists_digits_place x.isNegative
      (decimal.exponent + (Text.ofNat decimal.digits).length - 1) (dropTrailingZeros_ofNat_ne_nil hpositive)
    have hlength := congrArg List.length hcut
    rw [List.length_append, List.length_replicate] at hlength
    have hvalue := congrArg Text.toNat hcut
    rw [Text.toNat_ofNat, Text.toNat_append_replicate_zero] at hvalue
    dsimp only
    rw [hdigits, hscale, hnegative, BinaryFormat.nearestDecimal_mul_pow]
    refine ⟨rfl, ?_⟩
    -- the digits with the zeros that were cut off are those that were looked for
    rw [← BinaryFormat.nearestDecimal_mul_pow _ _ cut, ← hvalue, ← hshortest]
    congr 1
    omega

/-- **The number nearest to the numeral of a finite number is this number.** -/
theorem ofDecimal_numeral (layout : FloatLayout) {x : Binary64} (h : x.isFinite = true) :
    Binary64.ofDecimal (layout.numeral x).negative (layout.numeral x).digits (layout.numeral x).scale
      = x := by
  obtain ⟨hnegative, hcode⟩ := layout.nearestDecimal_numeral h
  rw [Binary64.ofDecimal, hnegative, hcode, Binary64.ofCode_code]

end FloatLayout

end BulkDml
