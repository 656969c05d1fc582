import BulkDml.Number.BinaryFormat

/-! # The shortest decimal that reads back

Among the decimals that are nearest to a given magnitude and to no other, `shortest` picks one with the
fewest digits, and of those the one closest to the magnitude.  It looks at ever finer grids of powers of
ten; on each only the two neighbours of the magnitude can be the closest decimal that reads back.
-/

namespace BulkDml

/-- The number `digits · 10^exponent`. -/
structure Decimal where
  /-- The significant digits. -/
  digits : Nat
  /-- The power of ten that they are multiplied by. -/
  exponent : Int
deriving DecidableEq

/-- Which of two decimals is taken if both are equally close. -/
inductive Tie where
  /-- The greater one. -/
  | upper
  /-- The one whose last digit is even. -/
  | even

/-- The greatest `e` with `10^e ≤ numerator / denominator`, for a positive quotient. -/
def floorLog10 (numerator denominator : Nat) : Int :=
  if denominator ≤ numerator then (BinaryFormat.digitCount (numerator / denominator) : Int) - 1
  else -(BinaryFormat.digitCount ((denominator - 1) / numerator) : Int)

/-- Whether the lower neighbour is taken of a quotient that lies between two whole numbers. -/
def Tie.takesLower (tie : Tie) (numerator denominator : Nat) : Bool :=
  let twice := 2 * (numerator % denominator)
  if twice < denominator then true
  else if denominator < twice then false
  else match tie with
    | .upper => false
    | .even => numerator / denominator % 2 == 0

namespace BinaryFormat

variable (format : BinaryFormat)

/-- Whether a decimal is nearest to the magnitude with the given code. -/
def readsBack (code : Nat) (decimal : Decimal) : Bool :=
  format.nearestDecimal decimal.digits decimal.exponent == code

/-- The multiple of `10^exponent` that is closest to a magnitude among those that read back to it. -/
def shortestOn (tie : Tie) (code : Nat) (exponent : Int) : Option Decimal :=
  let numerator := format.numerator code * tenTo (-exponent).toNat
  let denominator := format.denominator code * tenTo exponent.toNat
  let lower : Decimal := ⟨numerator / denominator, exponent⟩
  let upper : Decimal := ⟨numerator / denominator + 1, exponent⟩
  match format.readsBack code lower, format.readsBack code upper with
  | true, true => some (if tie.takesLower numerator denominator then lower else upper)
  | true, false => some lower
  | false, true => some upper
  | false, false => none

/-- A decimal of exactly the magnitude's value. -/
def exact (code : Nat) : Decimal :=
  let exponent := format.exponent code
  ⟨format.numerator code * Nat.pow 5 (-exponent).toNat, min exponent 0⟩

/-- The shortest decimal that reads back to a positive finite magnitude.  Seventeen digits tell all
magnitudes of 64 bits apart, so the exact value is the answer of no search. -/
def shortest (tie : Tie) (code : Nat) : Decimal :=
  let leading := floorLog10 (format.numerator code) (format.denominator code)
  let found := (List.range 17).findSome? fun (finer : Nat) => format.shortestOn tie code (leading - finer)
  found.getD (format.exact code)

/-- What a grid offers reads back. -/
theorem readsBack_of_shortestOn {tie : Tie} {code : Nat} {exponent : Int} {decimal : Decimal}
    (h : format.shortestOn tie code exponent = some decimal) :
    format.readsBack code decimal = true := by
  simp only [shortestOn] at h
  split at h
  · next hl hu =>
    split at h <;> (cases h; assumption)
  · next hl hu => cases h; assumption
  · next hl hu => cases h; assumption
  · cases h

end BinaryFormat

example : BinaryFormat.binary64.shortest .upper 0x3FB999999999999A = ⟨1, -1⟩ := by decide +kernel
example : BinaryFormat.binary64.shortest .upper 1 = ⟨5, -324⟩ := by decide +kernel
example : BinaryFormat.binary64.shortest .upper 0x3E60000000000000 = ⟨29802322387695313, -24⟩ := by
  decide +kernel
example : BinaryFormat.binary64.shortest .even 0x3E60000000000000 = ⟨29802322387695312, -24⟩ := by
  decide +kernel

end BulkDml
