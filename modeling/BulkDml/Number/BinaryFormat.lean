/-! # Binary floating-point formats

A format stores a magnitude `m · 2^q`, with a bounded significand `m` and a least exponent `q`, under a
natural-number *code*.  Codes ascend with the magnitudes they stand for, so that adding one to a code
steps to the next magnitude and the code after the greatest finite one stands for infinity.

* `BinaryFormat.nearest` — the code nearest to a quotient of natural numbers, halves to the even code;
* `BinaryFormat.nearestDecimal` — the code nearest to `digits · 10^exponent`;
* `BinaryFormat.multiply`, `BinaryFormat.divide` — product and quotient of finite magnitudes, rounded once.
-/

namespace BulkDml

/-- The natural number nearest to `numerator / denominator`, halves to the even neighbour. -/
def roundQuotient (numerator denominator : Nat) : Nat :=
  let quotient := numerator / denominator
  let twice := 2 * (numerator % denominator)
  if twice < denominator then quotient
  else if denominator < twice then quotient + 1
  else quotient + quotient % 2

/-- The greatest `e` with `2^e ≤ numerator / denominator`, for a positive quotient. -/
def floorLog2 (numerator denominator : Nat) : Int :=
  let estimate : Int := (numerator.log2 : Int) - denominator.log2
  if denominator <<< estimate.toNat ≤ numerator <<< (-estimate).toNat then estimate
  else estimate - 1

/-- The powers of ten. -/
def tenTo (exponent : Nat) : Nat := Nat.pow 10 exponent

/-- A binary floating-point format, signs aside. -/
structure BinaryFormat where
  /-- The number of bits of a full significand, less one. -/
  fractionBits : Nat
  /-- The exponent of the least positive magnitude. -/
  leastExponent : Int
  /-- The code of infinity. -/
  infinity : Nat

namespace BinaryFormat

/-- The 64-bit format: 53 significant bits. -/
def binary64 : BinaryFormat := ⟨52, -1074, 2047 <<< 52⟩

/-- The 32-bit format: 24 significant bits. -/
def binary32 : BinaryFormat := ⟨23, -149, 255 <<< 23⟩

variable (format : BinaryFormat)

/-- The number of codes with one exponent, which is also the least full significand. -/
def span : Nat := 1 <<< format.fractionBits

/-- The significand of the magnitude with the given finite code. -/
def significand (code : Nat) : Nat :=
  if code < format.span then code else format.span + code % format.span

/-- The exponent of the magnitude with the given finite code. -/
def exponent (code : Nat) : Int :=
  if code < format.span then format.leastExponent
  else format.leastExponent + (code / format.span : Nat) - 1

/-- The numerator of the magnitude with the given finite code, over `denominator`. -/
def numerator (code : Nat) : Nat := format.significand code <<< (format.exponent code).toNat

/-- The denominator of the magnitude with the given finite code: a power of two. -/
def denominator (code : Nat) : Nat := 1 <<< (-format.exponent code).toNat

/-- The code nearest to `numerator / denominator`, halves to the even code.  A magnitude at or beyond
half a step above the greatest finite one is infinite. -/
def nearest (numerator denominator : Nat) : Nat :=
  if numerator = 0 then 0
  else
    let exponent := max format.leastExponent (floorLog2 numerator denominator - format.fractionBits)
    let significand :=
      roundQuotient (numerator <<< (-exponent).toNat) (denominator <<< exponent.toNat)
    min format.infinity
      ((exponent - format.leastExponent).toNat * format.span + significand)

/-- The number of decimal digits of a natural number. -/
def digitCount (n : Nat) : Nat := (Nat.toDigits 10 n).length

/-- The code nearest to `digits · 10^exponent`.  A number of at least `10^400` is beyond either format
and one below `10^(-400)` is nearest to zero in both, so no greater power of ten is ever computed. -/
def nearestDecimal (digits : Nat) (exponent : Int) : Nat :=
  if digits = 0 then 0
  else if 400 < (digitCount digits : Int) + exponent then format.infinity
  else if (digitCount digits : Int) + exponent < -400 then 0
  else format.nearest (digits * tenTo exponent.toNat) (tenTo (-exponent).toNat)

/-- The product of two finite magnitudes, rounded once. -/
def multiply (left right : Nat) : Nat :=
  format.nearest (format.numerator left * format.numerator right)
    (format.denominator left * format.denominator right)

/-- The quotient of two finite magnitudes, the second positive, rounded once. -/
def divide (left right : Nat) : Nat :=
  format.nearest (format.numerator left * format.denominator right)
    (format.denominator left * format.numerator right)

end BinaryFormat

example : BinaryFormat.binary64.nearestDecimal 1 0 = 0x3FF0000000000000 := by decide +kernel
example : BinaryFormat.binary64.nearestDecimal 1 (-1) = 0x3FB999999999999A := by decide +kernel
example : BinaryFormat.binary64.nearestDecimal 5 (-324) = 1 := by decide +kernel
example : BinaryFormat.binary64.nearestDecimal 1 400 = BinaryFormat.binary64.infinity := by
  decide +kernel

end BulkDml
