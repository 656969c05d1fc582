import BulkDml.Number.BinaryFormat

/-! # Floating-point numbers

A `Binary64` is the 64-bit word of a floating-point number: a sign and the code of a magnitude.  Codes
above that of infinity stand for no number.  Nothing here computes with machine floats, so that every
rounding is exact arithmetic on natural numbers.
-/

namespace BulkDml

/-- A 64-bit floating-point number, given by its bits. -/
structure Binary64 where
  /-- The sign in the highest bit and the code of the magnitude below it. -/
  bits : UInt64
deriving DecidableEq

namespace Binary64

/-- The value of the highest bit. -/
def signBit : Nat := 0x8000000000000000

/-- The number with a sign and the code of a magnitude. -/
def ofCode (negative : Bool) (code : Nat) : Binary64 :=
  ⟨UInt64.ofNat ((if negative then signBit else 0) + code)⟩

/-- Whether the sign is negative, also of a zero. -/
def isNegative (x : Binary64) : Bool := signBit ≤ x.bits.toNat

/-- The code of the magnitude. -/
def code (x : Binary64) : Nat := x.bits.toNat % signBit

/-- Whether this is a finite number. -/
def isFinite (x : Binary64) : Bool := x.code < BinaryFormat.binary64.infinity

/-- Whether this is one of the two infinities. -/
def isInfinite (x : Binary64) : Bool := x.code == BinaryFormat.binary64.infinity

/-- Whether this is no number. -/
def isNaN (x : Binary64) : Bool := BinaryFormat.binary64.infinity < x.code

/-- The word that stands for no number. -/
def nan : Binary64 := ⟨0x7FF8000000000000⟩

/-- The infinity of the given sign. -/
def infinite (negative : Bool) : Binary64 := ofCode negative BinaryFormat.binary64.infinity

/-- The number nearest to `± digits · 10^exponent`, infinite if that is too large. -/
def ofDecimal (negative : Bool) (digits : Nat) (exponent : Int) : Binary64 :=
  ofCode negative (BinaryFormat.binary64.nearestDecimal digits exponent)

/-- The code of a magnitude is what the number was built from. -/
theorem code_ofCode (negative : Bool) {code : Nat} (h : code < signBit) :
    (ofCode negative code).code = code := by
  unfold signBit at h
  cases negative <;> simp [ofCode, Binary64.code, signBit] <;> omega

/-- The sign is what the number was built from. -/
theorem isNegative_ofCode (negative : Bool) {code : Nat} (h : code < signBit) :
    (ofCode negative code).isNegative = negative := by
  unfold signBit at h
  cases negative <;> simp [ofCode, Binary64.isNegative, signBit] <;> omega

end Binary64

/-- A 32-bit floating-point number, given by its bits. -/
structure Binary32 where
  /-- The sign in the highest bit and the code of the magnitude below it. -/
  bits : UInt32
deriving DecidableEq

namespace Binary32

/-- The value of the highest bit. -/
def signBit : Nat := 0x80000000

/-- The number with a sign and the code of a magnitude. -/
def ofCode (negative : Bool) (code : Nat) : Binary32 :=
  ⟨UInt32.ofNat ((if negative then signBit else 0) + code)⟩

/-- The word that stands for no number. -/
def nan : Binary32 := ⟨0x7FC00000⟩

/-- The infinity of the given sign. -/
def infinite (negative : Bool) : Binary32 := ofCode negative BinaryFormat.binary32.infinity

/-- The number nearest to `± digits · 10^exponent`, infinite if that is too large. -/
def ofDecimal (negative : Bool) (digits : Nat) (exponent : Int) : Binary32 :=
  ofCode negative (BinaryFormat.binary32.nearestDecimal digits exponent)

/-- The same number with 64 bits: every 32-bit magnitude has a code of its own there. -/
def widen (x : Binary32) : Binary64 :=
  let negative : Bool := signBit ≤ x.bits.toNat
  let code := x.bits.toNat % signBit
  let narrow := BinaryFormat.binary32
  if narrow.infinity < code then .nan
  else if code = narrow.infinity then .infinite negative
  else .ofCode negative (BinaryFormat.binary64.nearest (narrow.numerator code) (narrow.denominator code))

end Binary32

end BulkDml
