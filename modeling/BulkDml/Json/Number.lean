import BulkDml.Json.Reading
import BulkDml.Number.Binary64

/-! # The value of a JSON number

A number without fraction and exponent is an integer if it fits 64 bits.  Every other number is a
floating-point number, read in two steps: its leading digits, as many as fit an unsigned 64-bit integer,
are rounded to a floating-point number, and that is multiplied or divided by a rounded power of ten.  The
result can differ in its last place from the number nearest to what is written.
-/

namespace BulkDml

namespace Numeral

/-- Takes digits off a run as long as the number that they write fits 64 bits. -/
def absorb (value : Nat) : Text → Nat × Text
  | [] => (value, [])
  | d :: rest =>
    let longer := value * 10 + (d.toNat - '0'.toNat)
    if longer < 0x10000000000000000 then absorb longer rest else (value, d :: rest)

/-- The rounded power of ten, for exponents up to 308. -/
def powerOfTen (exponent : Nat) : Nat := BinaryFormat.binary64.nearestDecimal 1 exponent

/-- Divides a magnitude by `10^308` the given number of times; zero stays as it is. -/
def shrink : Nat → Nat → Nat
  | 0, code => code
  | times + 1, code =>
    if code = 0 then 0 else shrink times (BinaryFormat.binary64.divide code (powerOfTen 308))

/-- The code of `significand · 10^exponent`, unless that is too large. -/
def scaled? (significand : Nat) (exponent : Int) : Option Nat :=
  let code := BinaryFormat.binary64.nearest significand 1
  if 308 < exponent then if code = 0 then some 0 else none
  else if 0 ≤ exponent then
    let product := BinaryFormat.binary64.multiply code (powerOfTen exponent.toNat)
    if product = BinaryFormat.binary64.infinity then none else some product
  else
    let magnitude := exponent.natAbs
    let rounds := (magnitude - 1) / 308
    some (BinaryFormat.binary64.divide (shrink rounds code) (powerOfTen (magnitude - 308 * rounds)))

/-- The floating-point number that a numeral writes, unless that is too large. -/
def toBinary64? (numeral : Numeral) : Option Binary64 :=
  let (leading, skipped) := absorb 0 numeral.whole
  let (significand, dropped) := absorb leading numeral.fraction
  let exponent : Int :=
    numeral.exponent.getD 0 + skipped.length - (numeral.fraction.length - dropped.length : Nat)
  (scaled? significand exponent).map (Binary64.ofCode numeral.negative)

/-- The magnitude of the least 64-bit integer. -/
def int64Bound : Nat := 0x8000000000000000

/-- The integer that a numeral writes, if it is one of 64 bits.  A negative zero is no integer. -/
def toInt64? (numeral : Numeral) : Option Int64 :=
  if numeral.isWhole then
    let magnitude := Text.toNat numeral.whole
    if numeral.negative then
      if 0 < magnitude ∧ magnitude ≤ int64Bound then some (Int64.ofInt (-magnitude)) else none
    else if magnitude < int64Bound then some (Int64.ofInt magnitude) else none
  else none

/-- The byte that a numeral writes. -/
def toByte? (numeral : Numeral) : Option UInt8 :=
  if numeral.isWhole && !numeral.negative && Text.toNat numeral.whole < 256 then
    some (UInt8.ofNat (Text.toNat numeral.whole))
  else none

end Numeral

end BulkDml
