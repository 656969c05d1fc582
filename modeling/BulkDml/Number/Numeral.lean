import BulkDml.Text

/-! # Written decimal numbers

A *numeral* is a decimal number as it is written: sign, digits before and after the point, exponent.
`Numeral.read` takes the longest run of characters off a text that has this shape; what may be missing
is up to its caller.
-/

namespace BulkDml

/-- A decimal number as written. -/
structure Numeral where
  /-- Whether a minus sign stands in front. -/
  negative : Bool
  /-- The digits before the point. -/
  whole : Text
  /-- The digits after the point; without any, there is no point. -/
  fraction : Text
  /-- The exponent, if one is written. -/
  exponent : Option Int
deriving DecidableEq

namespace Numeral

/-- The numeral of an integer. -/
def ofInt : Int → Numeral
  | .ofNat n => ⟨false, Text.ofNat n, [], none⟩
  | .negSucc n => ⟨true, Text.ofNat (n + 1), [], none⟩

/-- Whether the numeral has neither a fraction nor an exponent. -/
def isWhole (numeral : Numeral) : Bool := numeral.fraction.isEmpty && numeral.exponent.isNone

/-- An exponent as written, with a plus sign in front of a non-negative one if `plus` asks for it. -/
def exponentText (plus : Bool) (exponent : Int) : Text :=
  'e' :: ((if plus && 0 ≤ exponent then ['+'] else []) ++ Text.ofInt exponent)

/-- The text of a numeral. -/
def text (plus : Bool) (numeral : Numeral) : Text :=
  (if numeral.negative then ['-'] else [])
    ++ numeral.whole
    ++ (if numeral.fraction.isEmpty then [] else '.' :: numeral.fraction)
    ++ (match numeral.exponent with
      | none => []
      | some exponent => exponentText plus exponent)

/-- All digits of a numeral as one natural number. -/
def digits (numeral : Numeral) : Nat := Text.toNat (numeral.whole ++ numeral.fraction)

/-- The power of ten that `digits` is multiplied by. -/
def scale (numeral : Numeral) : Int :=
  numeral.exponent.getD 0 - (numeral.fraction.length : Int)

/-- The text of an integer's numeral is its decimal form. -/
theorem text_ofInt (plus : Bool) (n : Int) : (ofInt n).text plus = Text.ofInt n := by
  cases n <;> simp [ofInt, text, Text.ofInt]

end Numeral

end BulkDml
