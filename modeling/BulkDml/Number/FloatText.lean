import BulkDml.Number.Binary64
import BulkDml.Number.Numeral
import BulkDml.Number.Shortest

/-! # The text of a floating-point number

A number is written with the shortest digits that read back to it, positionally if its leading digit
stands near the point and with an exponent otherwise.  The two places where numbers are written differ
in a few decisions, which a `FloatLayout` records: `FloatLayout.sql` is that of SQL literals and
`FloatLayout.json` that of JSON numbers.

* `FloatLayout.numeral` — the numeral of a finite number;
* `Binary64.text` — the SQL text of any number;
* `Binary64.ofText?`, `Binary32.ofText?` — the number nearest to what a text writes.
-/

namespace BulkDml

/-! ## Writing -/

/-- The decisions on how a number is written. -/
structure FloatLayout where
  /-- The least exponent of a leading digit that is still written positionally. -/
  plainFrom : Int
  /-- The least exponent of a leading digit from which numbers are large enough for an exponent. -/
  plainBelow : Int
  /-- Which of two equally close decimals is written. -/
  tie : Tie

namespace FloatLayout

/-- In SQL, magnitudes from `10^(-4)` up to `10^16` are written positionally, and a tie goes up. -/
def sql : FloatLayout := ⟨-4, 16, .upper⟩

/-- In JSON, magnitudes from `10^(-5)` up to `10^16` are written positionally, and a tie goes to the
even digit. -/
def json : FloatLayout := ⟨-5, 16, .even⟩

/-- Digits without the zeros that they end in. -/
def dropTrailingZeros (digits : Text) : Text := (digits.reverse.dropWhile (· == '0')).reverse

/-- The numeral with the given significant digits whose leading digit has the given exponent. -/
def place (layout : FloatLayout) (negative : Bool) (digits : Text) (leading : Int) : Numeral :=
  if layout.plainFrom ≤ leading ∧ leading < layout.plainBelow then
    if leading < 0 then
      ⟨negative, ['0'], List.replicate (-leading - 1).toNat '0' ++ digits, none⟩
    else
      let places := leading.toNat + 1
      if digits.length ≤ places then
        ⟨negative, digits ++ List.replicate (places - digits.length) '0', ['0'], none⟩
      else ⟨negative, digits.take places, digits.drop places, none⟩
  else ⟨negative, digits.take 1, digits.drop 1, some leading⟩

/-- The numeral of a finite number. -/
def numeral (layout : FloatLayout) (x : Binary64) : Numeral :=
  if x.code = 0 then ⟨x.isNegative, ['0'], ['0'], none⟩
  else
    let decimal := BinaryFormat.binary64.shortest layout.tie x.code
    let digits := Text.ofNat decimal.digits
    layout.place x.isNegative (dropTrailingZeros digits) (decimal.exponent + digits.length - 1)

end FloatLayout

namespace Binary64

/-- The text of a number in SQL; what is no number, or infinite, is written as a word. -/
def text (x : Binary64) : Text :=
  if x.isNaN then "NaN".toList
  else if x.isInfinite then if x.isNegative then "-inf".toList else "inf".toList
  else (FloatLayout.sql.numeral x).text false

example : (ofDecimal false 2 0).text = "2.0".toList := by decide +kernel
example : (ofDecimal true 0 0).text = "-0.0".toList := by decide +kernel
example : (ofDecimal false 1 16).text = "1e16".toList := by decide +kernel
example : (ofDecimal false 15 299).text = "1.5e300".toList := by decide +kernel
example : (ofDecimal false 9999 (-8)).text = "9.999e-5".toList := by decide +kernel

end Binary64

/-! ## Reading -/

/-- What a text writes that is to be read as a floating-point number. -/
inductive WrittenFloat where
  /-- The word for what is no number. -/
  | nan
  /-- One of the words for an infinity, under a sign. -/
  | infinite (negative : Bool)
  /-- A numeral. -/
  | decimal (numeral : Numeral)

namespace WrittenFloat

/-- The exponent that ends a numeral: nothing, or the letter `e` and an integer. -/
def exponent? : Text → Option Int
  | [] => some 0
  | c :: rest => if c = 'e' ∨ c = 'E' then Text.toInt? rest else none

/-- The digits after the point and the exponent that end a numeral, both of which may be missing. -/
def fraction? : Text → Option (Text × Int)
  | '.' :: rest => (exponent? (rest.dropWhile Char.isDigit)).map (rest.takeWhile Char.isDigit, ·)
  | rest => (exponent? rest).map ([], ·)

/-- What a text without a sign writes, under the given sign. -/
def unsigned? (negative : Bool) (text : Text) : Option WrittenFloat :=
  if text.equalsIgnoringCase "nan".toList then some nan
  else if text.equalsIgnoringCase "inf".toList || text.equalsIgnoringCase "infinity".toList then
    some (infinite negative)
  else do
    let whole := text.takeWhile Char.isDigit
    let (fraction, exponent) ← fraction? (text.dropWhile Char.isDigit)
    if whole.isEmpty && fraction.isEmpty then none
    else some (decimal ⟨negative, whole, fraction, some exponent⟩)

/-- What a text writes: an optional sign, digits, an optional fraction and an optional exponent, or one
of the words for what is not finite. -/
def read? : Text → Option WrittenFloat
  | '-' :: rest => unsigned? true rest
  | '+' :: rest => unsigned? false rest
  | rest => unsigned? false rest

end WrittenFloat

/-- The 64-bit number nearest to what a text writes. -/
def Binary64.ofText? (text : Text) : Option Binary64 :=
  (WrittenFloat.read? text).map fun
    | .nan => .nan
    | .infinite negative => .infinite negative
    | .decimal numeral => .ofDecimal numeral.negative numeral.digits numeral.scale

/-- The 32-bit number nearest to what a text writes. -/
def Binary32.ofText? (text : Text) : Option Binary32 :=
  (WrittenFloat.read? text).map fun
    | .nan => .nan
    | .infinite negative => .infinite negative
    | .decimal numeral => .ofDecimal numeral.negative numeral.digits numeral.scale

end BulkDml
