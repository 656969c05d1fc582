import BulkDml.Dialect
import BulkDml.Number.FloatText

/-! # Values

A `Value` is what an assignment gives a column or a parameter is bound to.  Values normally travel as
parameters; inside an arithmetic expression they are written as literals, by `Value.literal`.
-/

namespace BulkDml

/-- A database value. -/
inductive Value where
  /-- The absent value. -/
  | null
  /-- A boolean. -/
  | bool (value : Bool)
  /-- A 64-bit integer. -/
  | int (value : Int64)
  /-- A 64-bit floating-point number. -/
  | float (value : Binary64)
  /-- A text. -/
  | text (value : Text)
  /-- A sequence of bytes. -/
  | blob (bytes : List UInt8)
deriving DecidableEq

namespace Value

/-- The upper-case hexadecimal digit of a number below sixteen. -/
def hexDigit (n : Nat) : Char := if n < 10 then Char.ofNat (48 + n) else Char.ofNat (55 + n)

/-- The two hexadecimal digits of a byte. -/
def hexByte (byte : UInt8) : Text := [hexDigit (byte.toNat / 16), hexDigit (byte.toNat % 16)]

/-- The SQL literal of a text: between apostrophes, with every apostrophe inside it doubled. -/
def textLiteral (text : Text) : Text := '\'' :: text.doubling '\'' ++ ['\'']

/-- The literal of a value.  Floating-point numbers always show a point or an exponent, so that none
reads as an integer; booleans are written as keywords. -/
def literal : Value → Text
  | null => "NULL".toList
  | bool true => "TRUE".toList
  | bool false => "FALSE".toList
  | int n => Text.ofInt n.toInt
  | float x => x.text
  | text t => textLiteral t
  | blob bytes => "X'".toList ++ bytes.flatMap hexByte ++ ['\'']

/-- Whether SQL has a literal for the value: all but what is no number or infinite. -/
def hasLiteral : Value → Bool
  | float x => x.isFinite
  | _ => true

/-- Whether the value is absent. -/
def isNull : Value → Bool
  | null => true
  | _ => false

end Value

/-- Types whose elements are database values. -/
class ToValue (α : Type) where
  /-- The database value of an element. -/
  toValue : α → Value

export ToValue (toValue)

instance : ToValue Value := ⟨id⟩

instance : ToValue Bool := ⟨.bool⟩

instance : ToValue Int8 := ⟨fun n => .int n.toInt64⟩

instance : ToValue Int16 := ⟨fun n => .int n.toInt64⟩

instance : ToValue Int32 := ⟨fun n => .int n.toInt64⟩

instance : ToValue Int64 := ⟨.int⟩

instance : ToValue UInt8 := ⟨fun n => .int (.ofNat n.toNat)⟩

instance : ToValue UInt16 := ⟨fun n => .int (.ofNat n.toNat)⟩

instance : ToValue UInt32 := ⟨fun n => .int (.ofNat n.toNat)⟩

instance : ToValue Binary32 := ⟨fun x => .float x.widen⟩

instance : ToValue Binary64 := ⟨.float⟩

instance : ToValue Text := ⟨.text⟩

instance : ToValue (List UInt8) := ⟨.blob⟩

/-- An absent element is the absent value. -/
instance {α : Type} [ToValue α] : ToValue (Option α) := ⟨fun element => element.elim .null toValue⟩

end BulkDml
