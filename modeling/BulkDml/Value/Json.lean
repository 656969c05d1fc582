import BulkDml.Json.Number
import BulkDml.Statement
import BulkDml.Value

/-! # Values and statements as JSON

A value is written without any tag: the absent value as `null`, booleans, numbers and texts as
themselves, bytes as an array of numbers.  An integer that does not fit 64 bits reads as a floating-point
number; a floating-point number that is not finite is written as `null`.
-/

namespace BulkDml

namespace Value

/-- The document of a value. -/
def toJson : Value → Json
  | null => .null
  | bool value => .bool value
  | int n => .ofInt n.toInt
  | float x => if x.isFinite then .number (FloatLayout.json.numeral x) else .null
  | text t => .ofText t
  | blob bytes => .array (bytes.map fun byte => .ofInt byte.toNat)

/-- The byte that a document writes. -/
def byteOfJson? : Json → Option UInt8
  | .number numeral => numeral.toByte?
  | _ => none

/-- The value that a document writes. -/
def ofJson? (levels : Nat) : Json → Option Value
  | .null => some null
  | .bool value => some (bool value)
  | .number numeral =>
    match numeral.toInt64? with
    | some n => some (int n)
    | none => numeral.toBinary64?.map float
  | .string value => value.map text
  | .array items => if levels = 0 then none else (items.mapM byteOfJson?).map blob
  | .object _ => none

end Value

/-- The document of a parameter. -/
def Binding.toJson (binding : Binding) : Json :=
  .ofFields [("name", .ofText binding.name), ("value", binding.value.toJson)]

/-- The parameter that a document writes. -/
def Binding.ofJson? (levels : Nat) (document : Json) : Option Binding := do
  match ← document.record? levels ["name".toList, "value".toList] with
  | [some name, some value] => return ⟨← name.text?, ← Value.ofJson? (levels - 1) value⟩
  | _ => none

/-- The document of a statement. -/
def Statement.toJson (statement : Statement) : Json :=
  .ofFields [("sql", .ofText statement.sql), ("parameters", .array (statement.parameters.map (·.toJson)))]

end BulkDml
