import BulkDml.Value.Json

/-! # Expressions as JSON

An expression is an object with one field, which names its kind: `binary`, `member`, `constant` or
`unary`.  A member is a column or a captured value.
-/

namespace BulkDml

namespace Expr

/-- The document of an expression. -/
def toJson : Expr → Json
  | binary op left right =>
    .ofFields [("binary",
      .ofFields [("op", .ofText op.key), ("left", left.toJson), ("right", right.toJson)])]
  | column name =>
    .ofFields [("member",
      .ofFields [("name", .ofText name), ("binding", .ofText "column".toList)])]
  | captured name value =>
    .ofFields [("member",
      .ofFields [("name", .ofText name), ("binding", .ofFields [("captured", value.toJson)])])]
  | constant value => .ofFields [("constant", value.toJson)]
  | converted operand => .ofFields [("unary", operand.toJson)]

/-- The member with the given name that the document of its binding writes. -/
def memberOfJson? (levels : Nat) (name : Text) (binding : Json) : Option Expr := do
  let (kind, carried) ← binding.variant? levels
  if kind = "column".toList then
    match carried with
    | none | some .null => some (column name)
    | some _ => none
  else if kind = "captured".toList then return captured name (← Value.ofJson? (levels - 1) (← carried))
  else none

/-- The expression that a document writes. -/
def ofJson? : Nat → Json → Option Expr
  | 0, _ => none
  | levels + 1, document => do
    let (kind, carried) ← document.variant? (levels + 1)
    let content ← carried
    if kind = "constant".toList then return constant (← Value.ofJson? levels content)
    else if kind = "unary".toList then return converted (← ofJson? levels content)
    else if kind = "member".toList then
      match ← content.record? levels ["name".toList, "binding".toList] with
      | [some name, some binding] => memberOfJson? (levels - 1) (← name.text?) binding
      | _ => none
    else if kind = "binary".toList then
      match levels with
      | 0 => none
      | deeper + 1 =>
        match ← content.record? (deeper + 1) ["op".toList, "left".toList, "right".toList] with
        | [some op, some left, some right] =>
          return binary (← Operator.ofKey? (← op.unitVariant? deeper)) (← ofJson? deeper left)
            (← ofJson? deeper right)
        | _ => none
    else none

end Expr

end BulkDml
