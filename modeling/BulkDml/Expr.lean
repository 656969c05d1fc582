import BulkDml.Value

/-! # Value expressions

An expression describes the new value of one column: the row's columns, values from outside the row,
constants, and operators over them.  A conversion marks its operand as converted to another type and
does not change what is written; `Expr.bare` strips conversions off.
-/

namespace BulkDml

/-- The new value of a column. -/
inductive Expr where
  /-- `left op right`. -/
  | binary (op : Operator) (left right : Expr)
  /-- The current value of a column of the row. -/
  | column (name : Text)
  /-- A named value from outside the row. -/
  | captured (name : Text) (value : Value)
  /-- A constant. -/
  | constant (value : Value)
  /-- A conversion of its operand. -/
  | converted (operand : Expr)
deriving DecidableEq

namespace Expr

/-- The expression without the conversions around it. -/
def bare : Expr → Expr
  | converted operand => operand.bare
  | other => other

@[simp] theorem bare_converted (operand : Expr) : (converted operand).bare = operand.bare := rfl

/-- No conversion is left around a bare expression. -/
theorem bare_ne_converted (expr operand : Expr) : expr.bare ≠ converted operand := by
  induction expr with
  | converted inner ih => simpa using ih
  | _ => simp [bare]

/-- The constant of a database value. -/
def ofValue {α : Type} [ToValue α] (value : α) : Expr := constant (toValue value)

end Expr

end BulkDml
