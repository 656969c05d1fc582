import BulkDml.Text

/-! # Binary operators

The operators of value expressions.  Arithmetic and equality can be written into a statement
(`Operator.isSupported`); the others can be described and are then refused by name.

* `Operator.sql` — the SQL spelling;
* `Operator.precedence` — how tightly an operator binds;
* `Operator.regroups` — whether grouping to the right changes the meaning.
-/

namespace BulkDml

/-- A binary operator. -/
inductive Operator where
  /-- Addition. -/
  | add
  /-- Subtraction. -/
  | sub
  /-- Multiplication. -/
  | mul
  /-- Division. -/
  | div
  /-- Remainder. -/
  | mod
  /-- Equality. -/
  | eq
  /-- Inequality. -/
  | notEq
  /-- Less than. -/
  | lt
  /-- Less than or equal. -/
  | ltEq
  /-- Greater than. -/
  | gt
  /-- Greater than or equal. -/
  | gtEq
  /-- Conjunction. -/
  | and
  /-- Disjunction. -/
  | or
  /-- Bitwise conjunction. -/
  | bitAnd
  /-- Bitwise disjunction. -/
  | bitOr
  /-- Bitwise exclusive disjunction. -/
  | bitXor
  /-- Shift to the left. -/
  | leftShift
  /-- Shift to the right. -/
  | rightShift
deriving DecidableEq, Repr

namespace Operator

/-- Every operator. -/
def all : List Operator :=
  [add, sub, mul, div, mod, eq, notEq, lt, ltEq, gt, gtEq, and, or, bitAnd, bitOr, bitXor, leftShift,
   rightShift]

/-- The SQL spelling. -/
def sql : Operator → Text
  | add => "+".toList
  | sub => "-".toList
  | mul => "*".toList
  | div => "/".toList
  | mod => "%".toList
  | eq => "=".toList
  | notEq => "!=".toList
  | lt => "<".toList
  | ltEq => "<=".toList
  | gt => ">".toList
  | gtEq => ">=".toList
  | and => "AND".toList
  | or => "OR".toList
  | bitAnd => "&".toList
  | bitOr => "|".toList
  | bitXor => "^".toList
  | leftShift => "<<".toList
  | rightShift => ">>".toList

/-- The name under which messages mention an operator. -/
def label : Operator → Text
  | add => "Add".toList
  | sub => "Sub".toList
  | mul => "Mul".toList
  | div => "Div".toList
  | mod => "Mod".toList
  | eq => "Eq".toList
  | notEq => "NotEq".toList
  | lt => "Lt".toList
  | ltEq => "LtEq".toList
  | gt => "Gt".toList
  | gtEq => "GtEq".toList
  | and => "And".toList
  | or => "Or".toList
  | bitAnd => "BitAnd".toList
  | bitOr => "BitOr".toList
  | bitXor => "BitXor".toList
  | leftShift => "LeftShift".toList
  | rightShift => "RightShift".toList

/-- The name under which requests mention an operator. -/
def key : Operator → Text
  | add => "add".toList
  | sub => "sub".toList
  | mul => "mul".toList
  | div => "div".toList
  | mod => "mod".toList
  | eq => "eq".toList
  | notEq => "not_eq".toList
  | lt => "lt".toList
  | ltEq => "lt_eq".toList
  | gt => "gt".toList
  | gtEq => "gt_eq".toList
  | and => "and".toList
  | or => "or".toList
  | bitAnd => "bit_and".toList
  | bitOr => "bit_or".toList
  | bitXor => "bit_xor".toList
  | leftShift => "left_shift".toList
  | rightShift => "right_shift".toList

/-- The operator with the given request name. -/
def ofKey? (name : Text) : Option Operator := all.find? (·.key == name)

/-- Every operator is found under its request name. -/
@[simp] theorem ofKey?_key (op : Operator) : ofKey? op.key = some op := by
  cases op <;> decide

/-- How tightly an operator binds; a greater number binds tighter. -/
def precedence : Operator → Nat
  | or => 1
  | and => 2
  | eq | notEq | lt | ltEq | gt | gtEq => 3
  | bitOr | bitXor => 5
  | bitAnd => 6
  | leftShift | rightShift => 7
  | add | sub => 8
  | mul | div | mod => 9

/-- Whether an operator can be written into a statement. -/
def isSupported : Operator → Bool
  | eq | add | sub | mul | div | mod => true
  | _ => false

/-- Whether `a op (b op c)` means something else than `(a op b) op c`. -/
def regroups : Operator → Bool
  | sub | div | mod | eq => true
  | _ => false

end Operator

end BulkDml
