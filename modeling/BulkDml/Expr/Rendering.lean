import BulkDml.Expr

/-! # Expressions as SQL

Rendering an expression gives either SQL text or a value that is to be bound as a parameter
(`Rendered`).  Inside a binary expression both operands become text: a literal is written out, and an
operand that would otherwise be read differently is put in parentheses (`Expr.needsParens`).
-/

namespace BulkDml

/-- What an expression is rendered to. -/
inductive Rendered where
  /-- SQL text that can be written as it is. -/
  | sql (text : Text)
  /-- A value that is to be bound as a parameter. -/
  | literal (value : Value)
deriving DecidableEq

/-- The SQL text of a rendered expression; a value is written as the dialect spells its literal. -/
def Rendered.toSql (dialect : Dialect) : Rendered → Except CompileError Text
  | sql text => .ok text
  | literal (.bool value) => .ok (dialect.booleanLiteral value)
  | literal value =>
    if value.hasLiteral then .ok value.literal else .error (.nonFiniteLiteral value.literal)

@[simp] theorem Rendered.toSql_sql (dialect : Dialect) (text : Text) :
    (sql text).toSql dialect = .ok text := rfl

namespace Expr

/-- Whether an operand of `parent` stands in parentheses: its operator binds less tightly, or as tightly
on the right of an operator that regroups. -/
def needsParens (parent : Operator) (onRight : Bool) (operand : Expr) : Bool :=
  match operand.bare with
  | binary child _ _ =>
    child.precedence < parent.precedence
      || (onRight && child.precedence == parent.precedence && parent.regroups)
  | _ => false

/-- The text of an operand, in parentheses where it needs them. -/
def enclose (parens : Bool) (text : Text) : Text := if parens then '(' :: text ++ [')'] else text

/-- Renders an expression: a column to its quoted name, a constant or captured value to itself, a binary
expression to the text of its operands around the operator. -/
def render (dialect : Dialect) : Expr → Except CompileError Rendered
  | captured _ value => .ok (.literal value)
  | column name => .ok (.sql (dialect.quote name))
  | constant value => .ok (.literal value)
  | converted operand => operand.render dialect
  | binary op left right =>
    if op.isSupported then do
      let leftText ← (← left.render dialect).toSql dialect
      let rightText ← (← right.render dialect).toSql dialect
      return .sql
        (enclose (needsParens op false left) leftText ++ ' ' :: op.sql
          ++ ' ' :: enclose (needsParens op true right) rightText)
    else .error (.unsupportedOperator op)

/-- Conversions are not written. -/
theorem render_bare (dialect : Dialect) (expr : Expr) :
    expr.bare.render dialect = expr.render dialect := by
  induction expr with
  | converted operand ih => simpa [render] using ih
  | _ => rfl

/-- The SQL text of an expression, a literal being written in place. -/
def sql (dialect : Dialect) (expr : Expr) : Except CompileError Text := do
  (← expr.render dialect).toSql dialect

@[simp] theorem sql_column (dialect : Dialect) (name : Text) :
    (column name).sql dialect = .ok (dialect.quote name) := rfl

@[simp] theorem sql_captured (dialect : Dialect) (name : Text) (value : Value) :
    (captured name value).sql dialect = (Rendered.literal value).toSql dialect := rfl

@[simp] theorem sql_constant (dialect : Dialect) (value : Value) :
    (constant value).sql dialect = (Rendered.literal value).toSql dialect := rfl

@[simp] theorem sql_converted (dialect : Dialect) (operand : Expr) :
    (converted operand).sql dialect = operand.sql dialect := rfl

/-- An expression is written if it is rendered and what it is rendered to can be written. -/
theorem sql_eq_ok_iff {dialect : Dialect} {expr : Expr} {text : Text} :
    expr.sql dialect = .ok text
      ↔ ∃ rendered, expr.render dialect = .ok rendered ∧ rendered.toSql dialect = .ok text := by
  rw [sql]
  exact bind_eq_ok_iff

/-- A binary expression is rendered from the texts of its operands. -/
theorem render_binary (dialect : Dialect) (op : Operator) (left right : Expr) :
    (binary op left right).render dialect
      = if op.isSupported then do
          let leftText ← left.sql dialect
          let rightText ← right.sql dialect
          return .sql (enclose (needsParens op false left) leftText ++ ' ' :: op.sql
            ++ ' ' :: enclose (needsParens op true right) rightText)
        else .error (.unsupportedOperator op) := by
  simp only [render, sql, bind_assoc]

/-- A binary expression is rendered if its operator can be written and both operands can, and then to
text. -/
theorem render_binary_eq_ok_iff {dialect : Dialect} {op : Operator} {left right : Expr}
    {rendered : Rendered} :
    (binary op left right).render dialect = .ok rendered
      ↔ op.isSupported = true ∧ ∃ leftText rightText,
          left.sql dialect = .ok leftText ∧ right.sql dialect = .ok rightText
            ∧ rendered = .sql (enclose (needsParens op false left) leftText ++ ' ' :: op.sql
                ++ ' ' :: enclose (needsParens op true right) rightText) := by
  rw [render_binary]
  cases op.isSupported with
  | false => simp
  | true =>
    -- both operands are written before anything is put together
    simp only [if_true, bind_eq_ok_iff, true_and]
    constructor
    · rintro ⟨leftText, hleft, rightText, hright, hrendered⟩
      cases hrendered
      exact ⟨leftText, rightText, hleft, hright, rfl⟩
    · rintro ⟨leftText, rightText, hleft, hright, rfl⟩
      exact ⟨leftText, hleft, rightText, hright, rfl⟩

/-- The text of a binary expression is that of its operands around the operator. -/
theorem sql_binary_eq_ok_iff {dialect : Dialect} {op : Operator} {left right : Expr} {text : Text} :
    (binary op left right).sql dialect = .ok text
      ↔ op.isSupported = true ∧ ∃ leftText rightText,
          left.sql dialect = .ok leftText ∧ right.sql dialect = .ok rightText
            ∧ text = enclose (needsParens op false left) leftText ++ ' ' :: op.sql
                ++ ' ' :: enclose (needsParens op true right) rightText := by
  rw [sql_eq_ok_iff]
  constructor
  · rintro ⟨rendered, hrender, htext⟩
    obtain ⟨hop, leftText, rightText, hleft, hright, rfl⟩ := render_binary_eq_ok_iff.mp hrender
    cases htext
    exact ⟨hop, leftText, rightText, hleft, hright, rfl⟩
  · rintro ⟨hop, leftText, rightText, hleft, hright, rfl⟩
    exact ⟨_, render_binary_eq_ok_iff.mpr ⟨hop, leftText, rightText, hleft, hright, rfl⟩, rfl⟩

end Expr

end BulkDml
