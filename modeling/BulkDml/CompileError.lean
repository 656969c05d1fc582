import BulkDml.Operator

/-! # Why a statement cannot be compiled

Every failure is a cause, a value of `CompileError`; `CompileError.message` words it and
`CompileError.stage` tells the part of the compilation that it belongs to.  The same input fails for the
same cause every time.
-/

namespace BulkDml

/-- A computation in two steps succeeds exactly if both of its steps do. -/
theorem bind_eq_ok_iff {ε α β : Type} {first : Except ε α} {next : α → Except ε β} {result : β} :
    (first >>= next) = .ok result ↔ ∃ value, first = .ok value ∧ next value = .ok result := by
  constructor
  · intro h
    cases first with
    | error cause => cases h
    | ok value => exact ⟨value, rfl, h⟩
  · rintro ⟨value, rfl, hresult⟩
    exact hresult

/-- A mapped computation fails exactly if the computation does, and for the same cause. -/
theorem map_eq_error_iff {ε α β : Type} {first : Except ε α} {f : α → β} {cause : ε} :
    f <$> first = .error cause ↔ first = .error cause := by
  cases first with
  | error found =>
    constructor
    · rintro ⟨⟩
      rfl
    · rintro ⟨⟩
      rfl
  | ok value => exact iff_of_false (fun h => nomatch h) (fun h => nomatch h)

/-- The keywords that the shape of a source query rests on. -/
inductive Keyword where
  /-- Starts the items of a query. -/
  | SELECT
  /-- Starts the table of a query. -/
  | FROM
  /-- Starts the alias of a table. -/
  | AS
  /-- Starts the condition on the rows. -/
  | WHERE
deriving DecidableEq, Repr

/-- The keyword in capitals. -/
def Keyword.text : Keyword → Text
  | SELECT => "SELECT".toList
  | FROM => "FROM".toList
  | AS => "AS".toList
  | WHERE => "WHERE".toList

/-- The ways in which a query misses the shape `FROM … AS … WHERE …`. -/
inductive MalformedQuery where
  /-- A required keyword does not appear. -/
  | missingKeyword (keyword : Keyword)
  /-- A keyword that must be unique appears more than once. -/
  | duplicateKeyword (keyword : Keyword)
  /-- Two keywords appear in the wrong order. -/
  | outOfOrder (before after : Keyword)
  /-- Nothing stands between `FROM` and `AS`. -/
  | emptyTableName
  /-- No alias stands between `AS` and `WHERE`. -/
  | missingAlias
deriving DecidableEq, Repr

/-- A keyword between backticks, as messages quote it. -/
def Keyword.quoted (keyword : Keyword) : Text := '\x60' :: keyword.text ++ ['\x60']

/-- The wording of a misshapen query. -/
def MalformedQuery.message : MalformedQuery → Text
  | missingKeyword keyword => "missing ".toList ++ keyword.quoted ++ " keyword".toList
  | duplicateKeyword keyword => keyword.quoted ++ " appears more than once".toList
  | outOfOrder before after => after.quoted ++ " must follow ".toList ++ before.quoted
  | emptyTableName =>
    "empty table name between ".toList ++ Keyword.FROM.quoted ++ " and ".toList ++ Keyword.AS.quoted
  | missingAlias => "missing table alias after ".toList ++ Keyword.AS.quoted

/-- The part of the compilation that a failure belongs to. -/
inductive Stage where
  /-- Finding the dialect of a connection. -/
  | dialect
  /-- Taking the table and the condition from the source query. -/
  | extraction
  /-- Writing a value expression as SQL. -/
  | rendering
  /-- Putting the statement together. -/
  | compilation
deriving DecidableEq, Repr

/-- The name of a stage. -/
def Stage.text : Stage → Text
  | dialect => "dialect".toList
  | extraction => "extraction".toList
  | rendering => "rendering".toList
  | compilation => "compilation".toList

/-- Why a bulk statement cannot be compiled. -/
inductive CompileError where
  /-- The connection names no known dialect. -/
  | unsupportedDialect (name : Text)
  /-- The source query does not have the required shape. -/
  | malformedQuery (cause : MalformedQuery)
  /-- An expression uses an operator that cannot be written. -/
  | unsupportedOperator (op : Operator)
  /-- A number that is not finite, with the given text, would have to be written as a literal. -/
  | nonFiniteLiteral (text : Text)
  /-- Every assignment is ignored. -/
  | emptyAssignment
deriving DecidableEq, Repr

namespace CompileError

/-- The wording of a failure. -/
def message : CompileError → Text
  | unsupportedDialect name => "unsupported dialect: ".toList ++ name
  | malformedQuery cause => "malformed source query: ".toList ++ cause.message
  | unsupportedOperator op =>
    "unsupported operator ".toList ++ '\x60' :: op.sql ++ "\x60 (".toList ++ op.label
      ++ ") in assignment expression".toList
  | nonFiniteLiteral text =>
    "non-finite float ".toList ++ '\x60' :: text ++ "\x60 cannot be written as a SQL literal".toList
  | emptyAssignment => "no columns left to assign after applying the ignore list".toList

/-- The stage that a failure belongs to. -/
def stage : CompileError → Stage
  | unsupportedDialect _ => .dialect
  | malformedQuery _ => .extraction
  | unsupportedOperator _ | nonFiniteLiteral _ => .rendering
  | emptyAssignment => .compilation

end CompileError

end BulkDml
