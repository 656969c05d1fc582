import BulkDml.Expr.Rendering
import BulkDml.Text.Lowercase

/-! # Assignments

An assignment lists the columns of a bulk update with their new values, in the order in which they are
declared.  Compiling it gives one fragment `column = …` for each column that is not ignored: a literal
value is bound to a generated parameter, every other value is written in place.

* `IgnoreSet` — the columns to leave out, names that differ in case being the same column;
* `SetFragment` — one compiled assignment, `SetFragment.text` its SQL and `SetFragment.parameter?` the
  parameter it refers to;
* `Assignment.compile` — the compiled assignments, in order.
-/

namespace BulkDml

/-! ## Ignored columns -/

/-- Columns to leave out, in the order in which they were added. -/
structure IgnoreSet where
  /-- The columns as they were first spelled. -/
  columns : List Text
deriving DecidableEq

namespace IgnoreSet

/-- No columns. -/
def empty : IgnoreSet := ⟨[]⟩

/-- Whether a column is left out: its lower-case form is that of a column of the set. -/
def contains (ignored : IgnoreSet) (column : Text) : Bool :=
  ignored.columns.any (·.lowercase == column.lowercase)

/-- The set with one more column, at the end, unless it is there already. -/
def insert (ignored : IgnoreSet) (column : Text) : IgnoreSet :=
  if ignored.contains column then ignored else ⟨ignored.columns ++ [column]⟩

/-- The set of the given columns, added one after the other. -/
def ofList (columns : List Text) : IgnoreSet := columns.foldl insert empty

@[simp] theorem contains_empty (column : Text) : empty.contains column = false := rfl

/-- A column is in the set after it was added, and adding it puts nothing else there. -/
theorem contains_insert (ignored : IgnoreSet) (added column : Text) :
    (ignored.insert added).contains column
      = (ignored.contains column || added.lowercase == column.lowercase) := by
  unfold insert
  split
  · next h =>
    cases hsame : added.lowercase == column.lowercase with
    | false => simp
    | true =>
      have hcolumn : added.lowercase = column.lowercase := by simpa using hsame
      have : ignored.contains column = true := by simpa [contains, hcolumn] using h
      simp [this]
  · simp [contains]

end IgnoreSet

/-! ## Compiled assignments -/

/-- A parameter and its value. -/
structure Binding where
  /-- The name, with the character that introduces it. -/
  name : Text
  /-- The value. -/
  value : Value
deriving DecidableEq

/-- One declared assignment. -/
structure Assignment.Entry where
  /-- The column that is assigned. -/
  column : Text
  /-- Its new value. -/
  value : Expr
deriving DecidableEq

/-- The declared assignments, in order. -/
abbrev Assignment : Type := List Assignment.Entry

/-- One compiled assignment. -/
inductive SetFragment where
  /-- The value is the given SQL text. -/
  | inline (column sql : Text)
  /-- The value is bound to the parameter with the given ordinal. -/
  | bound (column : Text) (ordinal : Nat) (value : Value)
deriving DecidableEq

namespace SetFragment

/-- The SQL of a compiled assignment. -/
def text (dialect : Dialect) : SetFragment → Text
  | inline column sql => dialect.quote column ++ " = ".toList ++ sql
  | bound column ordinal _ =>
    dialect.quote column ++ " = ".toList ++ dialect.parameterName column ordinal

/-- The parameter that a compiled assignment refers to. -/
def parameter? (dialect : Dialect) : SetFragment → Option Binding
  | inline _ _ => none
  | bound column ordinal value => some ⟨dialect.parameterName column ordinal, value⟩

end SetFragment

/-- The compiled assignments of a statement. -/
structure SetClause where
  /-- One text `column = …` for each assignment. -/
  fragments : List Text
  /-- The parameters that the fragments refer to, in order. -/
  parameters : List Binding
deriving DecidableEq

namespace Assignment

/-- The assignments whose columns are not ignored. -/
def keep (ignored : IgnoreSet) (entries : Assignment) : Assignment :=
  entries.filter fun entry => !ignored.contains entry.column

/-- Nothing is left out of an assignment without ignored columns. -/
theorem keep_empty (entries : Assignment) : entries.keep .empty = entries :=
  List.filter_eq_self.mpr fun _ _ => rfl

/-- Compiles assignments in order, numbering the parameters from `ordinal` on. -/
def fragmentsFrom (dialect : Dialect) : Nat → Assignment → Except CompileError (List SetFragment)
  | _, [] => .ok []
  | ordinal, entry :: rest => do
    match ← entry.value.render dialect with
    | .sql text => return .inline entry.column text :: (← fragmentsFrom dialect ordinal rest)
    | .literal value =>
      return .bound entry.column ordinal value :: (← fragmentsFrom dialect (ordinal + 1) rest)

/-- Compiles the assignments that are not ignored.  One of them at least is required. -/
def compile (dialect : Dialect) (ignored : IgnoreSet) (entries : Assignment) :
    Except CompileError SetClause := do
  let fragments ← fragmentsFrom dialect 0 (entries.keep ignored)
  if fragments.isEmpty then .error .emptyAssignment
  else
    return ⟨fragments.map (·.text dialect), fragments.filterMap (·.parameter? dialect)⟩

end Assignment

end BulkDml
