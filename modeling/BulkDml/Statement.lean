import BulkDml.Assignment
import BulkDml.Sharding.Pragma
import BulkDml.SourceQuery

/-! # Bulk statements

`compileUpdate` and `compileDelete` turn a source query into one UPDATE or DELETE of the rows that it
identifies.  The declarations in front of the query stay in front of the statement, and placeholders in
its condition are passed through.
-/

namespace BulkDml

/-- SQL text and the parameters that it refers to. -/
structure Statement where
  /-- The SQL text. -/
  sql : Text
  /-- The parameters, in the order in which they were created. -/
  parameters : List Binding
deriving DecidableEq

namespace Statement

/-- The statement with a pragma in front. -/
def withPragma (pragma : Pragma) (statement : Statement) : Statement :=
  { statement with sql := pragma.attach statement.sql }

@[simp] theorem parameters_withPragma (pragma : Pragma) (statement : Statement) :
    (statement.withPragma pragma).parameters = statement.parameters := rfl

/-- The lines of a statement behind its declarations. -/
def assemble (preamble : Option Text) (parts : List Text) : Text :=
  Text.joinWith ['\n'] (preamble.toList ++ parts)

end Statement

/-- The bulk UPDATE of the rows that a source query identifies.  The query is looked at before the
assignments. -/
def compileUpdate (dialect : Dialect) (source : Text) (assignment : Assignment) (ignored : IgnoreSet) :
    Except CompileError Statement := do
  let query ← SourceQuery.parse dialect source
  let clause ← assignment.compile dialect ignored
  return {
    sql := Statement.assemble query.preamble
      ["UPDATE ".toList ++ query.table,
        "SET ".toList ++ Text.joinWith ", ".toList clause.fragments,
        query.unaliasedWhere dialect]
    parameters := clause.parameters }

/-- The bulk DELETE of the rows that a source query identifies. -/
def compileDelete (dialect : Dialect) (source : Text) : Except CompileError Statement := do
  let query ← SourceQuery.parse dialect source
  return {
    sql := Statement.assemble query.preamble
      ["DELETE FROM ".toList ++ query.table, query.unaliasedWhere dialect]
    parameters := [] }

/-- The UPDATE for a query that can be read. -/
theorem compileUpdate_of_parse {dialect : Dialect} {source : Text} {query : SourceQuery}
    (h : SourceQuery.parse dialect source = .ok query) (assignment : Assignment) (ignored : IgnoreSet) :
    compileUpdate dialect source assignment ignored
      = (assignment.compile dialect ignored).map fun clause =>
        ⟨Statement.assemble query.preamble
          ["UPDATE ".toList ++ query.table,
            "SET ".toList ++ Text.joinWith ", ".toList clause.fragments,
            query.unaliasedWhere dialect], clause.parameters⟩ := by
  rw [compileUpdate, h]
  cases assignment.compile dialect ignored <;> rfl

/-- The DELETE for a query that can be read. -/
theorem compileDelete_of_parse {dialect : Dialect} {source : Text} {query : SourceQuery}
    (h : SourceQuery.parse dialect source = .ok query) :
    compileDelete dialect source
      = .ok ⟨Statement.assemble query.preamble
          ["DELETE FROM ".toList ++ query.table, query.unaliasedWhere dialect], []⟩ := by
  rw [compileDelete, h]
  rfl

end BulkDml
