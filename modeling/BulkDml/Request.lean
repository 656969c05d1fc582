import BulkDml.Statement

/-! # Requests

A request names a kind of database, a source query and what to do with the rows that it selects.
`Request.compile` makes the statement, in front of which a pragma stands if the request routes its table
to another one.
-/

namespace BulkDml

/-- What a request does to the selected rows. -/
inductive Operation where
  /-- Assigns new values to columns. -/
  | update
  /-- Deletes the rows. -/
  | delete
deriving DecidableEq

/-- The use of a physical table in the place of a logical one. -/
structure Route where
  /-- The table as the compiled statement names it. -/
  logical : Text
  /-- The table to use. -/
  physical : Text
deriving DecidableEq

namespace Route

/-- The route that a text `OLD:NEW` writes: two names that are not empty. -/
def parse? (text : Text) : Option Route :=
  match text.splitAll ':' with
  | [logical, physical] =>
    if logical.isEmpty || physical.isEmpty then none else some ⟨logical, physical⟩
  | _ => none

/-- The pragma of a route. -/
def pragma (tag : Text) (route : Route) : Pragma := ⟨tag, route.logical, route.physical⟩

end Route

/-- A bulk request. -/
structure Request where
  /-- The kind of database, as a connection declares it. -/
  kind : Text
  /-- What to do with the rows. -/
  operation : Operation
  /-- The source query. -/
  query : Text
  /-- The columns to assign, for an update. -/
  set : Assignment
  /-- The columns to leave out. -/
  ignored : IgnoreSet
  /-- The values of placeholders in the query. -/
  bindings : List Binding
  /-- The route of the table, if there is one. -/
  shard : Option Route
deriving DecidableEq

/-- The statement of a request, its pragma written with the given tag. -/
def Request.compile (tag : Text) (request : Request) : Except CompileError Statement := do
  let dialect ← Dialect.resolve request.kind
  let statement ← match request.operation with
    | .update => compileUpdate dialect request.query request.set request.ignored
    | .delete => compileDelete dialect request.query
  return match request.shard with
    | some route => statement.withPragma (route.pragma tag)
    | none => statement

end BulkDml
