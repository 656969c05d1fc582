import BulkDml.Database.Clause

/-! # What a statement does to the tables of a database

As far as tables and transactions go, a statement creates, drops, renames or changes a table, opens or ends
a transaction, sets or uses a savepoint, or does none of these.  `Action.read?` finds out which from its
tokens, and refuses a statement that is put together in any other way.
-/

namespace BulkDml

namespace Database

/-- What a statement does to tables and transactions. -/
inductive Action where
  /-- Create a table with the given columns, if they are told, unless it may be there already and is. -/
  | create (table : TableName) (columns : Option (List Text)) (unlessPresent : Bool)
  /-- Drop a table, unless it may be missing and is. -/
  | drop (table : TableName) (unlessMissing : Bool)
  /-- Give a table another name. -/
  | rename (table : TableName) (name : Text)
  /-- Change the columns of a table. -/
  | alter (table : TableName)
  /-- Change what belongs to a table, which needs the given columns. -/
  | change (table : TableName) (columns : List Text)
  /-- Open a transaction. -/
  | begin
  /-- End the open transaction and keep what it did. -/
  | commit
  /-- End the open transaction and undo what it did. -/
  | rollback
  /-- Set a savepoint. -/
  | savepoint (name : Text)
  /-- Give up a savepoint and those set since. -/
  | release (name : Text)
  /-- Undo what was done since a savepoint was set. -/
  | rollbackTo (name : Text)
  /-- Tidy up, outside of transactions. -/
  | vacuum
  /-- Nothing of this. -/
  | other
deriving DecidableEq

/-- An action of which nothing more is told. -/
def Action.alone (action : Action) (tokens : List Token) : Option Action :=
  if tokens.isEmpty then some action else none

/-! ## Statements -/

namespace Action

/-- What a statement does that creates a table. -/
def readCreateTable? (temporary : Bool) (tokens : List Token) : Option Action := do
  let (unlessPresent, rest) ← readProviso? ["not", "exists"] tokens
  let (table, behind) ← readTable? rest
  let columns ← readColumns? behind
  if !temporary then return create table columns unlessPresent
  else if table.schema = some .main then none
  else return create { table with schema := some .temp } columns unlessPresent

/-- What a statement does that creates an index: it belongs to a table. -/
def readCreateIndex? (tokens : List Token) : Option Action := do
  let (_, rest) ← readProviso? ["not", "exists"] tokens
  let (index, behind) ← readTable? rest
  let (table, columns) ← readName? (← after? ["on"] behind)
  if columns.isEmpty then none else return change ⟨index.schema, table⟩ []

/-- What a statement does that creates a table which a module provides. -/
def readCreateVirtual? (tokens : List Token) : Option Action := do
  let (unlessPresent, rest) ← readProviso? ["not", "exists"] tokens
  let (table, behind) ← readTable? rest
  let _ ← readName? (← after? ["using"] behind)
  return create table none unlessPresent

/-- What a statement does that creates a trigger: it belongs to a table. -/
def readCreateTrigger? (tokens : List Token) : Option Action := do
  let (table, _) ← readTable? (← after? ["on"] (tokens.dropWhile (!isWordOf ["on"] ·)))
  return change table []

/-- What a statement does that creates something. -/
def readCreate? (tokens : List Token) : Option Action :=
  let lasting := skip ["temporary"] (skip ["temp"] tokens)
  let temporary := lasting.length < tokens.length
  match after? ["table"] lasting, after? ["index"] (skip ["unique"] tokens),
    after? ["virtual", "table"] tokens with
  | some rest, _, _ => readCreateTable? temporary rest
  | _, some rest, _ => readCreateIndex? rest
  | _, _, some rest => readCreateVirtual? rest
  | _, _, _ =>
    if lasting.head?.any (isWordOf ["trigger"]) then readCreateTrigger? lasting
    else if lasting.head?.any (isWordOf ["view"]) then some other
    else none

/-- What a statement does that drops something. -/
def readDrop? (tokens : List Token) : Option Action :=
  match after? ["table"] tokens with
  | some rest => do
    let (unlessMissing, rest) ← readProviso? ["exists"] rest
    let (table, behind) ← readTable? rest
    (drop table unlessMissing).alone behind
  | none => if tokens.head?.any (isWordOf ["index", "view", "trigger"]) then some other else none

/-- What a statement does that alters a table. -/
def readAlter? (tokens : List Token) : Option Action := do
  let (table, behind) ← readTable? (← after? ["table"] tokens)
  match after? ["rename", "to"] behind with
  | some rest =>
    let (name, rest) ← readName? rest
    (rename table name).alone rest
  | none =>
    if behind.head?.any (isWordOf ["add", "drop", "rename"]) then return alter table else none

/-- What a statement does that adds rows. -/
def readInsert? (tokens : List Token) : Option Action := do
  let (table, behind) ← readTable? (← after? ["into"] (skipConflict tokens))
  if givesRows behind then return change table [] else none

/-- What a statement does that updates rows. -/
def readUpdate? (tokens : List Token) : Option Action := do
  let (table, behind) ← readTable? (skipConflict tokens)
  let assignments ← after? ["set"] (skipHints behind)
  if isCondition ["where"] assignments then
    return change table (assignedColumns assignments ++ columnsOf assignments)
  else none

/-- What a statement does that deletes rows. -/
def readDelete? (tokens : List Token) : Option Action := do
  let (table, behind) ← readTable? (← after? ["from"] tokens)
  match skipHints behind with
  | [] => return change table []
  | token :: rest =>
    if isWordOf ["where", "returning"] token && isCondition [] rest then
      return change table (columnsOf rest)
    else none

/-- What a statement does that ends a transaction and undoes it, or goes back to a savepoint. -/
def readRollback? (tokens : List Token) : Option Action :=
  let behind := skipTransaction tokens
  match after? ["to"] behind with
  | some rest => do
    let (name, rest) ← readName? (skip ["savepoint"] rest)
    (rollbackTo name).alone rest
  | none => rollback.alone behind

/-- Whether tokens make up one statement of pairs of parentheses and of nothing that is refused. -/
def isWhole (tokens : List Token) : Bool :=
  let holdsStatements :=
    declaresTrigger tokens || tokens.head?.any (isWordOf ["with", "explain", "alter"])
  !tokens.contains .refused && !isOpenTrigger tokens &&
    (outside? 0 tokens).any fun clauses => holdsStatements || !runsOn clauses

/-- What the tokens of a statement do. -/
def read? (tokens : List Token) : Option Action :=
  if !isWhole tokens then none
  else match tokens with
  | .word verb :: rest =>
    match String.ofList verb with
    | "create" => readCreate? rest
    | "drop" => readDrop? rest
    | "alter" => readAlter? rest
    | "insert" => readInsert? rest
    | "replace" => readInsert? rest
    | "update" => readUpdate? rest
    | "delete" => readDelete? rest
    | "begin" =>
      begin.alone (skipTransaction
        (if rest.head?.any (isWordOf ["deferred", "immediate", "exclusive"]) then rest.tail else rest))
    | "commit" => commit.alone (skipTransaction rest)
    | "end" => commit.alone (skipTransaction rest)
    | "rollback" => readRollback? rest
    | "savepoint" => do
      let (name, behind) ← readName? rest
      (savepoint name).alone behind
    | "release" => do
      let (name, behind) ← readName? (skip ["savepoint"] rest)
      (release name).alone behind
    | "vacuum" => some vacuum
    | verb => if otherVerbs.contains verb then some other else none
  | _ => none
where
  /-- The words that start statements which do nothing to tables and transactions. -/
  otherVerbs : List String :=
    ["select", "values", "with", "pragma", "analyze", "reindex", "attach", "detach", "explain"]

end Action

end Database

end BulkDml
