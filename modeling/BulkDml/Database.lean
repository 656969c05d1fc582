import BulkDml.Database.Action
import BulkDml.Session
import BulkDml.Text.Blank

/-! # The database behind a session

A database starts without tables.  A statement is carried out if it is put together well and the tables
that it needs are there, which the statements in front of it can see to.  Nothing more is known of tables
than their names and, often, those of their columns.

* `Database.offers` — the connections that can be opened;
* `Database.perform?`, `Database.run` — what an action and the statements of a text make of a database;
* `Database.transaction` — the events of a transaction, with the outcomes that the database gives them.
-/

namespace BulkDml

/-- A table of a database. -/
structure Database.Table where
  /-- Where the table is kept. -/
  schema : Database.Schema
  /-- The name, in lower case. -/
  name : Text
  /-- The columns, in lower case, if they are known. -/
  columns : Option (List Text)
deriving DecidableEq

/-- A point that a database can go back to. -/
structure Database.Point where
  /-- The name of a savepoint; the start of a transaction has none. -/
  name : Option Text
  /-- The tables that there were. -/
  tables : List Database.Table
deriving DecidableEq

/-- The state of a database. -/
structure Database where
  /-- The tables. -/
  tables : List Database.Table := []
  /-- The points that the open transaction can go back to, last first; without one, none is open. -/
  points : List Database.Point := []
deriving DecidableEq

namespace Database

/-! ## Connections -/

/-- The ways in which the URL of a database may start. -/
def schemes : List Text := ["sqlite://".toList, "sqlite:".toList]

/-- The names of databases that need no file. -/
def fileless : List Text := [[], ":memory:".toList]

/-- The settings behind the name of a database that let it be opened although its file is missing. -/
def creating : List Text := ["mode=rwc".toList, "mode=memory".toList]

/-- The other settings of a database that can be written to. -/
def harmless : List Text := ["mode=rw".toList, "cache=shared".toList, "cache=private".toList]

/-- Whether up to `connections` connections to the database of a URL can be opened.  There are no files of
databases yet. -/
def offers (url : Text) (connections : Nat) : Bool :=
  let place := (schemes.findSome? (Text.after? · url)).getD url
  let (name, listed) := (place.splitFirst '?').getD (place, [])
  let settings := (listed.splitAll '&').filter (!·.isEmpty)
  0 < connections && settings.all (fun setting => creating.contains setting || harmless.contains setting)
    && (fileless.contains name || settings.any creating.contains)

/-! ## Actions -/

/-- Whether a transaction is open. -/
def inTransaction (database : Database) : Bool := !database.points.isEmpty

/-- A database without tables in which a transaction has been opened. -/
def opened : Database where
  points := [⟨none, []⟩]

/-- The table of a name in a schema. -/
def tableIn? (database : Database) (schema : Schema) (name : Text) : Option Table :=
  database.tables.find? fun table => table.schema == schema && table.name == name

/-- The table that a statement names.  Without a schema, those of the connection come first. -/
def find? (database : Database) (table : TableName) : Option Table :=
  match table.schema with
  | some schema => database.tableIn? schema table.name
  | none => database.tableIn? .temp table.name <|> database.tableIn? .main table.name

/-- How the names start that the database keeps for itself. -/
def keptLead : Text := "sqlite_".toList

/-- The database with one more table, whose name must be free. -/
def add? (database : Database) (table : Table) : Option Database :=
  if (database.tableIn? table.schema table.name).isSome || (keptLead.after? table.name).isSome then none
  else some { database with tables := table :: database.tables }

/-- A table that was added is found. -/
theorem tableIn?_of_add? {database next : Database} {table : Table} (h : database.add? table = some next) :
    next.tableIn? table.schema table.name = some table := by
  unfold add? at h
  split at h
  · cases h
  · cases h; simp [tableIn?]

/-- The database without one of its tables. -/
def remove (database : Database) (table : Table) : Database :=
  { database with tables := database.tables.erase table }

/-- Whether a table has a column, as far as that is known. -/
def Table.hasColumn (table : Table) (column : Text) : Bool := table.columns.all (·.contains column)

/-- The points from the last savepoint of a name on, that savepoint first. -/
def pointsFrom (database : Database) (name : Text) : List Point :=
  database.points.dropWhile (·.name != some name)

/-- What an action makes of a database, unless it cannot be carried out. -/
def perform? (database : Database) : Action → Option Database
  | .create table columns unlessPresent =>
    let schema := table.schema.getD .main
    if unlessPresent && (database.tableIn? schema table.name).isSome then some database
    else database.add? ⟨schema, table.name, columns⟩
  | .drop table unlessMissing =>
    match database.find? table with
    | some found => some (database.remove found)
    | none => if unlessMissing then some database else none
  | .rename table name => do
    let found ← database.find? table
    return (← database.add? { found with name := name }).remove found
  | .alter table => do
    let found ← database.find? table
    (database.remove found).add? { found with columns := none }
  | .change table columns => do
    let found ← database.find? table
    if columns.all found.hasColumn then return database else none
  | .begin =>
    if database.inTransaction then none else some { database with points := [⟨none, database.tables⟩] }
  | .commit => if database.inTransaction then some { database with points := [] } else none
  | .rollback => database.points.getLast?.map fun start => { tables := start.tables, points := [] }
  | .savepoint name => some { database with points := ⟨some name, database.tables⟩ :: database.points }
  | .release name =>
    match database.pointsFrom name with
    | [] => none
    | _ :: older => some { database with points := older }
  | .rollbackTo name =>
    match database.pointsFrom name with
    | [] => none
    | point :: older => some { tables := point.tables, points := point :: older }
  | .vacuum => if database.inTransaction then none else some database
  | .other => some database

/-- What statements make of a database, and whether all of them are carried out.  None is tried after the
first that is not. -/
def runAll (database : Database) : List (List Token) → Database × Bool
  | [] => (database, true)
  | statement :: rest =>
    match (Action.read? statement).bind database.perform? with
    | some next => runAll next rest
    | none => (database, false)

@[simp] theorem runAll_nil (database : Database) : database.runAll [] = (database, true) := rfl

/-- Statements behind others see what these have made of the database. -/
theorem runAll_append {database next : Database} {before : List (List Token)}
    (h : database.runAll before = (next, true)) (behind : List (List Token)) :
    database.runAll (before ++ behind) = next.runAll behind := by
  fun_induction runAll database before with
  | case1 => cases h; rfl
  | case2 database statement rest reached hreached ih =>
    rw [List.cons_append, runAll, hreached]
    exact ih h
  | case3 => cases h

/-- What the statements of a text make of a database, and whether all of them are carried out. -/
def run (database : Database) (sql : Text) : Database × Bool := database.runAll (statements sql.trim)

/-! ## Transactions -/

/-- The events that are left of a transaction that was opened in a session, and whether the database carries
them out.  A transaction that one of its commands has ended already cannot be ended again. -/
def eventsFrom (session : Session) (ending : Ending) : Database → List Command → List (Event × Bool)
  | database, [] => [(.finish session.transactions.length ending, database.inTransaction)]
  | database, command :: rest =>
    let (next, done) := database.run (session.sent command).sql
    (.command, done) :: eventsFrom session ending next rest

/-- The events of a transaction in which a session sends commands, and whether the database carries them
out. -/
def transaction (session : Session) (commands : List Command) (ending : Ending) : List (Event × Bool) :=
  (.begin, true) :: eventsFrom session ending opened commands

/-- Besides the commands, there are the start and the end of the transaction. -/
theorem length_transaction (session : Session) (commands : List Command) (ending : Ending) :
    (transaction session commands ending).length = commands.length + 2 := by
  have hevents (database : Database) :
      (eventsFrom session ending database commands).length = commands.length + 1 := by
    induction commands generalizing database with
    | nil => rfl
    | cons command rest ih => simp [eventsFrom, ih]
  simp [transaction, hevents]

end Database

end BulkDml
