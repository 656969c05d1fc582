import BulkDml.Placeholder
import BulkDml.Statement

/-! # Sessions

A session sends commands to a database.  Every command is first rerouted for the session's shard tags
and has its named parameters turned into positions; the session counts what it does.

* `Counters` — what is counted;
* `Command` — what is sent;
* `Guard` — what keeps account of an open transaction;
* `Session.prepare`, `Session.sent` — the text and values that are sent for SQL text and for a command;
* `Session.step`, `Session.run` — an event and many events of a session, with the outcomes that the
  database gives them.
-/

namespace BulkDml

/-- What a session counts. -/
structure Counters where
  /-- Databases connected to. -/
  connects : Nat := 0
  /-- Databases disconnected from. -/
  disconnects : Nat := 0
  /-- Commands sent, whether or not the database accepted them. -/
  commands : Nat := 0
  /-- Transactions begun. -/
  begun : Nat := 0
  /-- Transactions committed. -/
  committed : Nat := 0
  /-- Transactions rolled back. -/
  rolledBack : Nat := 0
deriving DecidableEq

/-- The parameters of a statement and the values of the placeholders that its source query holds: the
statement's own come first. -/
def mergeBindings (own given : List Binding) : List Binding := own ++ given

/-- What a session is asked to send. -/
inductive Command where
  /-- SQL text as it is. -/
  | raw (sql : Text)
  /-- A statement, with the values of the placeholders in its source query. -/
  | execute (statement : Statement) (given : List Binding)

/-- How an open transaction is ended. -/
inductive Ending where
  /-- By a commit. -/
  | commit
  /-- By a rollback. -/
  | rollback
  /-- By dropping it. -/
  | drop
deriving DecidableEq

/-- What keeps account of an open transaction.  The guard goes when the transaction does, and counts a
rollback then unless it was disarmed. -/
structure Guard where
  /-- Whether the guard still counts. -/
  armed : Bool := true
deriving DecidableEq

namespace Guard

/-- The counters when a guard has gone. -/
def drop (guard : Guard) (counters : Counters) : Counters :=
  if guard.armed then { counters with rolledBack := counters.rolledBack + 1 } else counters

/-- The counters when the transaction of a guard was ended.  A commit that succeeds disarms the guard; the
transaction and its guard go in any case, also if the database does not carry the ending out. -/
def finish (guard : Guard) (ending : Ending) (succeeds : Bool) (counters : Counters) : Counters :=
  match ending, succeeds with
  | .commit, true =>
    { guard with armed := false }.drop { counters with committed := counters.committed + 1 }
  | .commit, false | .rollback, _ | .drop, _ => guard.drop counters

end Guard

/-- What a session is asked to do. -/
inductive Event where
  /-- Open a transaction. -/
  | begin
  /-- Send a command, in a transaction or outside. -/
  | command
  /-- End the open transaction at a position among those that are open. -/
  | finish (position : Nat) (ending : Ending)
  /-- Close the connection. -/
  | close
deriving DecidableEq

/-- A session: the tags that it reroutes for, its counters and its open transactions. -/
structure Session where
  /-- The shard tags that commands are rerouted for, in order. -/
  tags : List Text := []
  /-- What was counted so far. -/
  counters : Counters := {}
  /-- The guards of the open transactions, in the order in which these were begun. -/
  transactions : List Guard := []
deriving DecidableEq

namespace Session

/-- A session that was just connected and reroutes for one tag. -/
def connect (tag : Text) : Session := { tags := [tag], counters := { connects := 1 } }

/-- The session with one more shard tag, behind those that it has. -/
def withTag (tag : Text) (session : Session) : Session :=
  { session with tags := session.tags ++ [tag] }

/-- The text and values that are sent for SQL text with the given parameters. -/
def prepare (session : Session) (sql : Text) (bindings : List Binding) : PositionalQuery :=
  toPositional (rerouteAll session.tags sql) bindings

/-- The text and values that are sent for a command. -/
def sent (session : Session) : Command → PositionalQuery
  | .raw sql => session.prepare sql []
  | .execute statement given =>
    session.prepare statement.sql (mergeBindings statement.parameters given)

/-- One event of a session.  `succeeds` tells whether the database carries it out: a transaction is open
only if its begin succeeds.  There is nothing to end at a position where no transaction is open. -/
def step (session : Session) (event : Event) (succeeds : Bool) : Session :=
  let counters := session.counters
  match event with
  | .begin =>
    if succeeds then
      { session with
        counters := { counters with begun := counters.begun + 1 }
        transactions := session.transactions ++ [{}] }
    else session
  | .command => { session with counters := { counters with commands := counters.commands + 1 } }
  | .finish position ending =>
    match session.transactions[position]? with
    | none => session
    | some guard =>
      { session with
        counters := guard.finish ending succeeds counters
        transactions := session.transactions.eraseIdx position }
  | .close => { session with counters := { counters with disconnects := counters.disconnects + 1 } }

/-- The events of a session, in order, each with its outcome. -/
def run (session : Session) (events : List (Event × Bool)) : Session :=
  events.foldl (fun reached (event, succeeds) => reached.step event succeeds) session

@[simp] theorem run_nil (session : Session) : session.run [] = session := rfl

@[simp] theorem run_cons (session : Session) (event : Event) (succeeds : Bool)
    (rest : List (Event × Bool)) :
    session.run ((event, succeeds) :: rest) = (session.step event succeeds).run rest := rfl

end Session

end BulkDml
