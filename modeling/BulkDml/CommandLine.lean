import BulkDml.CommandLine.Arguments
import BulkDml.Database
import BulkDml.Failure
import BulkDml.Request.Json

/-! # The command line

The program compiles a request, carries out the sharding pragma of SQL text, or runs a request against a
database.  What a command line asks for is read by `Directive.read`; an `Invocation` needs one input, the
text of its file or the standard input, and `Invocation.outcome` is what comes of it.

* `Directive.read` — what the arguments ask for, environment variables filling in what they leave open;
* `Invocation.source` — where the input comes from;
* `Invocation.outcome`, `Outcome.exitCode`, `Outcome.output` — what is printed, and the exit code.
-/

namespace BulkDml

/-! ## Invocations -/

/-- What an invocation is to do. -/
inductive Task where
  /-- Print the statement of the request in a file. -/
  | compile (file : Text)
  /-- Carry out the sharding pragma of SQL text. -/
  | reroute
  /-- Run the request in a file, with the given route instead of its own; a dry run is rolled back. -/
  | run (file : Text) (route : Option Text) (dryRun : Bool)
deriving DecidableEq

/-- A task and the settings that it is done with. -/
structure Invocation where
  /-- The URL of the database. -/
  database : Text
  /-- The tag of sharding pragmas. -/
  shardTag : Text
  /-- How many connections may be open at once. -/
  maxConnections : Nat
  /-- The task. -/
  task : Task
deriving DecidableEq

/-- What a command line asks for. -/
inductive Directive where
  /-- To be told how command lines are written. -/
  | help
  /-- To be told the version. -/
  | version
  /-- To do a task. -/
  | invoke (invocation : Invocation)
  /-- Nothing that makes sense. -/
  | misuse
deriving DecidableEq

/-! ## Reading command lines -/

/-- The flags in front of a task. -/
inductive GlobalFlag where
  /-- Log more. -/
  | verbose
  /-- Print the help text. -/
  | help
  /-- Print the version. -/
  | version

/-- The settings in front of a task. -/
inductive GlobalSetting where
  /-- The URL of the database. -/
  | database
  /-- The tag of sharding pragmas. -/
  | shardTag
  /-- How many connections may be open at once. -/
  | maxConnections

/-- The flags and settings in front of a task. -/
def globalTable : OptionTable GlobalFlag GlobalSetting where
  flags :=
    [(⟨"verbose".toList, some 'v'⟩, .verbose),
     (⟨"help".toList, some 'h'⟩, .help),
     (⟨"version".toList, some 'V'⟩, .version)]
  settings :=
    [(⟨"database".toList, some 'd'⟩, .database),
     (⟨"shard-tag".toList, none⟩, .shardTag),
     (⟨"max-connections".toList, none⟩, .maxConnections)]

/-- The flags behind a task. -/
inductive TaskFlag where
  /-- Roll back what was done. -/
  | dryRun
  /-- Print the help text. -/
  | help
deriving DecidableEq

/-- The settings behind a task. -/
inductive TaskSetting where
  /-- The route to use. -/
  | shard

/-- The flags and settings behind a task that takes none but the one for help. -/
def plainTable : OptionTable TaskFlag TaskSetting where
  flags := [(⟨"help".toList, some 'h'⟩, .help)]
  settings := []

/-- The flags and settings behind the task of running a request. -/
def runTable : OptionTable TaskFlag TaskSetting where
  flags := [(⟨"dry-run".toList, none⟩, .dryRun), (⟨"help".toList, some 'h'⟩, .help)]
  settings := [(⟨"shard".toList, some 's'⟩, .shard)]

/-- The arguments of a task, as far as they are read. -/
structure TaskArguments where
  /-- The file. -/
  file : Option Text := none
  /-- The route. -/
  route : Option Text := none
  /-- Whether to roll back. -/
  dryRun : Bool := false

/-- The arguments of a task, unless they ask for help or make no sense.  The only operand is the name of a
file, if the task takes one, and must not be empty.  Nothing may be given twice, and what comes first
decides. -/
def TaskArguments.collect (takesFile : Bool) (found : TaskArguments) :
    List (Argument TaskFlag TaskSetting) → Except Directive TaskArguments
  | [] => .ok found
  | .flag .help :: _ => .error .help
  | .flag .dryRun :: rest =>
    if found.dryRun then .error .misuse else collect takesFile { found with dryRun := true } rest
  | .setting .shard route :: rest =>
    if found.route.isSome then .error .misuse
    else collect takesFile { found with route := some route } rest
  | .operand text _ :: rest =>
    if !takesFile || found.file.isSome || text.isEmpty then .error .misuse
    else collect takesFile { found with file := some text } rest
  | .separator :: rest => collect takesFile found rest
  | .refused :: _ => .error .misuse

/-- The file, which a task that takes one needs. -/
def TaskArguments.requiredFile (found : TaskArguments) : Except Directive Text :=
  match found.file with
  | some file => .ok file
  | none => .error .misuse

/-- The names that may stand in the place of a task's. -/
def taskNames : List Text := ["compile".toList, "rewrite".toList, "run".toList, "help".toList]

/-- Whether arguments are something that help can be asked for: everything, or one task. -/
def isHelpTopic : List Text → Bool
  | [] => true
  | [name] => taskNames.contains name
  | _ => false

/-- The task with the given name and arguments. -/
def Task.read (name : Text) (arguments : List Text) : Except Directive Task :=
  if name = "compile".toList then do
    let found ← TaskArguments.collect true {} (readArguments plainTable arguments)
    return .compile (← found.requiredFile)
  else if name = "rewrite".toList then do
    let _ ← TaskArguments.collect false {} (readArguments plainTable arguments)
    return .reroute
  else if name = "run".toList then do
    let found ← TaskArguments.collect true {} (readArguments runTable arguments)
    return .run (← found.requiredFile) found.route found.dryRun
  else if name = "help".toList && isHelpTopic arguments then .error .help
  else .error .misuse

/-- A number of connections: an integer that fits 32 bits without a sign. -/
def readConnections? (text : Text) : Option Nat :=
  match text.toInt? with
  | some (.ofNat n) => if n < 0x100000000 then some n else none
  | _ => none

/-- The settings in front of a task, as far as they are read. -/
structure GlobalArguments where
  /-- The URL of the database. -/
  database : Option Text := none
  /-- The tag of sharding pragmas. -/
  shardTag : Option Text := none
  /-- How many connections may be open at once. -/
  maxConnections : Option Nat := none
  /-- Whether to log more. -/
  verbose : Bool := false

/-- The settings with one more, which must not be there already. -/
def GlobalArguments.add? (found : GlobalArguments) (key : GlobalSetting) (value : Text) :
    Option GlobalArguments :=
  match key with
  | .database => if found.database.isSome then none else some { found with database := some value }
  | .shardTag => if found.shardTag.isSome then none else some { found with shardTag := some value }
  | .maxConnections => do
    let connections ← readConnections? value
    if found.maxConnections.isSome then none
    else some { found with maxConnections := some connections }

/-- The environment variable with the URL of the database. -/
def databaseVariable : Text := "DATABASE_URL".toList

/-- The environment variable with the tag of sharding pragmas. -/
def shardTagVariable : Text := "OXIDE_BULK_SHARD_TAG".toList

/-- The invocation of a task.  A setting that the arguments leave open is taken from its environment
variable, if it has one. -/
def GlobalArguments.invocation (found : GlobalArguments) (environment : Text → Option Text)
    (task : Task) : Invocation where
  database := (found.database <|> environment databaseVariable).getD "sqlite::memory:".toList
  shardTag := (found.shardTag <|> environment shardTagVariable).getD defaultShardTag
  maxConnections := found.maxConnections.getD 5
  task := task

/-- What the parts of a command line ask for: settings, then the name of a task with its arguments. -/
def GlobalArguments.directive (environment : Text → Option Text) (found : GlobalArguments) :
    List (Argument GlobalFlag GlobalSetting) → Directive
  | [] => .misuse
  | .flag .help :: _ => .help
  | .flag .version :: _ => .version
  | .flag .verbose :: rest =>
    if found.verbose then .misuse else directive environment { found with verbose := true } rest
  | .setting key value :: rest =>
    match found.add? key value with
    | some more => directive environment more rest
    | none => .misuse
  | .operand name behind :: _ =>
    match Task.read name behind with
    | .ok task => .invoke (found.invocation environment task)
    | .error directive => directive
  | .separator :: _ => .misuse
  | .refused :: _ => .misuse

/-- What a command line asks for. -/
def Directive.read (environment : Text → Option Text) (arguments : List Text) : Directive :=
  GlobalArguments.directive environment {} (readArguments globalTable arguments)

/-! ## Carrying out an invocation -/

/-- What comes of a command line. -/
inductive Outcome where
  /-- A text is printed. -/
  | printed (text : Text)
  /-- Something went wrong. -/
  | failed (failure : Failure)
  /-- The command line makes no sense. -/
  | misused

namespace Outcome

/-- The exit code: zero for success. -/
def exitCode : Outcome → UInt32
  | printed _ => 0
  | failed _ => 1
  | misused => 2

/-- What is written to the standard output. -/
def output : Outcome → Text
  | printed text => text
  | failed _ | misused => []

/-- What went wrong, over several lines. -/
def report? : Outcome → Option Text
  | failed failure => some failure.report
  | printed _ | misused => none

end Outcome

/-- The version, as it is printed. -/
def versionLine : Text := "oxide-bulk 0.1.0\n".toList

/-- How command lines are written. -/
def helpText : Text :=
  "Bulk UPDATE/DELETE from ORM queries

Usage: oxide-bulk [OPTIONS] <COMMAND>

Commands:
  compile FILE                                Print the SQL and parameters a request compiles to
  rewrite                                     Apply sharding pragmas to SQL read from stdin
  run FILE [--shard OLD:NEW] [--dry-run]      Compile a request and execute it

Options:
  -d, --database <DATABASE>                   Database URL
      --shard-tag <SHARD_TAG>                 Tag of sharding pragmas
      --max-connections <MAX_CONNECTIONS>     Maximum pool size
  -v, --verbose                               Enable verbose output
  -h, --help                                  Print help
  -V, --version                               Print version
".toList

/-- The document of counters. -/
def Counters.toJson (counters : Counters) : Json :=
  .ofFields
    [("connects", .ofInt counters.connects),
     ("disconnects", .ofInt counters.disconnects),
     ("commands", .ofInt counters.commands),
     ("transactions_begun", .ofInt counters.begun),
     ("transactions_committed", .ofInt counters.committed),
     ("transactions_rolled_back", .ofInt counters.rolledBack)]

/-- The request that the text of a file writes, `none` being a file that cannot be read. -/
def requestOf (content : Option Text) : Except Failure Request :=
  match content with
  | none => .error .io
  | some text =>
    match Request.read? text with
    | none => .error .serialization
    | some request => .ok request

/-- The statement of a request. -/
def statementOf (tag : Text) (request : Request) : Except Failure Statement :=
  match request.compile tag with
  | .ok statement => .ok statement
  | .error error => .error (.compile error)

/-- A request with the given route instead of its own, if one is given. -/
def Request.withRoute (request : Request) : Option Text → Except Failure Request
  | none => .ok request
  | some text =>
    match Route.parse? text with
    | none => .error (.invalidRoute text)
    | some route => .ok { request with shard := some route }

/-- The counters of a session that runs one statement in a transaction of its own, before the connection
is closed. -/
def runStatement (invocation : Invocation) (request : Request) (ending : Ending) (statement : Statement) :
    Except Failure Counters :=
  let session := Session.connect invocation.shardTag
  let events := Database.transaction session [.execute statement request.bindings] ending
  if Database.offers invocation.database invocation.maxConnections && events.all (·.2) then
    .ok (session.run events).counters
  else .error .database

namespace Invocation

/-- Where the input of an invocation comes from: a file, or else the standard input. -/
def source (invocation : Invocation) : Option Text :=
  match invocation.task with
  | .compile file => some file
  | .reroute => none
  | .run file _ _ => some file

/-- What an invocation prints, given its input. -/
def print (invocation : Invocation) (content : Option Text) : Except Failure Text :=
  match invocation.task with
  | .compile _ => do
    let request ← requestOf content
    let statement ← statementOf invocation.shardTag request
    return statement.toJson.pretty ++ ['\n']
  | .reroute =>
    match content with
    | none => .error .io
    | some sql => .ok (BulkDml.reroute invocation.shardTag sql)
  | .run _ route dryRun => do
    let request ← (← requestOf content).withRoute route
    let statement ← statementOf invocation.shardTag request
    let counters ← runStatement invocation request (if dryRun then .rollback else .commit) statement
    return counters.toJson.pretty ++ ['\n']

/-- What comes of an invocation, given its input. -/
def outcome (invocation : Invocation) (content : Option Text) : Outcome :=
  match invocation.print content with
  | .ok text => .printed text
  | .error failure => .failed failure

end Invocation

/-- What comes of a command line, given the input of its invocation. -/
def Directive.outcome (content : Invocation → Option Text) : Directive → Outcome
  | help => .printed helpText
  | version => .printed versionLine
  | invoke invocation => invocation.outcome (content invocation)
  | misuse => .misused

end BulkDml
