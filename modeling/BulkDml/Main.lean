import BulkDml.CommandLine

/-! # The program

The outer layer of the command line: it reads the arguments, the environment and the one input that an
invocation needs, and prints what comes of it.
-/

open BulkDml

/-- Everything that is left of the standard input. -/
partial def readRest (stream : IO.FS.Stream) (before : String) : IO String := do
  let line ← stream.getLine
  if line.isEmpty then return before else readRest stream (before ++ line)

/-- The input of an invocation, `none` if it cannot be read. -/
def readInput (invocation : Invocation) : IO (Option Text) := do
  try
    match invocation.source with
    | some file => return some (← IO.FS.readFile (String.ofList file)).toList
    | none => return some (← readRest (← IO.getStdin) "").toList
  catch _ => return none

/-- The value of an environment variable. -/
def readVariable (name : Text) : IO (Option Text) := do
  return (← IO.getEnv (String.ofList name)).map (·.toList)

/-- Carries out a command line. -/
def main (arguments : List String) : IO UInt32 := do
  let environment ← [databaseVariable, shardTagVariable].mapM fun name => do
    return (name, ← readVariable name)
  let directive := Directive.read (fun name => (environment.lookup name).join) (arguments.map (·.toList))
  let content ← match directive with
    | .invoke invocation => readInput invocation
    | _ => pure none
  let outcome := directive.outcome fun _ => content
  (← IO.getStdout).putStr (String.ofList outcome.output)
  match outcome with
  | .misused => (← IO.getStderr).putStr (String.ofList helpText)
  | _ =>
    if let some report := outcome.report? then
      (← IO.getStderr).putStrLn (String.ofList report)
  return outcome.exitCode
