import BulkDml.CompileError

/-! # What can go wrong with a request

A `Failure` is why a request was not carried out.  `Failure.message` is its wording, `Failure.causes`
what it was caused by, outermost first, and `Failure.report` the two together over several lines.
-/

namespace BulkDml

/-- Why a request was not carried out. -/
inductive Failure where
  /-- Its statement cannot be compiled. -/
  | compile (error : CompileError)
  /-- The database cannot be reached or refuses the statement. -/
  | database
  /-- The file of the request cannot be read. -/
  | io
  /-- The file of the request does not write a request. -/
  | serialization
  /-- The given text is no route. -/
  | invalidRoute (text : Text)
deriving DecidableEq

namespace Failure

/-- The wording of a failure. -/
def message : Failure → Text
  | compile error => "Compile error (".toList ++ error.stage.text ++ "): ".toList ++ error.message
  | database => "Database error".toList
  | io => "IO error".toList
  | serialization => "Serialization error".toList
  | invalidRoute text =>
    "Invalid shard route '".toList ++ text ++ "', expected OLD:NEW".toList

/-- What a failure was caused by, outermost first. -/
def causes : Failure → List Text
  | compile (.malformedQuery cause) => [(CompileError.malformedQuery cause).message, cause.message]
  | compile error => [error.message]
  | _ => []

/-- The lines of a text, each after the first behind the given margin. -/
def hang (margin text : Text) : Text := Text.joinWith ('\n' :: margin) (text.splitAll '\n')

/-- A cause behind its number, counted from zero. -/
def numbered (number : Nat) (cause : Text) : Text :=
  let digits := Text.ofNat number
  List.replicate (5 - digits.length) ' ' ++ digits ++ ": ".toList
    ++ hang (List.replicate 7 ' ') cause

/-- The lines that list causes; they are numbered if there are several. -/
def listing : List Text → List Text
  | [] => []
  | [cause] => ["    ".toList ++ hang (List.replicate 4 ' ') cause]
  | several => several.mapIdx numbered

/-- A failure and its causes over several lines. -/
def report (failure : Failure) : Text :=
  "Error: ".toList ++ failure.message
    ++ (if failure.causes.isEmpty then []
      else "\n\nCaused by:\n".toList ++ Text.joinWith ['\n'] (listing failure.causes))

end Failure

end BulkDml
