import BulkDml.Text

/-! # The arguments of a command line

Arguments are flags, options with a value, and operands.  `readArguments` tells them apart: a flag or an
option is written `--name` or as a letter behind one hyphen, several letters may share the hyphen, and a
value is the next argument or is attached, as in `--name=value`, `-nvalue` and `-n=value`.  After the
argument `--` there are only operands.
-/

namespace BulkDml

/-- How a flag or an option is written. -/
structure OptionForm where
  /-- The name behind two hyphens. -/
  long : Text
  /-- The letter behind one hyphen, if there is one. -/
  letter : Option Char

/-- The flags and options that a command line may have. -/
structure OptionTable (flag setting : Type) where
  /-- What takes no value. -/
  flags : List (OptionForm × flag)
  /-- What takes a value. -/
  settings : List (OptionForm × setting)

/-- A part of a command line. -/
inductive Argument (flag setting : Type) where
  /-- A flag. -/
  | flag (key : flag)
  /-- An option and its value. -/
  | setting (key : setting) (value : Text)
  /-- An operand, with the arguments behind it. -/
  | operand (text : Text) (behind : List Text)
  /-- The argument after which there are only operands. -/
  | separator
  /-- An unknown option, an option without its value, or a value where none belongs. -/
  | refused

section Reading

variable {flag setting : Type}

namespace OptionTable

/-- The entry that is written in a way that satisfies a condition. -/
def entry? {key : Type} (matching : OptionForm → Bool) (entries : List (OptionForm × key)) : Option key :=
  (entries.find? fun (form, _) => matching form).map (·.2)

/-- The parts of an argument behind two hyphens, and the option that still waits for its value. -/
def readLong (table : OptionTable flag setting) (argument : Text) :
    List (Argument flag setting) × Option setting :=
  let (name, attached) := match argument.splitFirst '=' with
    | some (name, value) => (name, some value)
    | none => (argument, none)
  match entry? (·.long == name) table.flags, entry? (·.long == name) table.settings, attached with
  | some key, _, none => ([.flag key], none)
  | none, some key, some value => ([.setting key value], none)
  | none, some key, none => ([], some key)
  | _, _, _ => ([.refused], none)

/-- The parts of an argument behind one hyphen, and the option that still waits for its value. -/
def readLetters (table : OptionTable flag setting) :
    Text → List (Argument flag setting) × Option setting
  | [] => ([], none)
  | c :: rest =>
    match entry? (·.letter == some c) table.flags, entry? (·.letter == some c) table.settings with
    | some key, _ =>
      let (parts, waiting) := table.readLetters rest
      (.flag key :: parts, waiting)
    | none, some key =>
      match rest with
      | [] => ([], some key)
      | '=' :: value => ([.setting key value], none)
      | value => ([.setting key value], none)
    | none, none => ([.refused], none)

end OptionTable

/-- The operands that arguments are after the separator. -/
def operandsOf : List Text → List (Argument flag setting)
  | [] => []
  | argument :: rest => .operand argument rest :: operandsOf rest

/-- Whether an argument starts like an option; a hyphen by itself does not. -/
def startsOption : Text → Bool
  | '-' :: _ :: _ => true
  | _ => false

/-- The parts of a command line, in order, where `waiting` is an option that waits for its value. -/
def readArgumentsAfter (table : OptionTable flag setting) :
    Option setting → List Text → List (Argument flag setting)
  | none, [] => []
  | some _, [] => [.refused]
  | some key, argument :: rest =>
    if startsOption argument then [.refused]
    else .setting key argument :: readArgumentsAfter table none rest
  | none, argument :: rest =>
    match argument with
    | ['-', '-'] => .separator :: operandsOf rest
    | '-' :: '-' :: long =>
      let (parts, waiting) := table.readLong long
      parts ++ readArgumentsAfter table waiting rest
    | '-' :: letter :: letters =>
      let (parts, waiting) := table.readLetters (letter :: letters)
      parts ++ readArgumentsAfter table waiting rest
    | operand => .operand operand rest :: readArgumentsAfter table none rest

/-- The parts of a command line, in order. -/
def readArguments (table : OptionTable flag setting) (arguments : List Text) :
    List (Argument flag setting) := readArgumentsAfter table none arguments

end Reading

end BulkDml
