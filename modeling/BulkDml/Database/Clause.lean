import BulkDml.Database.Token

/-! # Clauses of the database's SQL

What statements are put together from: words, names, parentheses, and the few kinds of clauses that tell
which tables and columns a statement needs.  Nothing is read more closely than that, and whatever the
reading of a clause leaves behind is read on by the statement.

* `TableName`, `readName?`, `readTable?` — names, and tables as statements name them;
* `outside?`, `untilClosed?`, `items` — what parentheses and commas keep apart;
* `readColumns?` — the columns that the declaration of a table defines;
* `columnsOf`, `assignedColumns` — the columns that conditions and assignments need.
-/

namespace BulkDml

namespace Database

/-! ## Words -/

/-- The words that name nothing unless they are quoted. -/
def reservedWords : List String :=
  ["add", "all", "alter", "and", "as", "autoincrement", "between", "case", "check", "collate", "commit",
   "constraint", "create", "default", "deferrable", "delete", "distinct", "drop", "else", "escape",
   "except", "exists", "foreign", "from", "group", "having", "in", "index", "insert", "intersect", "into",
   "is", "isnull", "join", "limit", "not", "nothing", "notnull", "null", "on", "or", "order", "primary",
   "references", "returning", "select", "set", "table", "then", "to", "transaction", "union", "unique",
   "update", "using", "values", "when", "where"]

/-- The reserved words that conditions are made up with, and the one for the clause behind them. -/
def conditionWords : List String :=
  ["and", "as", "between", "case", "collate", "distinct", "else", "escape", "exists", "from", "in", "is",
   "isnull", "not", "notnull", "null", "or", "returning", "then", "when"]

/-- The names by which every table knows its rows. -/
def rowNames : List String := ["oid", "rowid", "_rowid_"]

/-- The other words of conditions that name no column. -/
def operandWords : List String :=
  ["current_date", "current_time", "current_timestamp", "end", "false", "glob", "like", "match", "regexp",
   "true"]

/-- The words of conditions in which names may stand for more than the columns of a table. -/
def scopeWords : List String := ["as", "from", "join", "select", "values", "with"]

/-- The words that start the constraints of a table. -/
def constraintWords : List String := ["check", "constraint", "foreign", "primary", "unique"]

/-- Whether a token is one of the given words. -/
def isWordOf (words : List String) : Token → Bool
  | .word text => words.contains (String.ofList text)
  | _ => false

/-- What follows the given words. -/
def after? : List String → List Token → Option (List Token)
  | [], tokens => some tokens
  | word :: words, token :: tokens => if isWordOf [word] token then after? words tokens else none
  | _ :: _, [] => none

/-- What follows the given words if they come first, and all tokens otherwise. -/
def skip (words : List String) (tokens : List Token) : List Token := (after? words tokens).getD tokens

/-! ## Names -/

/-- Where a table is kept. -/
inductive Schema where
  /-- With the database. -/
  | main
  /-- With the connection. -/
  | temp
deriving DecidableEq

/-- A table as a statement names it. -/
structure TableName where
  /-- Where it is kept, if the statement says so. -/
  schema : Option Schema
  /-- The name. -/
  name : Text
deriving DecidableEq

/-- The name that comes first, and what follows it. -/
def readName? : List Token → Option (Text × List Token)
  | .word text :: rest => if isWordOf reservedWords (.word text) then none else some (text, rest)
  | .name text :: rest | .literal text :: rest => some (text, rest)
  | _ => none

/-- What follows the name that comes first, if one does, and all tokens otherwise. -/
def skipName (tokens : List Token) : List Token := (readName? tokens).elim tokens (·.2)

/-- The schema of the given name. -/
def Schema.ofName? (name : Text) : Option Schema :=
  if name = "main".toList then some .main else if name = "temp".toList then some .temp else none

/-- The table that is named first, and what follows its name. -/
def readTable? (tokens : List Token) : Option (TableName × List Token) := do
  let (first, rest) ← readName? tokens
  match rest with
  | .mark '.' :: inner =>
    let schema ← Schema.ofName? first
    let (name, behind) ← readName? inner
    return (⟨some schema, name⟩, behind)
  | _ => return (⟨none, first⟩, rest)

/-- Whether a proviso with the given last words comes first, and what follows it.  The word `if` starts
nothing else here. -/
def readProviso? (words : List String) : List Token → Option (Bool × List Token)
  | tokens@(token :: rest) =>
    if isWordOf ["if"] token then (after? words rest).map (true, ·) else some (false, tokens)
  | [] => some (false, [])

/-! ## Parentheses -/

/-- The tokens outside of all parentheses, which have to be paired; `depth` of them are open. -/
def outside? : Nat → List Token → Option (List Token)
  | 0, [] => some []
  | _ + 1, [] => none
  | depth, .mark '(' :: rest => outside? (depth + 1) rest
  | 0, .mark ')' :: _ => none
  | depth + 1, .mark ')' :: rest => outside? depth rest
  | 0, token :: rest => (outside? 0 rest).map (token :: ·)
  | depth + 1, _ :: rest => outside? (depth + 1) rest

/-- The tokens up to the parenthesis that closes the one in front of them, and what follows it; `depth` more
are open. -/
def untilClosed? : Nat → List Token → Option (List Token × List Token)
  | _, [] => none
  | 0, .mark ')' :: rest => some ([], rest)
  | depth, token :: rest =>
    let inner := if token = .mark '(' then depth + 1 else if token = .mark ')' then depth - 1 else depth
    (untilClosed? inner rest).map fun (inside, behind) => (token :: inside, behind)

/-- The tokens between neighbouring commas. -/
def items : List Token → List (List Token)
  | [] => [[]]
  | token :: rest =>
    if token = .mark ',' then [] :: items rest
    else match items rest with
      | [] => [[token]]
      | item :: more => (token :: item) :: more

/-! ## Clauses -/

/-- The columns that tokens define, in parentheses or by a query, which does not tell them. -/
def readColumns? : List Token → Option (Option (List Text))
  | .mark '(' :: tokens => do
    let (definitions, options) ← untilClosed? 0 tokens
    let parts := items (← outside? 0 definitions)
    let columns ← (parts.takeWhile fun part => !part.head?.any (isWordOf constraintWords)).mapM
      fun part => (readName? part).map (·.1)
    let isOption := fun token => isWordOf ["without", "rowid", "strict"] token || token == .mark ','
    if columns.isEmpty || columns.eraseDups.length < columns.length || !options.all isOption then none
    else return some columns
  | token :: query =>
    if isWordOf ["as"] token && query.head?.any (isWordOf ["select", "values", "with"]) then some none
    else none
  | [] => none

/-- Whether tokens can follow the table that rows are added to. -/
def givesRows : List Token → Bool
  | .mark '(' :: _ => true
  | tokens => tokens.head?.any (isWordOf ["as", "default", "select", "values", "with"])

/-- Whether tokens can follow the word that starts a condition, apart from the given words. -/
def isCondition (further : List String) (tokens : List Token) : Bool :=
  !tokens.isEmpty && (outside? 0 tokens).any (·.all fun token =>
    !isWordOf reservedWords token || isWordOf conditionWords token || isWordOf further token)

/-- The column that a token names, if it can name nothing else. -/
def columnName? : Token → Option Text
  | .word text =>
    if isWordOf (reservedWords ++ operandWords ++ rowNames) (.word text) then none else some text
  | .name text => some text
  | _ => none

/-- The names of columns in a condition behind the token `before`.  A name in front of a parenthesis is that
of a function, and one with a point beside it tells its table. -/
def columnsAfter (before : Token) : List Token → List Text
  | [] => []
  | token :: rest =>
    let apart := before == .mark '.' || isWordOf ["collate"] before
      || rest.head?.any fun next => next == .mark '.' || next == .mark '('
    (if apart then [] else (columnName? token).toList) ++ columnsAfter token rest

/-- The columns that a condition needs, as far as that can be told. -/
def columnsOf (tokens : List Token) : List Text :=
  if tokens.any (isWordOf scopeWords) then [] else columnsAfter (.mark '(') tokens

/-- The columns that assignments are to. -/
def assignedColumns (tokens : List Token) : List Text :=
  let assignments := ((outside? 0 tokens).getD []).takeWhile (!isWordOf ["from", "returning", "where"] ·)
  let targets := (items assignments).filterMap fun item => (readName? item).map (·.1)
  targets.filter fun target => !isWordOf rowNames (.word target)

/-- What follows the other name of a table and what tells which index to use. -/
def skipHints (tokens : List Token) : List Token :=
  let behindName := match after? ["as"] tokens with
    | some rest => skipName rest
    | none => tokens
  skip ["not", "indexed"] behindName

/-- What follows the word that tells what to do about conflicts. -/
def skipConflict (tokens : List Token) : List Token :=
  match after? ["or"] tokens with
  | some (_ :: rest) => rest
  | _ => tokens

/-- What follows the optional word for a transaction and its name. -/
def skipTransaction (tokens : List Token) : List Token :=
  match after? ["transaction"] tokens with
  | some rest => skipName rest
  | none => tokens

/-- Whether a second statement comes without a semicolon in front of it; what to do about a conflict is
none. -/
def runsOn : List Token → Bool
  | first :: second :: rest =>
    (isWordOf ["delete", "update"] second && !isWordOf ["do"] first) || runsOn (second :: rest)
  | _ => false

end Database

end BulkDml
