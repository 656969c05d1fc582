import BulkDml.CompileError
import BulkDml.Text.Blank

/-! # SQL dialects

Database kinds differ in how identifiers are quoted, how named parameters are introduced and whether
booleans are numbers.  Everything else in the library asks a `Dialect` for these and fixes no quote of
its own.

* `Dialect.resolve`, `Dialect.ofUrl` — the dialect that a connection declares;
* `Dialect.quote` — a name between the dialect's quotes, a closing quote inside it doubled;
* `Dialect.parameterName` — the name of a generated parameter.
-/

namespace BulkDml

/-- The text with every `mark` written twice. -/
def Text.doubling (mark : Char) (text : Text) : Text :=
  text.flatMap fun c => if c = mark then [c, c] else [c]

@[simp] theorem Text.doubling_nil (mark : Char) : Text.doubling mark [] = [] := rfl

@[simp] theorem Text.doubling_cons (mark c : Char) (rest : Text) :
    Text.doubling mark (c :: rest)
      = (if c = mark then [c, c] else [c]) ++ Text.doubling mark rest := rfl

/-- A supported kind of database. -/
inductive Dialect where
  /-- SQL Server: `[name]`, `@parameter`, booleans `1` and `0`. -/
  | sqlServer
  /-- MySQL and MariaDB: names between backticks, `@parameter`. -/
  | mySql
  /-- PostgreSQL: `"name"`, `:parameter`. -/
  | postgreSql
  /-- Oracle: `"name"`, `:parameter`, booleans `1` and `0`. -/
  | oracle
deriving DecidableEq, Repr

namespace Dialect

/-- Every dialect. -/
def all : List Dialect := [sqlServer, mySql, postgreSql, oracle]

/-- The canonical name. -/
def name : Dialect → Text
  | sqlServer => "sqlserver".toList
  | mySql => "mysql".toList
  | postgreSql => "postgresql".toList
  | oracle => "oracle".toList

/-- The names, in lower case, that a connection may declare. -/
def spellings : Dialect → List Text
  | sqlServer => ["sqlserver".toList, "mssql".toList]
  | mySql => ["mysql".toList, "mariadb".toList]
  | postgreSql => ["postgres".toList, "postgresql".toList]
  | oracle => ["oracle".toList]

/-- The dialect that a connection declares, ASCII case and surrounding white space aside. -/
def resolve (declared : Text) : Except CompileError Dialect :=
  match all.find? (·.spellings.contains declared.trim.asciiLower) with
  | some dialect => .ok dialect
  | none => .error (.unsupportedDialect declared)

/-- The dialect that the scheme of a connection URL declares; without a colon, the text is the scheme. -/
def ofUrl (url : Text) : Except CompileError Dialect :=
  match url.splitFirst ':' with
  | some (scheme, _) => resolve scheme
  | none => resolve url

/-- A dialect is found under its canonical name. -/
@[simp] theorem resolve_name (dialect : Dialect) : resolve dialect.name = .ok dialect := by
  cases dialect <;> rfl

/-- The quote that opens an identifier. -/
def openQuote : Dialect → Char
  | sqlServer => '['
  | mySql => '\x60'
  | postgreSql => '"'
  | oracle => '"'

/-- The quote that closes an identifier. -/
def closeQuote : Dialect → Char
  | sqlServer => ']'
  | mySql => '\x60'
  | postgreSql => '"'
  | oracle => '"'

/-- The character that introduces a named parameter. -/
def marker : Dialect → Char
  | sqlServer => '@'
  | mySql => '@'
  | postgreSql => ':'
  | oracle => ':'

/-- Whether booleans are written as numbers. -/
def numericBooleans : Dialect → Bool
  | sqlServer => true
  | mySql => false
  | postgreSql => false
  | oracle => true

/-- A name between the dialect's quotes, with every closing quote inside it doubled. -/
def quote (dialect : Dialect) (name : Text) : Text :=
  dialect.openQuote :: name.doubling dialect.closeQuote ++ [dialect.closeQuote]

/-- The spelling of a boolean. -/
def booleanLiteral (dialect : Dialect) (value : Bool) : Text :=
  match dialect.numericBooleans, value with
  | true, true => "1".toList
  | true, false => "0".toList
  | false, true => "TRUE".toList
  | false, false => "FALSE".toList

/-- The name of the parameter with the given ordinal that holds a value of `column`. -/
def parameterName (dialect : Dialect) (column : Text) (ordinal : Nat) : Text :=
  dialect.marker :: column ++ "_P".toList ++ Text.ofNat ordinal

example : quote sqlServer ['a', ']', 'b'] = ['[', 'a', ']', ']', 'b', ']'] := by decide

end Dialect

end BulkDml
