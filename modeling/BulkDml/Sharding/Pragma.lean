import BulkDml.Sharding.Renaming

/-! # Sharding pragmas

A routing decision travels as the first line of the command text:

```text
-- SHARD:orders_2023:orders_2024
SELECT * FROM orders_2023
```

`Pragma.line` and `Pragma.attach` write such a line, `Pragma.parse?` reads it, and `reroute` carries it
out: it takes the line off and renames the table in the rest.
-/

namespace BulkDml

/-- The tag of pragmas where none is configured. -/
def defaultShardTag : Text := "SHARD".toList

/-- An instruction to use a physical table in the place of a logical one. -/
structure Pragma where
  /-- The tag that tells whom the instruction is for. -/
  tag : Text
  /-- The table as the command names it. -/
  logical : Text
  /-- The table to use. -/
  physical : Text
deriving DecidableEq

namespace Pragma

/-- How the line of a pragma with the given tag starts. -/
def lead (tag : Text) : Text := "-- ".toList ++ tag ++ [':']

/-- The line of a pragma, without a line break. -/
def line (pragma : Pragma) : Text := lead pragma.tag ++ pragma.logical ++ ':' :: pragma.physical

/-- The command text with the pragma as its first line. -/
def attach (pragma : Pragma) (sql : Text) : Text := pragma.line ++ '\r' :: '\n' :: sql

/-- A line without the line-break characters that it ends in. -/
def dropLineBreak (line : Text) : Text :=
  (line.reverse.dropWhile fun c => c == '\r' || c == '\n').reverse

/-- The pragma with the given tag that a line writes.  Both tables must be named, and a colon can be part
of neither name. -/
def parse? (tag line : Text) : Option Pragma := do
  let fields ← (lead tag).after? (dropLineBreak line)
  let (logical, physical) ← fields.splitFirst ':'
  if logical.isEmpty || physical.isEmpty || physical.contains ':' then none
  else some ⟨tag, logical, physical⟩

end Pragma

/-- The first line of a text, without its line break, and the text behind it. -/
def splitFirstLine (text : Text) : Text × Text := (text.splitFirst '\n').getD (text, [])

/-- Carries out the pragma in the first line of a command.  A command whose first line is no pragma with
the given tag is not touched. -/
def reroute? (tag sql : Text) : Option Text :=
  let (line, body) := splitFirstLine sql
  (Pragma.parse? tag line).map fun pragma => renameTable pragma.logical pragma.physical body

/-- The command text after `reroute?`. -/
def reroute (tag sql : Text) : Text := (reroute? tag sql).getD sql

/-- The command text after it was rerouted for several tags, one after the other. -/
def rerouteAll (tags : List Text) (sql : Text) : Text := tags.foldl (fun text tag => reroute tag text) sql

@[simp] theorem rerouteAll_nil (sql : Text) : rerouteAll [] sql = sql := rfl

@[simp] theorem rerouteAll_cons (tag : Text) (tags : List Text) (sql : Text) :
    rerouteAll (tag :: tags) sql = rerouteAll tags (reroute tag sql) := rfl

end BulkDml
