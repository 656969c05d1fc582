import BulkDml.Number.Numeral

/-! # JSON documents

A `Json` tree is a document as it is written: numbers keep their digits, objects keep the order and the
repetitions of their keys, and a string tells whether its escapes make up whole characters.  Documents
are written on one line by `Json.compact` and over several lines by `Json.pretty`.
-/

namespace BulkDml

/-- A string of a document; `none` if an escape in it writes half of a surrogate pair only. -/
abbrev JsonString : Type := Option Text

/-- A JSON document. -/
inductive Json where
  /-- The word `null`. -/
  | null
  /-- One of the words `true` and `false`. -/
  | bool (value : Bool)
  /-- A number as written. -/
  | number (numeral : Numeral)
  /-- A string. -/
  | string (value : JsonString)
  /-- An array. -/
  | array (items : List Json)
  /-- An object: its keys and values in the order in which they are written. -/
  | object (fields : List (JsonString × Json))

namespace Json

/-! ## Building documents -/

/-- The string of a text. -/
def ofText (text : Text) : Json := string (some text)

/-- The number of an integer. -/
def ofInt (n : Int) : Json := number (Numeral.ofInt n)

/-- The object with the given keys and values. -/
def ofFields (fields : List (String × Json)) : Json :=
  object (fields.map fun (key, value) => (some key.toList, value))

/-! ## Writing documents -/

/-- The lower-case hexadecimal digit of a number below sixteen. -/
def hexDigit (n : Nat) : Char := if n < 10 then Char.ofNat (48 + n) else Char.ofNat (87 + n)

/-- A character inside a string: quotes, backslashes and control characters are escaped. -/
def escape (c : Char) : Text :=
  if c = '"' then ['\\', '"']
  else if c = '\\' then ['\\', '\\']
  else if c = '\x08' then ['\\', 'b']
  else if c = '\x0c' then ['\\', 'f']
  else if c = '\n' then ['\\', 'n']
  else if c = '\r' then ['\\', 'r']
  else if c = '\t' then ['\\', 't']
  else if c.toNat < 32 then
    ['\\', 'u', '0', '0', hexDigit (c.toNat / 16), hexDigit (c.toNat % 16)]
  else [c]

/-- A string between quotes. -/
def quoted (text : Text) : Text := '"' :: text.flatMap escape ++ ['"']

/-- A string of a document; half a surrogate pair has no written form. -/
def stringText (value : JsonString) : Text := quoted (value.getD [])

/-- The text of a word, number or string. -/
def scalarText : Json → Text
  | null => "null".toList
  | bool true => "true".toList
  | bool false => "false".toList
  | number numeral => numeral.text true
  | string value => stringText value
  | array _ | object _ => []

mutual

/-- A document on one line, without blanks. -/
def compact : Json → Text
  | array items => '[' :: compactItems items ++ [']']
  | object fields => '{' :: compactFields fields ++ ['}']
  | scalar => scalar.scalarText

/-- The items of an array on one line. -/
def compactItems : List Json → Text
  | [] => []
  | [item] => item.compact
  | item :: next :: rest => item.compact ++ ',' :: compactItems (next :: rest)

/-- The fields of an object on one line. -/
def compactFields : List (JsonString × Json) → Text
  | [] => []
  | [(key, value)] => stringText key ++ ':' :: value.compact
  | (key, value) :: next :: rest =>
    stringText key ++ ':' :: value.compact ++ ',' :: compactFields (next :: rest)

end

/-- A line break and the blanks that start a line at the given depth. -/
def newLine (depth : Nat) : Text := '\n' :: List.replicate (2 * depth) ' '

mutual

/-- A document over several lines: each item and each field on a line of its own, two blanks deeper than
what it belongs to.  What is empty stays on its line. -/
def prettyAt (depth : Nat) : Json → Text
  | array [] => ['[', ']']
  | array (item :: rest) =>
    '[' :: newLine (depth + 1) ++ item.prettyAt (depth + 1) ++ prettyItems (depth + 1) rest
      ++ newLine depth ++ [']']
  | object [] => ['{', '}']
  | object ((key, value) :: rest) =>
    '{' :: newLine (depth + 1) ++ stringText key ++ ':' :: ' ' :: value.prettyAt (depth + 1)
      ++ prettyFields (depth + 1) rest ++ newLine depth ++ ['}']
  | scalar => scalar.scalarText

/-- The items of an array behind the first one. -/
def prettyItems (depth : Nat) : List Json → Text
  | [] => []
  | item :: rest => ',' :: newLine depth ++ item.prettyAt depth ++ prettyItems depth rest

/-- The fields of an object behind the first one. -/
def prettyFields (depth : Nat) : List (JsonString × Json) → Text
  | [] => []
  | (key, value) :: rest =>
    ',' :: newLine depth ++ stringText key ++ ':' :: ' ' :: value.prettyAt depth
      ++ prettyFields depth rest

end

/-- A document over several lines. -/
def pretty (document : Json) : Text := document.prettyAt 0

end Json

end BulkDml
