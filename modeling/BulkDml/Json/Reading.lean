import BulkDml.Json.Token

/-! # Reading JSON documents

`Json.read?` reads one document from a text, with nothing but blanks around it.  It goes through the
tokens once, with a stack of the arrays and objects that are still open.
-/

namespace BulkDml

namespace Json

/-- An array or object that is still open. -/
inductive Frame where
  /-- An array with its items so far, last first. -/
  | array (before : List Json)
  /-- An object with its fields so far, last first, and the key whose value comes next. -/
  | object (before : List (JsonString × Json)) (key : JsonString)

mutual

/-- Reads a document whose next tokens are to be a value. -/
def readValue? : List Frame → List Token → Option Json
  | stack, .scalar document :: rest => readBehind? document stack rest
  | stack, .string value :: rest => readBehind? (string value) stack rest
  | stack, .openArray :: .closeArray :: rest => readBehind? (array []) stack rest
  | stack, .openArray :: rest => readValue? (.array [] :: stack) rest
  | stack, .openObject :: .closeObject :: rest => readBehind? (object []) stack rest
  | stack, .openObject :: .string key :: .colon :: rest => readValue? (.object [] key :: stack) rest
  | _, _ => none

/-- Reads a document in which a value has just ended. -/
def readBehind? (ended : Json) : List Frame → List Token → Option Json
  | [], [] => some ended
  | .array before :: stack, .comma :: rest => readValue? (.array (ended :: before) :: stack) rest
  | .array before :: stack, .closeArray :: rest =>
    readBehind? (array (ended :: before).reverse) stack rest
  | .object before key :: stack, .comma :: .string next :: .colon :: rest =>
    readValue? (.object ((key, ended) :: before) next :: stack) rest
  | .object before key :: stack, .closeObject :: rest =>
    readBehind? (object ((key, ended) :: before).reverse) stack rest
  | _, _ => none

end

/-- The document that a text writes. -/
def read? (text : Text) : Option Json := (tokens? text).bind (readValue? [])

/-! ## Records and variants

How deep arrays and objects may be nested is limited.  The functions that take a document apart carry the
number of levels that are left; parts of a document that nobody asks for do not count. -/

/-- The levels of arrays and objects that a document may have. -/
def depthLimit : Nat := 127

/-- The text of a string that is written in whole characters. -/
def text? : Json → Option Text
  | string value => value
  | _ => none

/-- The items of an array, if there is a level left for it. -/
def items? (levels : Nat) : Json → Option (List Json)
  | array items => if levels = 0 then none else some items
  | _ => none

/-- The value of the only field with the given name, `none` without one.  Two such fields are refused. -/
def fieldOf? (fields : List (Text × Json)) (name : Text) : Option (Option Json) :=
  match fields.filter (·.1 == name) with
  | [] => some none
  | [(_, value)] => some (some value)
  | _ => none

/-- The values of a record's named fields, in the order of the names.  A record is written as an object,
whose other fields are skipped, or as an array of the values, which may end early. -/
def record? (levels : Nat) (names : List Text) (document : Json) : Option (List (Option Json)) :=
  if levels = 0 then none
  else match document with
    | object fields => do
      let named ← fields.mapM fun (key, value) => key.map (·, value)
      names.mapM (fieldOf? named)
    | array items =>
      if items.length ≤ names.length then
        some (items.map some ++ List.replicate (names.length - items.length) none)
      else none
    | _ => none

/-- The name of a variant and what it carries.  A variant that carries nothing can be written as a mere
name; every other one is an object with one field. -/
def variant? (levels : Nat) : Json → Option (Text × Option Json)
  | string value => value.map (·, none)
  | object [(key, value)] => if levels = 0 then none else key.map (·, some value)
  | _ => none

/-- The name of a variant that carries nothing: a mere name, or one with `null`. -/
def unitVariant? (levels : Nat) (document : Json) : Option Text :=
  match variant? levels document with
  | some (name, none) => some name
  | some (name, some null) => some name
  | _ => none

end Json

end BulkDml
