import BulkDml.Assignment
import BulkDml.Lexeme

/-! # Named and positional placeholders

Compiled statements refer to their parameters by name, as in `@Name_P0` or `:p0`, while the database
binds by position.  `toPositional` writes `?1`, `?2`, … in the place of the names that have a binding and
lists the values in that order.  Names without a binding, and everything between quotes, are kept.

* `Segment`, `segments` — a text cut into quoted runs, placeholders and other characters;
* `lookup?` — the value of a name, the last binding of a name being the one that counts;
* `bindFrom` — numbers the names in order of first appearance.
-/

namespace BulkDml

/-! ## Segments -/

/-- The quote that closes a run opened by the given character, if that opens one in any dialect. -/
def closingQuote? : Char → Option Char
  | '\'' => some '\''
  | '"' => some '"'
  | '\x60' => some '\x60'
  | '[' => some ']'
  | _ => none

/-- The characters that introduce a placeholder. -/
def isIntroducer (c : Char) : Bool := c == '@' || c == ':' || c == '$'

/-- A part of a text as far as placeholders are concerned. -/
inductive Segment where
  /-- A run between quotes, quotes included. -/
  | quoted (text : Text)
  /-- A placeholder, with the character that introduces it. -/
  | placeholder (name : Text)
  /-- Any other character. -/
  | other (c : Char)
deriving DecidableEq

namespace Segment

/-- The characters of a segment. -/
def text : Segment → Text
  | quoted text => text
  | placeholder name => name
  | other c => [c]

/-- The segment that starts with `c`, and the text behind it. -/
def next (c : Char) (rest : Text) : Segment × Text :=
  match closingQuote? c with
  | some close =>
    let (run, after) := spanQuoted close rest
    (quoted (c :: run), after)
  | none =>
    if isIntroducer c && rest.head?.any isNameChar then
      (placeholder (c :: rest.takeWhile isNameChar), rest.dropWhile isNameChar)
    else (other c, rest)

/-- A segment and the text behind it are the text that they were taken from. -/
@[simp] theorem text_next_append (c : Char) (rest : Text) :
    (next c rest).1.text ++ (next c rest).2 = c :: rest := by
  unfold next
  split
  · simp [text]
  · split <;> simp [text]

/-- Taking a segment shortens the text. -/
theorem length_next_lt (c : Char) (rest : Text) : (next c rest).2.length < (c :: rest).length := by
  have happend := congrArg List.length (text_next_append c rest)
  have hpositive : 0 < (next c rest).1.text.length := by
    unfold next
    split
    · simp [text]
    · split <;> simp [text]
  simp only [List.length_append] at happend
  omega

end Segment

/-- The segments of a text, in order. -/
def segments : Text → List Segment
  | [] => []
  | c :: rest => (Segment.next c rest).1 :: segments (Segment.next c rest).2
termination_by text => text.length
decreasing_by exact Segment.length_next_lt c rest

@[simp] theorem segments_nil : segments [] = [] := by rw [segments]

theorem segments_cons (c : Char) (rest : Text) :
    segments (c :: rest) = (Segment.next c rest).1 :: segments (Segment.next c rest).2 := by
  rw [segments]

/-- Cutting a text into segments loses nothing. -/
@[simp] theorem flatMap_text_segments (text : Text) : (segments text).flatMap Segment.text = text := by
  fun_induction segments text with
  | case1 => rfl
  | case2 c rest ih => simp [ih]

/-! ## Binding -/

/-- The value of a name: that of the last binding with the name. -/
def lookup? (bindings : List Binding) (name : Text) : Option Value :=
  (bindings.reverse.find? (·.name == name)).map (·.value)

/-- SQL with positional placeholders. -/
structure PositionalQuery where
  /-- The SQL text, with placeholders `?1`, `?2`, …. -/
  sql : Text
  /-- The values of the placeholders, in order. -/
  values : List Value
deriving DecidableEq

/-- The placeholder with the given position, counted from zero. -/
def positional (position : Nat) : Text := '?' :: Text.ofNat (position + 1)

/-- Writes segments with positional placeholders, where `bound` lists the names that have a position
already.  The result comes with all names that have a position then, each with its value. -/
def bindFrom (bindings bound : List Binding) : List Segment → Text × List Binding
  | [] => ([], bound)
  | .placeholder name :: rest =>
    match lookup? bindings name with
    | none =>
      let (sql, all) := bindFrom bindings bound rest
      (name ++ sql, all)
    | some value =>
      match bound.findIdx? (·.name == name) with
      | some position =>
        let (sql, all) := bindFrom bindings bound rest
        (positional position ++ sql, all)
      | none =>
        let (sql, all) := bindFrom bindings (bound ++ [⟨name, value⟩]) rest
        (positional bound.length ++ sql, all)
  | segment :: rest =>
    let (sql, all) := bindFrom bindings bound rest
    (segment.text ++ sql, all)

/-- Writes positional placeholders in the place of the names that have a binding. -/
def toPositional (sql : Text) (bindings : List Binding) : PositionalQuery :=
  let (text, bound) := bindFrom bindings [] (segments sql)
  ⟨text, bound.map (·.value)⟩

end BulkDml
