import BulkDml.Text

/-! # Renaming a table in SQL text

`renameTable` puts a new name in the place of a table's name, wherever the name stands by itself.  An
occurrence that is glued to a longer name is kept: `orders` is no part of `orders_archive`.  A side of
the name that is not a name character, such as a bracket, is never glued to anything.  Occurrences are
looked for from left to right and do not overlap, and what is put in is not looked at again.
-/

namespace BulkDml

/-- What follows an occurrence of `name` at the start of a text.  The empty name occurs nowhere. -/
def occurrence? (name text : Text) : Option Text := if name.isEmpty then none else name.after? text

/-- An occurrence is followed by less text. -/
theorem length_lt_of_occurrence? {name text behind : Text} (h : occurrence? name text = some behind) :
    behind.length < text.length := by
  unfold occurrence? at h
  split at h
  · cases h
  · next hname =>
    have : 0 < name.length := by
      cases name with
      | nil => simp at hname
      | cons c rest => simp
    rw [Text.eq_append_of_after? h, List.length_append]
    omega

/-- Whether an occurrence of `name` stands by itself between the character before it and the text behind
it. -/
def standsAlone (name : Text) (previous : Option Char) (behind : Text) : Bool :=
  !(name.head?.any isNameChar && previous.any isNameChar)
    && !(name.getLast?.any isNameChar && behind.head?.any isNameChar)

/-- Renames a table in a text that follows the given character. -/
def renameAfter (old new : Text) (previous : Option Char) : Text → Text
  | [] => []
  | c :: rest =>
    match _h : occurrence? old (c :: rest) with
    | some behind =>
      (if standsAlone old previous behind then new else old)
        ++ renameAfter old new old.getLast? behind
    | none => c :: renameAfter old new (some c) rest
termination_by text => text.length
decreasing_by
  · exact length_lt_of_occurrence? _h
  · simp

/-- Renames a table wherever its name stands by itself. -/
def renameTable (old new text : Text) : Text := renameAfter old new none text

@[simp] theorem renameAfter_nil (old new : Text) (previous : Option Char) :
    renameAfter old new previous [] = [] := by rw [renameAfter]

theorem renameAfter_of_occurrence? {old new rest behind : Text} {c : Char} {previous : Option Char}
    (h : occurrence? old (c :: rest) = some behind) :
    renameAfter old new previous (c :: rest)
      = (if standsAlone old previous behind then new else old)
        ++ renameAfter old new old.getLast? behind := by
  rw [renameAfter]
  split
  · next found hfound => rw [h] at hfound; cases hfound; rfl
  · next hnone => rw [h] at hnone; cases hnone

theorem renameAfter_of_no_occurrence {old new rest : Text} {c : Char} {previous : Option Char}
    (h : occurrence? old (c :: rest) = none) :
    renameAfter old new previous (c :: rest) = c :: renameAfter old new (some c) rest := by
  rw [renameAfter]
  split
  · next found hfound => rw [h] at hfound; cases hfound
  · rfl

end BulkDml
