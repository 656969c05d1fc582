import BulkDml.Sharding.Renaming
import Mathlib.Data.List.Count

/-! # Where a text names a table

Which occurrences of a table's name stand by themselves does not depend on the new name.  A text can be cut
once into characters that are kept and places where the table is named, and every renaming fills these
places.

* `tablePlaces`, `fillPlaces` — the places of a name in a text, and a name put into places;
* `renameTable_eq_fillPlaces` — renaming fills the places of the old name with the new one;
* `mentionsTable` — whether a text has such a place;
* `renameTable_eq_renameTable_iff` — new names of different lengths show whether it has;
* `renameTable_eq_self_iff` — texts that a renaming does not change.
-/

namespace BulkDml

/-- The characters of a text that follows the given character, and `none` in each place where the name
stands by itself. -/
def placesAfter (name : Text) (previous : Option Char) : Text → List (Option Char)
  | [] => []
  | c :: rest =>
    match _h : occurrence? name (c :: rest) with
    | some behind =>
      (if standsAlone name previous behind then [none] else name.map some)
        ++ placesAfter name name.getLast? behind
    | none => some c :: placesAfter name (some c) rest
termination_by text => text.length
decreasing_by
  · exact length_lt_of_occurrence? _h
  · simp

/-- The characters of a text, and `none` in each place where the name stands by itself. -/
def tablePlaces (name text : Text) : List (Option Char) := placesAfter name none text

/-- Puts a name into every place. -/
def fillPlaces (name : Text) (parts : List (Option Char)) : Text := parts.flatMap (·.elim name ([·]))

/-- Whether the name of a table stands by itself somewhere in a text. -/
def mentionsTable (name text : Text) : Bool := (tablePlaces name text).contains none

theorem placesAfter_of_occurrence? {name rest behind : Text} {c : Char} {previous : Option Char}
    (h : occurrence? name (c :: rest) = some behind) :
    placesAfter name previous (c :: rest)
      = (if standsAlone name previous behind then [none] else name.map some)
        ++ placesAfter name name.getLast? behind := by
  rw [placesAfter]
  split
  · next found hfound =>
    rw [h] at hfound
    cases hfound
    rfl
  · next hnone =>
    rw [h] at hnone
    cases hnone

theorem placesAfter_of_no_occurrence {name rest : Text} {c : Char} {previous : Option Char}
    (h : occurrence? name (c :: rest) = none) :
    placesAfter name previous (c :: rest) = some c :: placesAfter name (some c) rest := by
  rw [placesAfter]
  split
  · next found hfound =>
    rw [h] at hfound
    cases hfound
  · rfl

/-! ## Filling places -/

@[simp] theorem fillPlaces_nil (name : Text) : fillPlaces name [] = [] := rfl

@[simp] theorem fillPlaces_append (name : Text) (first rest : List (Option Char)) :
    fillPlaces name (first ++ rest) = fillPlaces name first ++ fillPlaces name rest :=
  List.flatMap_append

@[simp] theorem fillPlaces_cons (name : Text) (part : Option Char) (rest : List (Option Char)) :
    fillPlaces name (part :: rest) = part.elim name ([·]) ++ fillPlaces name rest := rfl

/-- Characters are no places. -/
theorem fillPlaces_map_some (name text : Text) : fillPlaces name (text.map some) = text := by
  induction text with
  | nil => rfl
  | cons c tail ih =>
    rw [List.map_cons, fillPlaces_cons, ih]
    rfl

/-- Every place takes the whole name. -/
theorem length_fillPlaces (name : Text) (parts : List (Option Char)) :
    (fillPlaces name parts).length
      = parts.countP Option.isSome + parts.count none * name.length := by
  induction parts with
  | nil => simp
  | cons part rest ih =>
    rw [fillPlaces_cons, List.length_append, ih]
    cases part with
    | none =>
      rw [List.countP_cons_of_neg (by simp), List.count_cons_self, Nat.succ_mul]
      simp only [Option.elim_none]
      omega
    | some c =>
      rw [List.countP_cons_of_pos (by simp), List.count_cons_of_ne (by simp)]
      simp only [Option.elim_some, List.length_singleton]
      omega

/-- Without a place, no name is seen. -/
theorem fillPlaces_eq_of_notMem {parts : List (Option Char)} (h : none ∉ parts) (name other : Text) :
    fillPlaces name parts = fillPlaces other parts := by
  induction parts with
  | nil => rfl
  | cons part rest ih =>
    rw [List.mem_cons, not_or] at h
    rw [fillPlaces_cons, fillPlaces_cons, ih h.2]
    cases part with
    | none => exact absurd rfl h.1
    | some c => rfl

/-- With a place, names of different lengths are told apart. -/
theorem fillPlaces_eq_iff {name other : Text} (hlength : name.length ≠ other.length)
    {parts : List (Option Char)} :
    fillPlaces name parts = fillPlaces other parts ↔ none ∉ parts := by
  constructor
  · intro heq
    have hcount := congrArg List.length heq
    rw [length_fillPlaces, length_fillPlaces, Nat.add_left_cancel_iff] at hcount
    by_contra hmem
    exact hlength (Nat.eq_of_mul_eq_mul_left (List.count_pos_iff.mpr hmem) hcount)
  · intro h
    exact fillPlaces_eq_of_notMem h name other

/-- A place behind characters is the first one, or behind it. -/
theorem place_cases {chars : Text} {rest front back : List (Option Char)}
    (h : chars.map some ++ none :: rest = front ++ none :: back) :
    front = chars.map some ∧ back = rest
      ∨ ∃ more, front = chars.map some ++ none :: more ∧ rest = more ++ none :: back := by
  induction chars generalizing front with
  | nil =>
    cases front with
    | nil =>
      cases h
      exact Or.inl ⟨rfl, rfl⟩
    | cons part more =>
      cases h
      exact Or.inr ⟨more, rfl, rfl⟩
  | cons c tail ih =>
    cases front with
    | nil => cases h
    | cons part more =>
      obtain ⟨rfl, htail⟩ := List.cons.inj h
      rcases ih htail with ⟨rfl, rfl⟩ | ⟨between, rfl, hrest⟩
      · exact Or.inl ⟨rfl, rfl⟩
      · exact Or.inr ⟨between, rfl, hrest⟩

/-! ## Renaming -/

/-- Renaming fills the places of the old name with the new one. -/
theorem renameAfter_eq_fillPlaces (old new : Text) (previous : Option Char) (text : Text) :
    renameAfter old new previous text = fillPlaces new (placesAfter old previous text) := by
  fun_induction renameAfter old new previous text with
  | case1 => rw [placesAfter, fillPlaces_nil]
  | case2 previous c rest behind hfound ih =>
    -- an occurrence is a place if it stands by itself, and kept otherwise
    rw [placesAfter_of_occurrence? hfound, fillPlaces_append, ih]
    congr 1
    split
    · rw [fillPlaces_cons, fillPlaces_nil, List.append_nil]
      rfl
    · rw [fillPlaces_map_some]
  | case3 previous c rest hnone ih =>
    rw [placesAfter_of_no_occurrence hnone, fillPlaces_cons, ih]
    rfl

/-- **Renaming a table fills its places with the new name.** -/
theorem renameTable_eq_fillPlaces (old new text : Text) :
    renameTable old new text = fillPlaces new (tablePlaces old text) :=
  renameAfter_eq_fillPlaces old new none text

/-- A table is mentioned exactly where there is a place of its name. -/
theorem mentionsTable_eq_false_iff {name text : Text} :
    mentionsTable name text = false ↔ none ∉ tablePlaces name text := by
  rw [mentionsTable, ← Bool.not_eq_true, List.contains_iff_mem]

/-- A table that is not mentioned can be renamed to anything. -/
theorem renameTable_eq_of_not_mentions {old text : Text} (h : mentionsTable old text = false)
    (new other : Text) : renameTable old new text = renameTable old other text := by
  rw [renameTable_eq_fillPlaces, renameTable_eq_fillPlaces]
  exact fillPlaces_eq_of_notMem (mentionsTable_eq_false_iff.mp h) new other

/-- **New names of different lengths give the same text exactly if the table is not mentioned.** -/
theorem renameTable_eq_renameTable_iff {old new other text : Text} (hlength : new.length ≠ other.length) :
    renameTable old new text = renameTable old other text ↔ mentionsTable old text = false := by
  rw [renameTable_eq_fillPlaces, renameTable_eq_fillPlaces, fillPlaces_eq_iff hlength,
    mentionsTable_eq_false_iff]

/-! ## Texts that stay the same -/

/-- The old name in all of its places is the text itself. -/
theorem fillPlaces_tablePlaces (name text : Text) : fillPlaces name (tablePlaces name text) = text := by
  have hfill : ∀ previous, fillPlaces name (placesAfter name previous text) = text := by
    intro previous
    fun_induction placesAfter name previous text with
    | case1 => rfl
    | case2 previous c rest behind hfound ih =>
      have htext : c :: rest = name ++ behind := by
        unfold occurrence? at hfound
        split at hfound
        · cases hfound
        · exact Text.eq_append_of_after? hfound
      rw [fillPlaces_append, ih, htext]
      split
      · simp
      · rw [fillPlaces_map_some]
    | case3 previous c rest hnone ih =>
      rw [fillPlaces_cons, ih]
      rfl
  exact hfill none

/-- Filling places with different names gives different texts, if there are places. -/
theorem fillPlaces_inj_iff {name other : Text} {parts : List (Option Char)} :
    fillPlaces other parts = fillPlaces name parts ↔ name = other ∨ none ∉ parts := by
  constructor
  · intro h
    by_cases hlength : other.length = name.length
    · -- names of the same length stand at the same place
      induction parts with
      | nil => exact Or.inr (by simp)
      | cons part rest ih =>
        rw [fillPlaces_cons, fillPlaces_cons] at h
        cases part with
        | none => exact Or.inl (List.append_inj_left h hlength).symm
        | some c =>
          rcases ih (List.append_cancel_left h) with hsame | hrest
          · exact Or.inl hsame
          · exact Or.inr (by simpa using hrest)
    · exact Or.inr ((fillPlaces_eq_iff hlength).mp h)
  · rintro (rfl | h)
    · rfl
    · exact fillPlaces_eq_of_notMem h other name

/-- **A renaming keeps a text exactly if it keeps the name or the text does not mention the table.** -/
theorem renameTable_eq_self_iff {old new text : Text} :
    renameTable old new text = text ↔ old = new ∨ mentionsTable old text = false := by
  rw [renameTable_eq_fillPlaces, mentionsTable_eq_false_iff, ← fillPlaces_inj_iff,
    fillPlaces_tablePlaces]

end BulkDml
