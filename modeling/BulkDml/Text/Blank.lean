import BulkDml.Text

/-! # Blank characters

White space is the Unicode property `White_Space`: twenty-five characters in ten ranges.  Trimming
removes runs of them at the ends of a text and nothing inside it.
-/

namespace BulkDml

/-- The closed ranges of white-space characters, ascending and apart. -/
def blankRanges : List (Nat × Nat) :=
  [(0x09, 0x0D), (0x20, 0x20), (0x85, 0x85), (0xA0, 0xA0), (0x1680, 0x1680), (0x2000, 0x200A),
   (0x2028, 0x2029), (0x202F, 0x202F), (0x205F, 0x205F), (0x3000, 0x3000)]

/-- Whether a code point lies in one of the closed ranges. -/
def inRanges (ranges : List (Nat × Nat)) (point : Nat) : Bool :=
  ranges.any fun (first, last) => first ≤ point && point ≤ last

/-- Whether a character is white space. -/
def isBlank (c : Char) : Bool := inRanges blankRanges c.toNat

/-- ASCII white space is blank: the table adds to it and takes nothing away. -/
theorem isBlank_of_isWhitespace {c : Char} (h : c.isWhitespace = true) : isBlank c = true := by
  simp only [Char.isWhitespace, Bool.or_eq_true, decide_eq_true_eq] at h
  rcases h with ((h | h) | h) | h <;> subst h <;> decide

example : isBlank '\u000b' = true ∧ isBlank '\u00a0' = true ∧ isBlank '\u3000' = true := by decide
example : isBlank '\u200b' = false ∧ isBlank '\ufeff' = false ∧ isBlank '\u001c' = false := by decide

namespace Text

/-- The text without the white space that it starts with. -/
def trimStart (text : Text) : Text := text.dropWhile isBlank

/-- The text without the white space that it ends in. -/
def trimEnd (text : Text) : Text := (text.reverse.dropWhile isBlank).reverse

/-- The text without the white space at either end. -/
def trim (text : Text) : Text := trimEnd (trimStart text)

@[simp] theorem trimStart_nil : trimStart [] = [] := rfl

@[simp] theorem trimEnd_nil : trimEnd [] = [] := rfl

@[simp] theorem trim_nil : trim [] = [] := rfl

/-- A text of white space only, the empty text included. -/
def isAllBlank (text : Text) : Bool := text.all isBlank

@[simp] theorem isAllBlank_nil : isAllBlank [] = true := rfl

/-- Trimming the start leaves nothing exactly of a blank text. -/
theorem trimStart_eq_nil_iff {text : Text} : trimStart text = [] ↔ isAllBlank text = true := by
  induction text with
  | nil => simp
  | cons c rest ih =>
    by_cases hc : isBlank c = true
    · have hdrop : trimStart (c :: rest) = trimStart rest := List.dropWhile_cons_of_pos hc
      have hall : isAllBlank (c :: rest) = isAllBlank rest := by simp [isAllBlank, hc]
      rw [hdrop, hall, ih]
    · simp [trimStart, isAllBlank, hc]

/-- Trimming the end leaves nothing exactly of a blank text. -/
theorem trimEnd_eq_nil_iff {text : Text} : trimEnd text = [] ↔ isAllBlank text = true := by
  rw [trimEnd, List.reverse_eq_nil_iff]
  exact trimStart_eq_nil_iff.trans (by simp [isAllBlank])

end Text

end BulkDml
