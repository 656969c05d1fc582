import BulkDml.Lexeme

/-! # Trimming and blank characters

White space at the ends of a text does not matter to trimming, wherever it comes from, and no white space
is part of a word, a quote or a comment mark.

* `Text.trim_append_blank` — blanks around a text do not show in the trimmed text;
* `Text.startsBlank` — a text that ends or goes on with white space;
* `ne_of_isBlank`, `isWordChar_eq_false_of_isBlank` — white space starts no other piece.
-/

namespace BulkDml

/-! ## Blank characters -/

/-- A blank character lies in one of the ranges of white space. -/
theorem isBlank_iff {c : Char} :
    isBlank c = true ↔
      (0x09 ≤ c.toNat ∧ c.toNat ≤ 0x0D) ∨ c.toNat = 0x20 ∨ c.toNat = 0x85 ∨ c.toNat = 0xA0
        ∨ c.toNat = 0x1680 ∨ (0x2000 ≤ c.toNat ∧ c.toNat ≤ 0x200A)
        ∨ (0x2028 ≤ c.toNat ∧ c.toNat ≤ 0x2029) ∨ c.toNat = 0x202F ∨ c.toNat = 0x205F
        ∨ c.toNat = 0x3000 := by
  simp only [isBlank, inRanges, blankRanges, List.any_cons, List.any_nil, Bool.or_false,
    Bool.or_eq_true, Bool.and_eq_true, decide_eq_true_eq]
  omega

/-- Letters and digits lie in three ranges. -/
theorem isAlphanum_iff {c : Char} :
    c.isAlphanum = true ↔
      ((65 ≤ c.toNat ∧ c.toNat ≤ 90) ∨ (97 ≤ c.toNat ∧ c.toNat ≤ 122))
        ∨ (48 ≤ c.toNat ∧ c.toNat ≤ 57) := by
  have hupper : c.isUpper = true ↔ 65 ≤ c.toNat ∧ c.toNat ≤ 90 := decide_eq_true_iff
  have hlower : c.isLower = true ↔ 97 ≤ c.toNat ∧ c.toNat ≤ 122 :=
    Bool.and_eq_true_iff.trans (and_congr decide_eq_true_iff decide_eq_true_iff)
  have hdigit : c.isDigit = true ↔ 48 ≤ c.toNat ∧ c.toNat ≤ 57 := Char.isDigit_iff_toNat
  have hletter : c.isAlpha = true ↔ c.isUpper = true ∨ c.isLower = true := Bool.or_eq_true_iff
  have halphanum : c.isAlphanum = true ↔ c.isAlpha = true ∨ c.isDigit = true := Bool.or_eq_true_iff
  rw [halphanum, hletter, hupper, hlower, hdigit]

/-- No white space is a word character. -/
theorem isWordChar_eq_false_of_isBlank {c : Char} (h : isBlank c = true) : isWordChar c = false := by
  rw [isBlank_iff] at h
  rw [Bool.eq_false_iff]
  intro hword
  simp only [isWordChar, Bool.or_eq_true, isAlphanum_iff, beq_iff_eq] at hword
  rcases hword with ((hword | rfl) | rfl) | rfl
  · -- no range of white space meets a range of letters or digits
    omega
  all_goals exact absurd h (by decide)

/-- A character that is not white space differs from every one that is. -/
theorem ne_of_isBlank {c mark : Char} (h : isBlank c = true) (hmark : isBlank mark = false) :
    c ≠ mark := by
  rintro rfl
  rw [h] at hmark
  cases hmark

/-- The quotes of a dialect are not white space. -/
theorem isBlank_openQuote (dialect : Dialect) : isBlank dialect.openQuote = false := by
  cases dialect <;> decide

/-- The quotes of a dialect are not white space. -/
theorem isBlank_closeQuote (dialect : Dialect) : isBlank dialect.closeQuote = false := by
  cases dialect <;> decide

namespace Text

/-- Whether a text goes on with white space, if it goes on at all. -/
def startsBlank (text : Text) : Bool := text.head?.all isBlank

@[simp] theorem startsBlank_nil : startsBlank [] = true := rfl

@[simp] theorem startsBlank_cons (c : Char) (rest : Text) : startsBlank (c :: rest) = isBlank c := rfl

@[simp] theorem isAllBlank_cons (c : Char) (rest : Text) :
    isAllBlank (c :: rest) = (isBlank c && isAllBlank rest) := rfl

/-- A text is blank exactly if both of its parts are. -/
@[simp] theorem isAllBlank_append (left right : Text) :
    isAllBlank (left ++ right) = (isAllBlank left && isAllBlank right) := List.all_append

/-- A blank text in front of anything that starts blank starts blank. -/
theorem startsBlank_append {blanks : Text} (rest : Text) (hblank : isAllBlank blanks = true)
    (hrest : blanks = [] → startsBlank rest = true) : startsBlank (blanks ++ rest) = true := by
  cases blanks with
  | nil => simpa using hrest rfl
  | cons c tail =>
    rw [isAllBlank_cons, Bool.and_eq_true] at hblank
    simpa using hblank.1

/-! ## Trimming -/

/-- Blanks in front are trimmed at the start. -/
theorem trimStart_blank_append {blanks : Text} (text : Text) (h : isAllBlank blanks = true) :
    trimStart (blanks ++ text) = trimStart text := by
  have hall : ∀ c ∈ blanks, isBlank c = true := by simpa [isAllBlank] using h
  exact List.dropWhile_append_of_pos hall

/-- Blanks behind are trimmed at the end. -/
theorem trimEnd_append_blank {blanks : Text} (text : Text) (h : isAllBlank blanks = true) :
    trimEnd (text ++ blanks) = trimEnd text := by
  have hall : ∀ c ∈ blanks.reverse, isBlank c = true := by simpa [isAllBlank] using h
  rw [trimEnd, trimEnd, List.reverse_append, List.dropWhile_append_of_pos hall]

/-- A text that does not start blank is not trimmed at the start. -/
theorem trimStart_cons_of_not_blank {c : Char} (rest : Text) (h : isBlank c = false) :
    trimStart (c :: rest) = c :: rest := by
  rw [trimStart, List.dropWhile_cons_of_neg (by simp [h])]

/-- Trimming the start of a text that is not blank stays within it. -/
theorem trimStart_append_of_not_blank {text : Text} (rest : Text) (h : isAllBlank text = false) :
    trimStart (text ++ rest) = trimStart text ++ rest := by
  have hne : trimStart text ≠ [] := by
    rw [Ne, trimStart_eq_nil_iff, h]
    simp
  rw [trimStart] at hne
  rw [trimStart, List.dropWhile_append, if_neg (by simpa using hne), trimStart]

/-- Trimming the start goes no further than to a character that is not blank. -/
theorem trimStart_append_cons {c : Char} (hc : isBlank c = false) (before rest : Text) :
    trimStart (before ++ c :: rest) = trimStart before ++ c :: rest := by
  cases h : isAllBlank before with
  | true =>
    rw [trimStart_blank_append _ h, trimStart_cons_of_not_blank _ hc, trimStart_eq_nil_iff.mpr h,
      List.nil_append]
  | false => exact trimStart_append_of_not_blank _ h

/-- Trimming the end of a text that is not blank stays within it. -/
theorem trimEnd_append_of_not_blank (before : Text) {text : Text} (h : isAllBlank text = false) :
    trimEnd (before ++ text) = before ++ trimEnd text := by
  have hreverse : isAllBlank text.reverse = false := by simpa [isAllBlank] using h
  have hstart := trimStart_append_of_not_blank before.reverse hreverse
  simp only [trimStart] at hstart
  rw [trimEnd, trimEnd, List.reverse_append, hstart]
  simp

/-- Blanks around a text do not show in the trimmed text. -/
theorem trim_append_blank {before after : Text} (text : Text) (hbefore : isAllBlank before = true)
    (hafter : isAllBlank after = true) : trim (before ++ text ++ after) = trim text := by
  rw [trim, trim, List.append_assoc, trimStart_blank_append _ hbefore]
  cases h : isAllBlank text with
  | true =>
    -- all is blank, and nothing is left on either side
    rw [trimStart_eq_nil_iff.mpr h, trimStart_blank_append _ h, trimStart_eq_nil_iff.mpr hafter]
  | false => rw [trimStart_append_of_not_blank _ h, trimEnd_append_blank _ hafter]

/-- Trimming loses only white space at the end. -/
theorem exists_trimEnd_append (text : Text) :
    ∃ blanks, isAllBlank blanks = true ∧ text = trimEnd text ++ blanks := by
  refine ⟨(text.reverse.takeWhile isBlank).reverse, ?_, ?_⟩
  · rw [isAllBlank, List.all_reverse]
    exact List.all_takeWhile
  · rw [trimEnd, ← List.reverse_append, List.takeWhile_append_dropWhile, List.reverse_reverse]

/-- A text that trimming keeps is kept at either end. -/
theorem trim_eq_self_iff {text : Text} :
    trim text = text ↔ trimStart text = text ∧ trimEnd text = text := by
  constructor
  · intro h
    -- Neither end can lose anything, since the two together lose nothing.
    obtain ⟨blanks, -, hend⟩ := exists_trimEnd_append (trimStart text)
    have hstart : text = text.takeWhile isBlank ++ trimStart text :=
      List.takeWhile_append_dropWhile.symm
    have hlength := congrArg List.length hstart
    have hlength' := congrArg List.length hend
    rw [← trim, h, List.length_append] at hlength'
    rw [List.length_append] at hlength
    have hnone : text.takeWhile isBlank = [] := List.length_eq_zero_iff.mp (by omega)
    have hkeep : trimStart text = text := by
      rw [hnone, List.nil_append] at hstart
      exact hstart.symm
    rw [trim, hkeep] at h
    exact ⟨hkeep, h⟩
  · rintro ⟨hstart, hend⟩
    rw [trim, hstart, hend]

/-- A text that is not trimmed at the end does not end in white space. -/
theorem isAllBlank_eq_false_of_trimEnd {before blanks : Text} (hne : blanks ≠ [])
    (h : trimEnd (before ++ blanks) = before ++ blanks) : isAllBlank blanks = false := by
  rw [Bool.eq_false_iff]
  intro hblank
  rw [trimEnd_append_blank _ hblank] at h
  obtain ⟨rest, -, hrest⟩ := exists_trimEnd_append before
  have hlength := congrArg List.length h
  have hlength' := congrArg List.length hrest
  rw [List.length_append] at hlength hlength'
  exact hne (List.length_eq_zero_iff.mp (by omega))

/-- A text without white space is not trimmed at the end. -/
theorem trimEnd_of_not_blank {text : Text} (h : ∀ c ∈ text, isBlank c = false) :
    trimEnd text = text := by
  have hreverse : text.reverse.dropWhile isBlank = text.reverse := by
    cases hcases : text.reverse with
    | nil => rfl
    | cons c rest =>
      have hc : c ∈ text := by
        rw [← List.mem_reverse, hcases]
        exact List.mem_cons_self
      rw [List.dropWhile_cons_of_neg (by simp [h c hc])]
  rw [trimEnd, hreverse, List.reverse_reverse]

end Text

end BulkDml
