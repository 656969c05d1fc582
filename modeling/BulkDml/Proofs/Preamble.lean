import BulkDml.SourceQuery
import BulkDml.Proofs.Passage

/-! # Declarations in front of a query

Two shapes of text decide what becomes of declarations.  A text without a blank line inside, followed by a
blank line, is set apart whole (`splitPreamble_of_blankLine`); a text that starts with `SELECT` is all query,
blank lines or not (`splitPreamble_of_select`).

* `linesOf_append_newline` — the lines of a text are cut behind each line break;
* `splitAtBlankLine_of_lines` — a text is split in front of its first blank line;
* `exists_trimEnd_word_append` — what is left of a text that starts with a word still starts with it.
-/

namespace BulkDml

/-! ## Lines -/

/-- Lines are cut behind a line break, whatever stands on either side of it. -/
theorem linesOf_append_newline (before after : Text) :
    linesOf (before ++ '\n' :: after) = linesOf (before ++ ['\n']) ++ linesOf after := by
  induction before with
  | nil => simp [linesOf]
  | cons c rest ih =>
    rw [List.cons_append, List.cons_append, linesOf, linesOf]
    by_cases hc : c = '\n'
    · rw [if_pos hc, if_pos hc, ih, List.cons_append]
    · rw [if_neg hc, if_neg hc, ih]
      cases hlines : linesOf (rest ++ ['\n']) with
      | nil =>
        -- a text with a line break has a line
        have hflatten := flatten_linesOf (rest ++ ['\n'])
        simp [hlines] at hflatten
      | cons line lines => rfl

/-- A text without a line break inside is one line. -/
theorem linesOf_newline {line : Text} (h : '\n' ∉ line) :
    linesOf (line ++ ['\n']) = [line ++ ['\n']] := by
  induction line with
  | nil => rfl
  | cons c rest ih =>
    rw [List.mem_cons, not_or] at h
    rw [List.cons_append, linesOf, if_neg (Ne.symm h.1), ih h.2]

/-- A text without a line break that is not empty is one line. -/
theorem linesOf_of_not_mem {line : Text} (hne : line ≠ []) (h : '\n' ∉ line) :
    linesOf line = [line] := by
  induction line with
  | nil => exact absurd rfl hne
  | cons c rest ih =>
    rw [List.mem_cons, not_or] at h
    rw [linesOf, if_neg (Ne.symm h.1)]
    cases rest with
    | nil => rfl
    | cons d more => rw [ih (by simp) h.2]

/-- A text that starts without a line break has all of that in its first line. -/
theorem exists_linesOf_append {start : Text} (hne : start ≠ []) (h : '\n' ∉ start) (rest : Text) :
    ∃ tail lines, linesOf (start ++ rest) = (start ++ tail) :: lines := by
  induction start with
  | nil => exact absurd rfl hne
  | cons c more ih =>
    rw [List.mem_cons, not_or] at h
    rw [List.cons_append, linesOf, if_neg (Ne.symm h.1)]
    cases more with
    | nil =>
      cases linesOf ([] ++ rest) with
      | nil => exact ⟨[], [], rfl⟩
      | cons line lines => exact ⟨line, lines, rfl⟩
    | cons d others =>
      obtain ⟨tail, lines, hlines⟩ := ih (by simp) h.2
      rw [hlines]
      exact ⟨tail, lines, rfl⟩

/-- A text is its whole lines and what follows the last line break. -/
theorem exists_lastLine (text : Text) :
    ∃ whole last, text = whole ++ last ∧ '\n' ∉ last
      ∧ (whole = [] ∨ ∃ before, whole = before ++ ['\n']) := by
  induction text with
  | nil => exact ⟨[], [], rfl, by simp, .inl rfl⟩
  | cons c rest ih =>
    obtain ⟨whole, last, rfl, hlast, rfl | ⟨before, rfl⟩⟩ := ih
    · -- no line is whole yet: `c` ends the first one or goes in front of the last
      by_cases hc : c = '\n'
      · exact ⟨[c], last, rfl, hlast, .inr ⟨[], by rw [hc]; rfl⟩⟩
      · exact ⟨[], c :: last, rfl, by simp [Ne.symm hc, hlast], .inl rfl⟩
    · exact ⟨c :: (before ++ ['\n']), last, rfl, hlast, .inr ⟨c :: before, rfl⟩⟩

/-- Whole lines in front of a text are lines of their own. -/
theorem linesOf_whole_append {whole : Text} (h : whole = [] ∨ ∃ before, whole = before ++ ['\n'])
    (rest : Text) : linesOf (whole ++ rest) = linesOf whole ++ linesOf rest := by
  obtain rfl | ⟨before, rfl⟩ := h
  · rfl
  · rw [List.append_assoc, List.singleton_append, linesOf_append_newline]

/-- Blanks up to a line break behind a text without blank lines do not make one. -/
theorem not_blank_of_mem_linesOf_append {text blanks : Text} (hne : text ≠ [])
    (hend : text.trimEnd = text) (hlines : ∀ line ∈ linesOf text, line.isAllBlank = false)
    (hblanks : '\n' ∉ blanks) :
    ∀ line ∈ linesOf (text ++ (blanks ++ ['\n'])), line.isAllBlank = false := by
  -- Only the last line changes, and it is not blank to begin with.
  obtain ⟨whole, last, rfl, hlast, hwhole⟩ := exists_lastLine text
  have hlastne : last ≠ [] := by
    rintro rfl
    obtain rfl | ⟨before, rfl⟩ := hwhole
    · exact hne rfl
    · -- a text that ends in a line break is trimmed
      rw [List.append_nil] at hend
      exact absurd (Text.isAllBlank_eq_false_of_trimEnd (by simp) hend) (by decide)
  rw [linesOf_whole_append hwhole, linesOf_of_not_mem hlastne hlast] at hlines
  rw [List.append_assoc, linesOf_whole_append hwhole, ← List.append_assoc,
    linesOf_newline (by simp [hlast, hblanks])]
  intro line hline
  rw [List.mem_append, List.mem_singleton] at hline
  obtain hline | rfl := hline
  · exact hlines line (by simp [hline])
  · have hfilled := hlines last (by simp)
    simp [hfilled]

/-! ## Splitting at a blank line -/

/-- A text is split in front of its first blank line behind the first line. -/
theorem splitAtBlankLine_of_lines {text first blank : Text} {filled more : List Text}
    (h : linesOf text = first :: filled ++ blank :: more)
    (hfilled : ∀ line ∈ filled, line.isAllBlank = false) (hblank : blank.isAllBlank = true) :
    splitAtBlankLine text = some (first ++ filled.flatten, blank ++ more.flatten) := by
  have hkeep : ∀ line ∈ filled, (!line.isAllBlank) = true := by
    intro line hline
    rw [hfilled line hline]
    rfl
  rw [splitAtBlankLine, h, List.cons_append]
  simp only [List.takeWhile_append_of_pos hkeep, List.dropWhile_append_of_pos hkeep,
    List.takeWhile_cons, List.dropWhile_cons, hblank]
  simp

/-- Splitting at a blank line loses nothing, and the first line comes before it. -/
theorem append_of_splitAtBlankLine {text head behind : Text}
    (h : splitAtBlankLine text = some (head, behind)) :
    head ++ behind = text ∧ ∃ first lines rest, linesOf text = first :: lines ∧ head = first ++ rest := by
  unfold splitAtBlankLine at h
  split at h
  · cases h
  next first lines hlines =>
  dsimp only at h
  split at h
  · cases h
  rw [Option.some.injEq, Prod.mk.injEq] at h
  obtain ⟨rfl, rfl⟩ := h
  refine ⟨?_, first, lines, _, hlines, rfl⟩
  rw [List.append_assoc, ← List.flatten_append, List.takeWhile_append_dropWhile, ← List.flatten_cons,
    ← hlines, flatten_linesOf]

/-- Two line breaks in white space lie around a run of white space. -/
theorem exists_two_newlines {blanks : Text} (h : 2 ≤ blanks.count '\n') :
    ∃ before between after : Text, blanks = before ++ '\n' :: (between ++ '\n' :: after)
      ∧ '\n' ∉ before ∧ '\n' ∉ between := by
  obtain ⟨before, rest, rfl, hbefore⟩ := List.eq_append_cons_of_mem
    (List.count_pos_iff.mp (by omega : 0 < blanks.count '\n'))
  rw [List.count_append, List.count_cons_self, List.count_eq_zero_of_not_mem hbefore] at h
  obtain ⟨between, after, rfl, hbetween⟩ := List.eq_append_cons_of_mem
    (List.count_pos_iff.mp (by omega : 0 < rest.count '\n'))
  exact ⟨before, between, after, rfl, hbefore, hbetween⟩

/-- A text without blank lines, in front of a blank line, is set apart as declarations if it holds no part
of the query. -/
theorem splitPreamble_of_blankLine {dialect : Dialect} {declarations blanks : Text} (rest : Text)
    (hne : declarations ≠ []) (hend : declarations.trimEnd = declarations)
    (hlines : ∀ line ∈ linesOf declarations, line.isAllBlank = false)
    (hquery : startsQuery dialect declarations = false) (hblank : blanks.isAllBlank = true)
    (hcount : 2 ≤ blanks.count '\n') :
    splitPreamble dialect (declarations ++ blanks ++ rest) = (some declarations, rest.trimStart) := by
  obtain ⟨before, between, after, rfl, hbefore, hbetween⟩ := exists_two_newlines hcount
  simp only [Text.isAllBlank_append, Text.isAllBlank_cons, Bool.and_eq_true] at hblank
  obtain ⟨hbeforeBlank, hnewline, hbetweenBlank, -, hafterBlank⟩ := hblank
  -- The lines are those of the declarations, then a blank one, then those of the rest.
  have hfilled := not_blank_of_mem_linesOf_append hne hend hlines hbefore
  have hcut : linesOf (declarations ++ (before ++ '\n' :: (between ++ '\n' :: after)) ++ rest)
      = linesOf (declarations ++ (before ++ ['\n']))
        ++ (between ++ ['\n']) :: linesOf (after ++ rest) := by
    have hshape : declarations ++ (before ++ '\n' :: (between ++ '\n' :: after)) ++ rest
        = (declarations ++ before) ++ '\n' :: (between ++ '\n' :: (after ++ rest)) := by
      simp
    rw [hshape, linesOf_append_newline, linesOf_append_newline between, linesOf_newline hbetween]
    simp
  cases hhead : linesOf (declarations ++ (before ++ ['\n'])) with
  | nil =>
    have hflatten := flatten_linesOf (declarations ++ (before ++ ['\n']))
    simp [hhead] at hflatten
  | cons first filled =>
    rw [hhead] at hfilled hcut
    rw [List.forall_mem_cons] at hfilled
    have hsplit := splitAtBlankLine_of_lines hcut hfilled.2 (by simp [hbetweenBlank, hnewline])
    have hfirst : first ++ filled.flatten = declarations ++ (before ++ ['\n']) := by
      rw [← List.flatten_cons, ← hhead, flatten_linesOf]
    have hdeclarations : (declarations ++ (before ++ ['\n'])).trimEnd = declarations := by
      rw [Text.trimEnd_append_blank _ (by simp [hbeforeBlank, hnewline]), hend]
    have hbehind : Text.trimStart (between ++ ['\n'] ++ (after ++ rest)) = rest.trimStart := by
      rw [Text.trimStart_blank_append _ (by simp [hbetweenBlank, hnewline]),
        Text.trimStart_blank_append _ hafterBlank]
    rw [splitPreamble, hsplit, hfirst, flatten_linesOf]
    simp only [hdeclarations, hquery, hbehind, List.isEmpty_eq_false_iff.mpr hne]
    rfl

/-! ## Texts that start with the query -/

/-- What is left of a text that starts with a word, white space at its end removed, goes on with white
space behind the word. -/
theorem exists_trimEnd_word_append {word rest : Text} (hword : ∀ c ∈ word, isBlank c = false)
    (hrest : rest.startsBlank = true) :
    ∃ tail, (word ++ rest).trimEnd = word ++ tail ∧ tail.startsBlank = true := by
  cases hblank : rest.isAllBlank with
  | true =>
    -- nothing but white space behind the word: the word alone is left
    refine ⟨[], ?_, rfl⟩
    rw [Text.trimEnd_append_blank _ hblank, Text.trimEnd_of_not_blank hword, List.append_nil]
  | false =>
    refine ⟨rest.trimEnd, Text.trimEnd_append_of_not_blank _ hblank, ?_⟩
    obtain ⟨blanks, -, hsplit⟩ := Text.exists_trimEnd_append rest
    cases hcases : rest.trimEnd with
    | nil => rfl
    | cons c tail =>
      rw [hsplit, hcases] at hrest
      exact hrest

/-- A text that starts with the word `SELECT` is all query, whatever lines are blank in it. -/
theorem splitPreamble_of_select {dialect : Dialect} {word rest : Text} (hne : word ≠ [])
    (hword : ∀ c ∈ word, isWordChar c = true) (hselect : word.equalsIgnoringCase Keyword.SELECT.text = true)
    (hrest : rest.startsBlank = true) : splitPreamble dialect (word ++ rest) = (none, word ++ rest) := by
  have hnotBlank : ∀ c ∈ word, isBlank c = false := by
    intro c hc
    rw [Bool.eq_false_iff]
    intro hblank
    have hchar := isWordChar_eq_false_of_isBlank hblank
    rw [hword c hc] at hchar
    cases hchar
  have hstart : (word ++ rest).trimStart = word ++ rest := by
    obtain ⟨c, tail, rfl⟩ := List.exists_cons_of_ne_nil hne
    rw [List.cons_append, Text.trimStart_cons_of_not_blank _ (hnotBlank c (by simp))]
  rw [splitPreamble]
  cases hsplit : splitAtBlankLine (word ++ rest) with
  | none => simp [hstart]
  | some parts =>
    obtain ⟨head, behind⟩ := parts
    obtain ⟨happend, first, lines, more, hlines, rfl⟩ := append_of_splitAtBlankLine hsplit
    -- The first line holds the word, and with it does all of the text before the blank line.
    have hnewline : '\n' ∉ word := by
      intro hmem
      exact absurd (hword _ hmem) (by decide)
    obtain ⟨tail, others, hfirst⟩ := exists_linesOf_append hne hnewline rest
    obtain ⟨rfl, -⟩ := List.cons.inj (hlines.symm.trans hfirst)
    rw [List.append_assoc, List.append_assoc, List.append_cancel_left_eq] at happend
    have htail : Text.startsBlank (tail ++ more) = true := by
      rw [← happend, ← List.append_assoc] at hrest
      cases hcases : tail ++ more with
      | nil => rfl
      | cons c others =>
        rw [hcases] at hrest
        exact hrest
    obtain ⟨left, hleft, hblank⟩ := exists_trimEnd_word_append hnotBlank htail
    -- what would be set apart starts with `SELECT`, so that it is not
    have hquery : startsQuery dialect (word ++ left) = true := by
      rw [startsQuery, Passage.lex_word_append hne hword hblank, List.any_cons]
      simp [Lexeme.isKeyword, hselect]
    rw [List.append_assoc]
    simp only [hleft, hquery, Bool.or_true, hstart]
    rfl

end BulkDml
