import BulkDml.Proofs.Trimming
import BulkDml.Value
import Mathlib.Data.List.TakeWhile

/-! # Passages of complete pieces

A piece that is closed by its own last character is cut off in the same way whatever follows it.  A
`Passage` is a text of such pieces, and lexing goes on behind it as if it stood alone.

* `Lexeme.IsComplete`, `Lexeme.StopsAt` — a piece that is closed, and a text that does not prolong it;
* `Lexeme.next_append_of_stopsAt` — such a piece is found in front of any such text;
* `Passage.lex_append` — the pieces of a passage come first, then those of the text behind it.
-/

namespace BulkDml

/-! ## Runs that go on behind -/

/-- A run that is closed before the text ends does not depend on how the text goes on. -/
theorem spanQuoted_append_of_ne_nil (close : Char) (text rest : Text)
    (h : (spanQuoted close text).2 ≠ []) :
    spanQuoted close (text ++ rest) = ((spanQuoted close text).1, (spanQuoted close text).2 ++ rest) := by
  fun_induction spanQuoted close text with
  | case1 => simp at h
  | case2 => simp at h
  | case3 tail run after hafter ih =>
    -- a doubled mark: the run goes on behind it
    simp only [hafter] at ih h
    rw [List.cons_append, List.cons_append, spanQuoted, if_pos rfl, if_pos rfl, ih h]
  | case4 d tail hd =>
    -- a single mark: it ends the run, and what is appended comes behind `d`
    rw [List.cons_append, List.cons_append, spanQuoted, if_pos rfl, if_neg hd]
  | case5 c d tail hc run after hafter ih =>
    simp only [hafter] at ih h
    rw [List.cons_append, List.cons_append, spanQuoted, if_neg hc, ← List.cons_append, ih h]

/-- A line that is broken before the text ends does not depend on how the text goes on. -/
theorem spanLine_append_of_ne_nil (text rest : Text) (h : (spanLine text).2 ≠ []) :
    spanLine (text ++ rest) = ((spanLine text).1, (spanLine text).2 ++ rest) := by
  fun_induction spanLine text with
  | case1 => simp at h
  | case2 tail => rw [List.cons_append, spanLine, if_pos rfl]
  | case3 c tail hc run after hafter ih =>
    simp only [hafter] at ih h
    rw [List.cons_append, spanLine, if_neg hc, ih h]

/-- A text with its marks doubled is one run up to the single mark behind it. -/
theorem spanQuoted_doubling (close : Char) (content rest : Text) (h : rest.head? ≠ some close) :
    spanQuoted close (content.doubling close ++ close :: rest)
      = (content.doubling close ++ [close], rest) := by
  induction content with
  | nil =>
    cases rest with
    | nil => rfl
    | cons d tail =>
      have hd : d ≠ close := by simpa using h
      rw [Text.doubling_nil, List.nil_append, spanQuoted, if_pos rfl, if_neg hd]
      rfl
  | cons c tail ih =>
    rw [Text.doubling_cons]
    by_cases hc : c = close
    · subst hc
      simp only [if_true, List.cons_append, List.nil_append]
      rw [spanQuoted, if_pos rfl, if_pos rfl, ih]
    · simp only [if_neg hc, List.cons_append, List.nil_append]
      -- something follows `c` in any case, the single mark at the latest
      obtain ⟨d, more, hmore⟩ :
          ∃ d more, Text.doubling close tail ++ close :: rest = d :: more := by
        cases hshape : Text.doubling close tail ++ close :: rest with
        | nil => simp at hshape
        | cons d more => exact ⟨d, more, rfl⟩
      rw [hmore, spanQuoted, if_neg hc, ← hmore, ih]

/-- A text without a line break is one line up to the line break behind it. -/
theorem spanLine_append_newline {line : Text} (rest : Text) (h : '\n' ∉ line) :
    spanLine (line ++ '\n' :: rest) = (line ++ ['\n'], rest) := by
  induction line with
  | nil => rfl
  | cons c tail ih =>
    rw [List.mem_cons, not_or] at h
    rw [List.cons_append, spanLine, if_neg (Ne.symm h.1), ih h.2]
    rfl

/-! ## Complete pieces -/

namespace Lexeme

/-- Whether a piece is closed: quoted identifiers and literals by their closing quote, comments by their
line break. -/
def IsComplete (dialect : Dialect) : Lexeme → Prop
  | word _ | other _ => True
  | quoted text => ∃ name, text = dialect.quote name
  | literal text => ∃ content, text = Value.textLiteral content
  | comment text => ∃ line, '\n' ∉ line ∧ text = line ++ ['\n']

/-- Whether a piece is not prolonged by the text behind it. -/
def StopsAt (dialect : Dialect) : Lexeme → Text → Prop
  | word _, after => after.head?.all (!isWordChar ·) = true
  | quoted _, after => after.head? ≠ some dialect.closeQuote
  | literal _, after => after.head? ≠ some '\''
  | comment _, _ => True
  | other c, after => ¬(c = '-' ∧ after.head? = some '-')

/-- White space and the end of the text prolong no piece. -/
theorem stopsAt_of_startsBlank (dialect : Dialect) (piece : Lexeme) {after : Text}
    (h : after.startsBlank = true) : piece.StopsAt dialect after := by
  cases after with
  | nil => cases piece <;> simp [StopsAt]
  | cons c tail =>
    rw [Text.startsBlank_cons] at h
    cases piece with
    | word text => simpa [StopsAt] using isWordChar_eq_false_of_isBlank h
    | quoted text => simpa [StopsAt] using ne_of_isBlank h (isBlank_closeQuote dialect)
    | literal text => simpa [StopsAt] using ne_of_isBlank h (by decide)
    | comment text => trivial
    | other d => simpa [StopsAt] using fun _ => ne_of_isBlank h (by decide)

/-- A piece that ends before the text does is the same piece of the prolonged text. -/
theorem next_append_of_ne_nil (dialect : Dialect) (c : Char) (text rest : Text)
    (h : (next dialect c text).2 ≠ []) :
    next dialect c (text ++ rest) = ((next dialect c text).1, (next dialect c text).2 ++ rest) := by
  -- The cases are those of `next`.  Quoted runs and comments end by themselves, so that what is appended
  -- cannot reach them.
  by_cases hliteral : c = '\''
  · simp only [next, if_pos hliteral] at h ⊢
    rw [spanQuoted_append_of_ne_nil _ _ _ h]
  by_cases hquoted : c = dialect.openQuote
  · simp only [next, if_neg hliteral, if_pos hquoted] at h ⊢
    rw [spanQuoted_append_of_ne_nil _ _ _ h]
  have hhead : text ≠ [] → (text ++ rest).head? = text.head? := by
    intro hne
    obtain ⟨d, tail, rfl⟩ := List.exists_cons_of_ne_nil hne
    rfl
  by_cases hcomment : c = '-' ∧ text.head? = some '-'
  · have hne : text ≠ [] := by
      rintro rfl
      simp at hcomment
    simp only [next, if_neg hliteral, if_neg hquoted, if_pos hcomment, hhead hne] at h ⊢
    rw [spanLine_append_of_ne_nil _ _ h]
  by_cases hword : isWordChar c = true
  · have hdash : c ≠ '-' := by
      rintro rfl
      exact absurd hword (by decide)
    simp only [next, if_neg hliteral, if_neg hquoted, hdash, false_and, if_false, if_pos hword] at h ⊢
    -- the word stops inside `text`, hence it is the longest run of the longer text as well
    have hne : (text.dropWhile isWordChar).isEmpty = false := by simpa using h
    have htake : (text.takeWhile isWordChar).length ≠ text.length := by
      intro hlength
      have hboth := congrArg List.length (List.takeWhile_append_dropWhile (p := isWordChar) (l := text))
      rw [List.length_append, hlength] at hboth
      exact h (List.length_eq_zero_iff.mp (by omega))
    rw [List.takeWhile_append, if_neg htake, List.dropWhile_append, hne]
    rfl
  · -- a single character looks at most at the one behind it
    have hne : text ≠ [] := by
      simpa [next, hliteral, hquoted, hcomment, hword] using h
    simp only [next, if_neg hliteral, if_neg hquoted, hhead hne, if_neg hcomment, if_neg hword]

/-- A word stands at the start of a text that does not prolong it. -/
theorem next_word (dialect : Dialect) {c : Char} {tail rest : Text} (hc : isWordChar c = true)
    (htail : ∀ d ∈ tail, isWordChar d = true) (hrest : rest.head?.all (!isWordChar ·) = true) :
    next dialect c (tail ++ rest) = (word (c :: tail), rest) := by
  have hrun := Text.takeWhile_dropWhile_run htail hrest
  have hliteral : c ≠ '\'' := by
    rintro rfl
    exact absurd hc (by decide)
  have hcomment : c ≠ '-' := by
    rintro rfl
    exact absurd hc (by decide)
  have hquoted : c ≠ dialect.openQuote := by
    rintro rfl
    cases dialect <;> exact absurd hc (by decide)
  simp only [next, if_neg hliteral, if_neg hquoted, hcomment, false_and, if_false, if_pos hc]
  rw [hrun.1, hrun.2]

/-- A literal stands at the start of a text that does not double its closing quote. -/
theorem next_textLiteral (dialect : Dialect) (content : Text) {rest : Text}
    (h : rest.head? ≠ some '\'') :
    next dialect '\'' (content.doubling '\'' ++ '\'' :: rest)
      = (literal (Value.textLiteral content), rest) := by
  rw [next, if_pos rfl, spanQuoted_doubling _ _ _ h]
  rfl

/-- A quoted name stands at the start of a text that does not double its closing quote. -/
theorem next_quote (dialect : Dialect) (name : Text) {rest : Text}
    (h : rest.head? ≠ some dialect.closeQuote) :
    next dialect dialect.openQuote (name.doubling dialect.closeQuote ++ dialect.closeQuote :: rest)
      = (quoted (dialect.quote name), rest) := by
  have hopen : dialect.openQuote ≠ '\'' := by cases dialect <;> decide
  rw [next, if_neg hopen, if_pos rfl, spanQuoted_doubling _ _ _ h]
  rfl

/-- A comment stands at the start of a text that goes on behind its line break. -/
theorem next_comment (dialect : Dialect) {line : Text} (rest : Text) (h : '\n' ∉ line) :
    next dialect '-' ('-' :: (line ++ '\n' :: rest))
      = (comment ('-' :: '-' :: (line ++ ['\n'])), rest) := by
  have hopen : '-' ≠ dialect.openQuote := by cases dialect <;> decide
  have hline : '\n' ∉ '-' :: line := by simpa using h
  rw [next, if_neg (by decide), if_neg hopen, if_pos ⟨rfl, rfl⟩, ← List.cons_append,
    spanLine_append_newline _ hline]
  rfl

/-- Any other character is a piece of its own. -/
theorem next_other (dialect : Dialect) {c : Char} {rest : Text} (hliteral : c ≠ '\'')
    (hquoted : c ≠ dialect.openQuote) (hcomment : ¬(c = '-' ∧ rest.head? = some '-'))
    (hword : isWordChar c = false) : next dialect c rest = (other c, rest) := by
  rw [next, if_neg hliteral, if_neg hquoted, if_neg hcomment, if_neg (by simp [hword])]

/-- A comment starts with two hyphens. -/
theorem hyphens_of_next_eq_comment {dialect : Dialect} {c : Char} {text line after : Text}
    (h : next dialect c text = (comment line, after)) : c = '-' ∧ text.head? = some '-' := by
  unfold next at h
  split at h
  · simp at h
  split at h
  · simp at h
  split at h
  · assumption
  split at h <;> simp at h

/-- A word at the end of a text is all of it. -/
theorem all_of_next_eq_word {dialect : Dialect} {c : Char} {text run : Text}
    (h : next dialect c text = (word run, [])) :
    isWordChar c = true ∧ ∀ d ∈ text, isWordChar d = true := by
  unfold next at h
  split at h
  · simp at h
  split at h
  · simp at h
  split at h
  · simp at h
  split at h
  · next hc =>
    have hdrop : text.dropWhile isWordChar = [] := congrArg Prod.snd h
    exact ⟨hc, List.dropWhile_eq_nil_iff.mp hdrop⟩
  · simp at h

/-- A character that is a piece of its own at the end of a text is all of it. -/
theorem eq_of_next_eq_other {dialect : Dialect} {c d : Char} {text : Text}
    (h : next dialect c text = (other d, [])) :
    c = d ∧ text = [] ∧ c ≠ '\'' ∧ c ≠ dialect.openQuote ∧ isWordChar c = false := by
  unfold next at h
  split at h
  · simp at h
  split at h
  · simp at h
  split at h
  · simp at h
  split at h
  · simp at h
  · next hliteral hquoted _ hword =>
    obtain ⟨hcd, htext⟩ : c = d ∧ text = [] := by simpa using h
    exact ⟨hcd, htext, hliteral, hquoted, by simpa using hword⟩

/-- A complete piece at the end of a text is the same piece in front of whatever does not prolong it. -/
theorem next_append_of_stopsAt {dialect : Dialect} {c : Char} {text : Text} {piece : Lexeme}
    (hnext : next dialect c text = (piece, [])) (hcomplete : piece.IsComplete dialect) {after : Text}
    (hstop : piece.StopsAt dialect after) : next dialect c (text ++ after) = (piece, after) := by
  -- The piece is all of the text, and its kind tells how it is closed.
  have htext : c :: text = piece.text := by
    have happend := text_next_append dialect c text
    rw [hnext, List.append_nil] at happend
    exact happend.symm
  cases piece with
  | word run =>
    obtain ⟨hc, hall⟩ := all_of_next_eq_word hnext
    rw [next_word dialect hc hall hstop, htext]
    rfl
  | quoted run =>
    obtain ⟨name, rfl⟩ := hcomplete
    obtain ⟨rfl, hbody⟩ := List.cons.inj htext
    have hrun : text ++ after = name.doubling dialect.closeQuote ++ dialect.closeQuote :: after := by
      rw [hbody]
      simp
    rw [hrun]
    exact next_quote dialect name hstop
  | literal run =>
    obtain ⟨content, rfl⟩ := hcomplete
    obtain ⟨rfl, hbody⟩ := List.cons.inj htext
    have hrun : text ++ after = content.doubling '\'' ++ '\'' :: after := by
      rw [hbody]
      simp
    rw [hrun]
    exact next_textLiteral dialect content hstop
  | comment run =>
    -- both hyphens belong to the line that is closed by the line break
    obtain ⟨line, hline, rfl⟩ := hcomplete
    obtain ⟨rfl, hhead⟩ := hyphens_of_next_eq_comment hnext
    obtain ⟨more, rfl⟩ : ∃ more, text = '-' :: more := by
      obtain ⟨d, more, rfl⟩ := List.exists_cons_of_ne_nil (l := text) (by rintro rfl; simp at hhead)
      exact ⟨more, by simpa using hhead⟩
    obtain ⟨body, rfl, rfl⟩ : ∃ body, line = '-' :: '-' :: body ∧ more = body ++ ['\n'] := by
      match line, htext with
      | [], h => simp [Lexeme.text] at h
      | [_], h => simp [Lexeme.text] at h
      | a :: b :: body, h =>
        obtain ⟨rfl, rfl, hmore⟩ : '-' = a ∧ '-' = b ∧ more = body ++ ['\n'] := by
          simpa [Lexeme.text] using h
        exact ⟨body, rfl, hmore⟩
    have hbody : '\n' ∉ body := by simpa using hline
    rw [List.cons_append, List.append_assoc, List.singleton_append, next_comment dialect after hbody]
    rfl
  | other d =>
    obtain ⟨rfl, rfl, hliteral, hquoted, hword⟩ := eq_of_next_eq_other hnext
    exact next_other dialect hliteral hquoted hstop hword

end Lexeme

/-! ## Passages -/

/-- Complete pieces in front of a text that does not prolong the last of them. -/
theorem lex_textOf_append {dialect : Dialect} {pieces : List Lexeme}
    (hcomplete : ∀ piece ∈ pieces, piece.IsComplete dialect)
    (hlex : lex dialect (textOf pieces) = pieces) {after : Text}
    (hstop : ∀ piece ∈ pieces.getLast?, piece.StopsAt dialect after) :
    lex dialect (textOf pieces ++ after) = pieces ++ lex dialect after := by
  induction pieces with
  | nil => rfl
  | cons piece rest ih =>
    -- The text of the pieces starts with some `c`, and what follows the first piece is the text of the rest.
    obtain ⟨c, text, htext⟩ : ∃ c text, textOf (piece :: rest) = c :: text := by
      cases h : textOf (piece :: rest) with
      | nil => simp [h] at hlex
      | cons c text => exact ⟨c, text, rfl⟩
    rw [htext, lex_cons, List.cons.injEq] at hlex
    obtain ⟨hpiece, hrest⟩ := hlex
    have hafter : (Lexeme.next dialect c text).2 = textOf rest := by
      rw [← hrest, textOf_lex]
    rw [hafter] at hrest
    rw [htext, List.cons_append, lex_cons]
    cases rest with
    | nil =>
      -- the last piece: only here does it matter what stands behind
      have hnext : Lexeme.next dialect c text = (piece, []) := Prod.ext hpiece hafter
      rw [Lexeme.next_append_of_stopsAt hnext (hcomplete piece (by simp)) (hstop piece (by simp))]
      rfl
    | cons second more =>
      -- a piece with others behind it ends before the text does
      have hne : (Lexeme.next dialect c text).2 ≠ [] := by
        intro h
        rw [← hafter, h, lex_nil] at hrest
        cases hrest
      rw [Lexeme.next_append_of_ne_nil _ _ _ _ hne, hpiece, hafter]
      have hcompleteRest : ∀ other ∈ second :: more, other.IsComplete dialect := by
        intro other hother
        exact hcomplete other (List.mem_cons_of_mem piece hother)
      have hstopRest : ∀ other ∈ (second :: more).getLast?, other.StopsAt dialect after := by
        intro other hother
        exact hstop other (by simpa using hother)
      rw [ih hcompleteRest hrest hstopRest]
      rfl

/-- A text of complete pieces, cut where lexing cuts it. -/
structure Passage (dialect : Dialect) where
  /-- The pieces, in order. -/
  pieces : List Lexeme
  /-- Every piece is closed. -/
  isComplete : ∀ piece ∈ pieces, piece.IsComplete dialect
  /-- The text of the pieces has these pieces. -/
  lex_textOf : lex dialect (textOf pieces) = pieces

namespace Passage

variable {dialect : Dialect}

/-- The text of a passage. -/
def text (passage : Passage dialect) : Text := textOf passage.pieces

/-- The pieces of a passage come first, then those of the text behind it. -/
theorem lex_append (passage : Passage dialect) {after : Text} (h : after.startsBlank = true) :
    lex dialect (passage.text ++ after) = passage.pieces ++ lex dialect after :=
  lex_textOf_append passage.isComplete passage.lex_textOf
    fun piece _ => piece.stopsAt_of_startsBlank dialect h

/-- The pieces of a passage are those of its text. -/
@[simp] theorem lex_text (passage : Passage dialect) : lex dialect passage.text = passage.pieces :=
  passage.lex_textOf

/-- A run of word characters is a passage of one word. -/
def ofWord (dialect : Dialect) (run : Text) (hne : run ≠ [])
    (hall : ∀ c ∈ run, isWordChar c = true) : Passage dialect where
  pieces := [.word run]
  isComplete := by simp [Lexeme.IsComplete]
  lex_textOf := by
    obtain ⟨c, tail, rfl⟩ := List.exists_cons_of_ne_nil hne
    rw [List.forall_mem_cons] at hall
    have hnext : Lexeme.next dialect c (tail ++ []) = (.word (c :: tail), []) :=
      Lexeme.next_word dialect hall.1 hall.2 rfl
    rw [List.append_nil] at hnext
    show lex dialect (c :: tail ++ []) = _
    rw [List.append_nil, lex_cons, hnext, lex_nil]

/-- A word in front of white space or the end of the text is the first piece. -/
theorem lex_word_append {run : Text} (hne : run ≠ []) (hall : ∀ c ∈ run, isWordChar c = true)
    {after : Text} (h : after.startsBlank = true) :
    lex dialect (run ++ after) = .word run :: lex dialect after := by
  have hlex := (ofWord dialect run hne hall).lex_append h
  rwa [text, ofWord, textOf_cons, textOf_nil, List.append_nil] at hlex

end Passage

/-- White space is cut into single characters. -/
theorem lex_blank_append (dialect : Dialect) {blanks : Text} (rest : Text)
    (h : blanks.isAllBlank = true) :
    lex dialect (blanks ++ rest) = blanks.map Lexeme.other ++ lex dialect rest := by
  induction blanks with
  | nil => rfl
  | cons c tail ih =>
    rw [Text.isAllBlank_cons, Bool.and_eq_true] at h
    -- a blank opens no quotes and no comment
    have hliteral : c ≠ '\'' := ne_of_isBlank h.1 (by decide)
    have hquoted : c ≠ dialect.openQuote := ne_of_isBlank h.1 (isBlank_openQuote dialect)
    have hcomment : ¬(c = '-' ∧ (tail ++ rest).head? = some '-') := by
      rintro ⟨hdash, -⟩
      exact ne_of_isBlank h.1 (by decide) hdash
    have hnext : Lexeme.next dialect c (tail ++ rest) = (.other c, tail ++ rest) :=
      Lexeme.next_other dialect hliteral hquoted hcomment (isWordChar_eq_false_of_isBlank h.1)
    rw [List.cons_append, lex_cons, hnext, ih h.2]
    rfl

/-- Single characters write themselves. -/
@[simp] theorem textOf_map_other (text : Text) : textOf (text.map Lexeme.other) = text := by
  induction text with
  | nil => rfl
  | cons c tail ih => rw [List.map_cons, textOf_cons, ih]; rfl

end BulkDml
