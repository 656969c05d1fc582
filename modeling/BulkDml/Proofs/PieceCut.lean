import BulkDml.Proofs.Passage
import BulkDml.Proofs.SegmentSplit

/-! # Where pieces end

A piece is what stands in front of the text behind it, and of that text only the first character matters.  So
the pieces up to some place of a text stay the same, whatever stands behind the character at that place.

* `Lexeme.EndsBefore` — what a piece in front of a text looks like;
* `lex_text_append`, `endsBefore_of_lex_eq` — such pieces are what lexing finds, and nothing else;
* `Lexeme.isSplit_iff` — a text is cut into such pieces in one way;
* `lex_append_congr` — the pieces up to a place do not depend on what stands behind it.
-/

namespace BulkDml

/-- A line ends in its line break, or with the text. -/
theorem exists_spanLine_eq (text : Text) :
    ∃ line : Text, '\n' ∉ line ∧ ((spanLine text).1 = line ++ ['\n']
      ∨ (spanLine text).1 = line ∧ (spanLine text).2 = []) := by
  fun_induction spanLine text with
  | case1 => exact ⟨[], List.not_mem_nil, .inr ⟨rfl, rfl⟩⟩
  | case2 rest => exact ⟨[], List.not_mem_nil, .inl rfl⟩
  | case3 c rest hc run after hspan ih =>
    rw [hspan] at ih
    obtain ⟨line, hline, hends⟩ := ih
    refine ⟨c :: line, by simp [hline, Ne.symm hc], ?_⟩
    rcases hends with (rfl : run = _) | ⟨(rfl : run = _), hafter⟩
    · exact .inl rfl
    · exact .inr ⟨rfl, hafter⟩

/-- A text without a line break is one line. -/
theorem spanLine_of_notMem {line : Text} (h : '\n' ∉ line) : spanLine line = (line, []) := by
  induction line with
  | nil => rfl
  | cons c tail ih =>
    rw [List.mem_cons, not_or] at h
    rw [spanLine, if_neg (Ne.symm h.1), ih h.2]

namespace Lexeme

variable {dialect : Dialect}

/-- Whether a piece is what stands in front of a text.  Quoted identifiers and literals go up to a single
closing quote, and comments up to a line break, or all of these up to the end of the text; a word is a longest
run of word characters; any other character starts none of them. -/
def EndsBefore (dialect : Dialect) (after : Text) : Lexeme → Prop
  | word run => run ≠ [] ∧ (∀ c ∈ run, isWordChar c = true) ∧ after.head?.all (!isWordChar ·) = true
  | quoted run => ∃ name, run = dialect.quote name ∧ after.head? ≠ some dialect.closeQuote
      ∨ run = dialect.openQuote :: name.doubling dialect.closeQuote ∧ after = []
  | literal run => ∃ content, run = Value.textLiteral content ∧ after.head? ≠ some '\''
      ∨ run = '\'' :: content.doubling '\'' ∧ after = []
  | comment run => ∃ line, '\n' ∉ line
      ∧ (run = '-' :: '-' :: (line ++ ['\n']) ∨ run = '-' :: '-' :: line ∧ after = [])
  | other c => c ≠ '\'' ∧ c ≠ dialect.openQuote ∧ isWordChar c = false
      ∧ ¬(c = '-' ∧ after.head? = some '-')

/-- What is taken off a text is what stands in front of the rest of it. -/
theorem endsBefore_next (dialect : Dialect) (c : Char) (rest : Text) :
    (next dialect c rest).1.EndsBefore dialect (next dialect c rest).2 := by
  by_cases hliteral : c = '\''
  · subst hliteral
    rw [next, if_pos rfl]
    obtain ⟨content, ⟨hrun, hafter⟩ | ⟨hrun, hafter⟩⟩ := exists_spanQuoted_eq '\'' rest
    · exact ⟨content, .inl ⟨congrArg ('\'' :: ·) hrun, hafter⟩⟩
    · exact ⟨content, .inr ⟨congrArg ('\'' :: ·) hrun, hafter⟩⟩
  by_cases hquoted : c = dialect.openQuote
  · subst hquoted
    rw [next, if_neg hliteral, if_pos rfl]
    obtain ⟨name, ⟨hrun, hafter⟩ | ⟨hrun, hafter⟩⟩ := exists_spanQuoted_eq dialect.closeQuote rest
    · exact ⟨name, .inl ⟨congrArg (dialect.openQuote :: ·) hrun, hafter⟩⟩
    · exact ⟨name, .inr ⟨congrArg (dialect.openQuote :: ·) hrun, hafter⟩⟩
  by_cases hcomment : c = '-' ∧ rest.head? = some '-'
  · obtain ⟨rfl, hhead⟩ := hcomment
    obtain ⟨more, rfl⟩ : ∃ more, rest = '-' :: more := by
      cases rest with
      | nil => cases hhead
      | cons d more => exact ⟨more, by rw [Option.some_inj.mp hhead]⟩
    rw [next, if_neg hliteral, if_neg hquoted, if_pos ⟨rfl, rfl⟩, spanLine, if_neg (by decide)]
    obtain ⟨line, hline, hrun | ⟨hrun, hafter⟩⟩ := exists_spanLine_eq more
    · exact ⟨line, hline, .inl (congrArg ('-' :: '-' :: ·) hrun)⟩
    · exact ⟨line, hline, .inr ⟨congrArg ('-' :: '-' :: ·) hrun, hafter⟩⟩
  rw [next, if_neg hliteral, if_neg hquoted, if_neg hcomment]
  split
  · next hword =>
    refine ⟨List.cons_ne_nil _ _, ?_, ?_⟩
    · intro d hd
      rcases List.mem_cons.mp hd with rfl | hd
      · exact hword
      · exact List.mem_takeWhile_imp hd
    · have hhead := List.head?_dropWhile_not isWordChar rest
      cases hdrop : rest.dropWhile isWordChar with
      | nil => rfl
      | cons d tail =>
        rw [hdrop] at hhead
        simpa using hhead
  · next hword => exact ⟨hliteral, hquoted, by simpa using hword, hcomment⟩

/-- A piece in front of a text is the first piece of both together. -/
theorem lex_text_append {piece : Lexeme} {after : Text} (h : piece.EndsBefore dialect after) :
    lex dialect (piece.text ++ after) = piece :: lex dialect after := by
  have hopen : dialect.openQuote ≠ '\'' := by cases dialect <;> decide
  have hdash : '-' ≠ dialect.openQuote := by cases dialect <;> decide
  cases piece with
  | word run =>
    obtain ⟨hne, hrun, hafter⟩ := h
    obtain ⟨c, tail, rfl⟩ := List.exists_cons_of_ne_nil hne
    rw [List.forall_mem_cons] at hrun
    rw [text, List.cons_append, lex_cons, next_word dialect hrun.1 hrun.2 hafter]
  | quoted run =>
    obtain ⟨name, ⟨rfl, hafter⟩ | ⟨rfl, rfl⟩⟩ := h
    · have hnext := next_quote dialect name hafter
      rw [text, Dialect.quote, List.cons_append, List.cons_append, lex_cons, List.append_assoc,
        List.singleton_append, hnext]
      rfl
    · have hnext : next dialect dialect.openQuote (name.doubling dialect.closeQuote)
          = (quoted (dialect.openQuote :: name.doubling dialect.closeQuote), []) := by
        rw [next, if_neg hopen, if_pos rfl, spanQuoted_doubling_end]
      rw [text, List.append_nil, lex_cons, hnext]
  | literal run =>
    obtain ⟨content, ⟨rfl, hafter⟩ | ⟨rfl, rfl⟩⟩ := h
    · have hnext := next_textLiteral dialect content hafter
      rw [text, Value.textLiteral, List.cons_append, List.cons_append, lex_cons, List.append_assoc,
        List.singleton_append, hnext]
      rfl
    · have hnext : next dialect '\'' (content.doubling '\'')
          = (literal ('\'' :: content.doubling '\''), []) := by
        rw [next, if_pos rfl, spanQuoted_doubling_end]
      rw [text, List.append_nil, lex_cons, hnext]
  | comment run =>
    obtain ⟨line, hline, rfl | ⟨rfl, rfl⟩⟩ := h
    · rw [text, List.cons_append, List.cons_append, List.append_assoc, List.singleton_append, lex_cons,
        next_comment dialect after hline]
    · have hspan : spanLine ('-' :: line) = ('-' :: line, []) := spanLine_of_notMem (by simp [hline])
      have hnext : next dialect '-' ('-' :: line) = (comment ('-' :: '-' :: line), []) := by
        rw [next, if_neg (by decide), if_neg hdash, if_pos ⟨rfl, rfl⟩, hspan]
      rw [text, List.append_nil, lex_cons, hnext]
  | other c =>
    obtain ⟨hliteral, hquoted, hword, hcomment⟩ := h
    rw [text, List.singleton_append, lex_cons, next_other dialect hliteral hquoted hcomment hword]

/-- A piece at the end of a text is all of its pieces. -/
theorem lex_text {piece : Lexeme} (h : piece.EndsBefore dialect []) : lex dialect piece.text = [piece] := by
  have hlex := lex_text_append h
  rwa [List.append_nil, lex_nil] at hlex

/-- A piece that ends before the text does ends in front of whatever starts with the same character. -/
theorem EndsBefore.congr {piece : Lexeme} {after behind : Text} (h : piece.EndsBefore dialect after)
    (hne : after ≠ []) (hhead : behind.head? = after.head?) : piece.EndsBefore dialect behind := by
  cases piece with
  | word run => exact ⟨h.1, h.2.1, by rw [hhead]; exact h.2.2⟩
  | quoted run =>
    obtain ⟨name, ⟨hrun, hafter⟩ | ⟨-, hnil⟩⟩ := h
    · exact ⟨name, .inl ⟨hrun, by rwa [hhead]⟩⟩
    · exact absurd hnil hne
  | literal run =>
    obtain ⟨content, ⟨hrun, hafter⟩ | ⟨-, hnil⟩⟩ := h
    · exact ⟨content, .inl ⟨hrun, by rwa [hhead]⟩⟩
    · exact absurd hnil hne
  | comment run =>
    obtain ⟨line, hline, hrun | ⟨-, hnil⟩⟩ := h
    · exact ⟨line, hline, .inl hrun⟩
    · exact absurd hnil hne
  | other c => exact ⟨h.1, h.2.1, h.2.2.1, by rw [hhead]; exact h.2.2.2⟩

/-- No piece is empty. -/
theorem EndsBefore.text_ne_nil {piece : Lexeme} {after : Text} (h : piece.EndsBefore dialect after) :
    piece.text ≠ [] := by
  cases piece with
  | word run => exact h.1
  | quoted run =>
    obtain ⟨name, ⟨rfl, -⟩ | ⟨rfl, -⟩⟩ := h
    · exact List.cons_ne_nil _ _
    · exact List.cons_ne_nil _ _
  | literal run =>
    obtain ⟨content, ⟨rfl, -⟩ | ⟨rfl, -⟩⟩ := h
    · exact List.cons_ne_nil _ _
    · exact List.cons_ne_nil _ _
  | comment run =>
    obtain ⟨line, -, rfl | ⟨rfl, -⟩⟩ := h
    · exact List.cons_ne_nil _ _
    · exact List.cons_ne_nil _ _
  | other c => exact List.cons_ne_nil _ _

end Lexeme

/-- The first piece of a text is what stands in front of the text of the others. -/
theorem endsBefore_of_lex_eq_cons {dialect : Dialect} {text : Text} {piece : Lexeme}
    {behind : List Lexeme} (h : lex dialect text = piece :: behind) :
    piece.EndsBefore dialect (textOf behind) := by
  cases text with
  | nil => simp at h
  | cons c rest =>
    rw [lex_cons, List.cons.injEq] at h
    have hends := Lexeme.endsBefore_next dialect c rest
    rwa [h.1, ← textOf_lex dialect (Lexeme.next dialect c rest).2, h.2] at hends

/-- The pieces behind the first are those of the text behind it. -/
theorem lex_textOf_of_lex_eq_cons {dialect : Dialect} {text : Text} {piece : Lexeme}
    {behind : List Lexeme} (h : lex dialect text = piece :: behind) :
    lex dialect (textOf behind) = behind := by
  cases text with
  | nil => simp at h
  | cons c rest =>
    rw [lex_cons, List.cons.injEq] at h
    rw [← h.2, textOf_lex]

/-- Every piece of a text is what stands in front of the text of the pieces behind it. -/
theorem endsBefore_of_lex_eq {dialect : Dialect} {text : Text} {before behind : List Lexeme}
    {piece : Lexeme} (h : lex dialect text = before ++ piece :: behind) :
    piece.EndsBefore dialect (textOf behind) := by
  induction before generalizing text with
  | nil => exact endsBefore_of_lex_eq_cons h
  | cons first more ih => exact ih (lex_textOf_of_lex_eq_cons h)

namespace Lexeme

variable {dialect : Dialect}

/-- The pieces of a list that is a split of its text: each is what stands in front of the text behind it. -/
def IsSplit (dialect : Dialect) : List Lexeme → Prop
  | [] => True
  | piece :: behind => piece.EndsBefore dialect (textOf behind) ∧ IsSplit dialect behind

@[simp] theorem isSplit_cons {piece : Lexeme} {behind : List Lexeme} :
    IsSplit dialect (piece :: behind)
      ↔ piece.EndsBefore dialect (textOf behind) ∧ IsSplit dialect behind :=
  Iff.rfl

/-- The pieces of a text are a split. -/
theorem isSplit_lex (dialect : Dialect) (text : Text) : IsSplit dialect (lex dialect text) := by
  fun_induction lex dialect text with
  | case1 => trivial
  | case2 c rest ih =>
    refine ⟨?_, ih⟩
    rw [textOf_lex]
    exact endsBefore_next dialect c rest

/-- A split consists of the pieces of its text. -/
theorem lex_textOf {pieces : List Lexeme} (h : IsSplit dialect pieces) :
    lex dialect (textOf pieces) = pieces := by
  induction pieces with
  | nil => exact lex_nil dialect
  | cons piece behind ih =>
    rw [isSplit_cons] at h
    rw [textOf_cons, lex_text_append h.1, ih h.2]

/-- **The pieces of a text are its only split.** -/
theorem isSplit_iff {text : Text} {pieces : List Lexeme} :
    textOf pieces = text ∧ IsSplit dialect pieces ↔ pieces = lex dialect text := by
  constructor
  · rintro ⟨rfl, hsplit⟩
    exact (lex_textOf hsplit).symm
  · rintro rfl
    exact ⟨textOf_lex dialect text, isSplit_lex dialect text⟩

end Lexeme

/-- **The pieces up to a place of a text stay the same**, whatever stands behind the character at that
place. -/
theorem lex_append_congr {dialect : Dialect} {after behind : Text} {before rest : List Lexeme}
    (h : lex dialect (textOf before ++ after) = before ++ rest) (hne : after ≠ [])
    (hhead : behind.head? = after.head?) :
    lex dialect (textOf before ++ behind) = before ++ lex dialect behind := by
  induction before with
  | nil => rfl
  | cons piece more ih =>
    -- the piece stands in front of the text of the others, with `after` behind them
    rw [List.cons_append] at h
    have hends := endsBefore_of_lex_eq_cons h
    have hmore := lex_textOf_of_lex_eq_cons h
    have htext : textOf (more ++ rest) = textOf more ++ after := by
      have hwhole := congrArg textOf h
      rw [textOf_lex, textOf_cons, textOf_cons, List.append_assoc] at hwhole
      exact (List.append_cancel_left hwhole).symm
    rw [htext] at hends hmore
    have hhead' : (textOf more ++ behind).head? = (textOf more ++ after).head? := by
      cases textOf more with
      | nil => exact hhead
      | cons c tail => rfl
    have hends' := hends.congr (List.append_ne_nil_of_right_ne_nil _ hne) hhead'
    rw [textOf_cons, List.append_assoc, Lexeme.lex_text_append hends', ih hmore, List.cons_append]

end BulkDml
