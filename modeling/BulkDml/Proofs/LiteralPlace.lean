import BulkDml.Proofs.LeadingBlank
import BulkDml.Proofs.PieceCut

/-! # Places of literals in a source text

A literal starts with an apostrophe that lexing meets outside of all other pieces, and what stands in front
of it is cut in the same way whatever the literal holds.  How declarations are told from the query is another
matter: lines are looked at before anything is cut into pieces, and a literal may have several.

* `OpensLiteral`, `withLiteral`, `IsLiteralAt` — a text up to a literal, a text around one, and the literals
  that lexing finds;
* `OpensLiteral.exists_lex_append` — what is cut in front of a literal and behind it;
* `IsSettled`, `splitPreamble_append` — where declarations are told from the query in front of the literal;
* `HasBlankLine`, `exists_splitPreamble_withLiteral` — and how they are told from it otherwise;
* `SourceQuery.ofPieces_literal`, `SourceQuery.ofPieces_literal_table` — the checks of a query pass over
  literals.
-/

namespace BulkDml

/-! ## The pieces around a literal -/

/-- Whether a text ends in an apostrophe that opens a literal. -/
def OpensLiteral (dialect : Dialect) (text : Text) : Prop :=
  (lex dialect text).getLast? = some (.literal ['\''])

instance (dialect : Dialect) (text : Text) : Decidable (OpensLiteral dialect text) :=
  inferInstanceAs (Decidable (_ = _))

/-- A text with a literal between two others. -/
def withLiteral (before content behind : Text) : Text :=
  before ++ (Value.textLiteral content ++ behind)

/-- Whether the literal between two texts is one of the pieces that the whole of them is cut into. -/
def IsLiteralAt (dialect : Dialect) (before content behind : Text) : Prop :=
  ∃ front back, textOf front = before ∧ textOf back = behind
    ∧ lex dialect (withLiteral before content behind)
      = front ++ .literal (Value.textLiteral content) :: back

/-- A text with a literal goes on behind the opening apostrophe with the content, the closing apostrophe and
the text behind. -/
theorem withLiteral_eq (before content behind : Text) :
    withLiteral before content behind
      = before ++ ['\''] ++ (content.doubling '\'' ++ '\'' :: behind) := by
  simp [withLiteral, Value.textLiteral]

/-- The pieces of a text up to an opening apostrophe. -/
theorem OpensLiteral.exists_lex_eq {dialect : Dialect} {text : Text} (h : OpensLiteral dialect text) :
    ∃ front, text = textOf front ++ ['\''] ∧ lex dialect text = front ++ [.literal ['\'']] := by
  obtain ⟨front, hfront⟩ := List.getLast?_eq_some_iff.mp h
  refine ⟨front, ?_, hfront⟩
  have htext := congrArg textOf hfront
  simpa [Lexeme.text] using htext

/-- **What stands in front of a literal is cut alike** whatever the literal holds, and so is what stands
behind it. -/
theorem OpensLiteral.exists_lex_append {dialect : Dialect} {text : Text} (h : OpensLiteral dialect text) :
    ∃ front, text = textOf front ++ ['\'']
      ∧ (∀ rest, lex dialect (text ++ rest) = front ++ lex dialect ('\'' :: rest))
      ∧ ∀ content behind : Text, behind.head? ≠ some '\'' →
        lex dialect (text ++ (content.doubling '\'' ++ '\'' :: behind))
          = front ++ .literal (Value.textLiteral content) :: lex dialect behind := by
  obtain ⟨front, rfl, hlex⟩ := h.exists_lex_eq
  have happend : ∀ rest, lex dialect (textOf front ++ ['\''] ++ rest)
      = front ++ lex dialect ('\'' :: rest) := by
    intro rest
    rw [List.append_assoc]
    exact lex_append_congr hlex (List.cons_ne_nil _ _) rfl
  refine ⟨front, rfl, happend, ?_⟩
  intro content behind hbehind
  have hends : (Lexeme.literal (Value.textLiteral content)).EndsBefore dialect behind :=
    ⟨content, .inl ⟨rfl, hbehind⟩⟩
  have hliteral : Value.textLiteral content ++ behind
      = '\'' :: (content.doubling '\'' ++ '\'' :: behind) := by
    simp [Value.textLiteral]
  rw [happend, ← hliteral]
  exact congrArg _ (Lexeme.lex_text_append hends)

/-- Behind an opening apostrophe there is a literal, unless its closing apostrophe is doubled. -/
theorem OpensLiteral.isLiteralAt_iff {dialect : Dialect} {before content behind : Text}
    (h : OpensLiteral dialect (before ++ ['\''])) :
    IsLiteralAt dialect before content behind ↔ behind.head? ≠ some '\'' := by
  constructor
  · rintro ⟨front, back, -, rfl, hlex⟩
    obtain ⟨other, ⟨-, hbehind⟩ | ⟨-, hbehind⟩⟩ := endsBefore_of_lex_eq hlex
    · exact hbehind
    · rw [hbehind]
      simp
  · intro hbehind
    obtain ⟨front, htext, -, hlex⟩ := h.exists_lex_append
    refine ⟨front, lex dialect behind, ?_, textOf_lex _ _, ?_⟩
    · exact (List.append_cancel_right htext).symm
    · rw [withLiteral_eq]
      exact hlex content behind hbehind

/-- White space in front of a text has no part in how it is cut. -/
theorem OpensLiteral.trimStart {dialect : Dialect} {text : Text} (h : OpensLiteral dialect text) :
    OpensLiteral dialect text.trimStart := by
  have hblank : Text.isAllBlank (text.takeWhile isBlank) = true := List.all_takeWhile
  have hlex := lex_blank_append dialect text.trimStart hblank
  rw [Text.trimStart, List.takeWhile_append_dropWhile, ← Text.trimStart] at hlex
  rw [OpensLiteral, hlex, List.getLast?_append] at h
  cases hlast : (lex dialect text.trimStart).getLast? with
  | some piece =>
    rw [hlast] at h
    rw [OpensLiteral, hlast]
    exact h
  | none =>
    -- white space ends in no apostrophe
    rw [hlast, Option.none_or] at h
    obtain ⟨c, -, hc⟩ := List.mem_map.mp (List.mem_of_getLast? h)
    cases hc

/-- No piece in front of an apostrophe ends in one. -/
theorem Lexeme.EndsBefore.getLast?_ne_apostrophe {dialect : Dialect} {piece : Lexeme} {after : Text}
    (h : piece.EndsBefore dialect ('\'' :: after)) : piece.text.getLast? ≠ some '\'' := by
  cases piece with
  | word run =>
    intro hlast
    exact absurd (h.2.1 _ (List.mem_of_getLast? hlast)) (by decide)
  | quoted run =>
    obtain ⟨name, ⟨rfl, -⟩ | ⟨-, hnil⟩⟩ := h
    · have hclose : dialect.closeQuote ≠ '\'' := by cases dialect <;> decide
      rw [text, Dialect.quote, List.getLast?_concat]
      simpa using hclose
    · cases hnil
  | literal run =>
    obtain ⟨content, ⟨-, hafter⟩ | ⟨-, hnil⟩⟩ := h
    · exact absurd rfl hafter
    · cases hnil
  | comment run =>
    obtain ⟨line, -, rfl | ⟨-, hnil⟩⟩ := h
    · rw [text, ← List.cons_append, ← List.cons_append, List.getLast?_concat]
      decide
    · cases hnil
  | other c => simpa [text] using h.1

/-- No apostrophe stands in front of one that opens a literal. -/
theorem OpensLiteral.getLast?_ne_apostrophe {dialect : Dialect} {before : Text}
    (h : OpensLiteral dialect (before ++ ['\''])) : before.getLast? ≠ some '\'' := by
  obtain ⟨front, htext, hlex⟩ := h.exists_lex_eq
  rw [List.append_cancel_right htext]
  rcases List.eq_nil_or_concat front with rfl | ⟨front, piece, rfl⟩
  · simp
  · -- the last piece in front ends where the literal starts
    rw [List.concat_eq_append, List.append_assoc, List.singleton_append] at hlex
    have hends : piece.EndsBefore dialect ['\''] := endsBefore_of_lex_eq hlex
    rw [List.concat_eq_append, textOf_append, textOf_cons, textOf_nil, List.append_nil,
      List.getLast?_append_of_ne_nil _ hends.text_ne_nil]
    exact hends.getLast?_ne_apostrophe

/-! ## Declarations in front of a literal -/

/-- No line is empty. -/
theorem ne_nil_of_mem_linesOf {text line : Text} (h : line ∈ linesOf text) : line ≠ [] := by
  fun_induction linesOf text with
  | case1 => cases h
  | case2 rest ih =>
    rcases List.mem_cons.mp h with rfl | h
    · exact List.cons_ne_nil _ _
    · exact ih h
  | case3 c rest hc hlines ih =>
    rw [List.mem_singleton.mp h]
    exact List.cons_ne_nil _ _
  | case4 c rest hc first others hlines ih =>
    rcases List.mem_cons.mp h with rfl | h
    · exact List.cons_ne_nil _ _
    · exact ih (by rw [hlines]; exact List.mem_cons_of_mem _ h)

/-- A text is split in front of a line. -/
theorem ne_nil_of_splitAtBlankLine {text head behind : Text}
    (h : splitAtBlankLine text = some (head, behind)) : behind ≠ [] := by
  unfold splitAtBlankLine at h
  split at h
  · cases h
  next first lines hlines =>
  dsimp only at h
  split at h
  · cases h
  next hbehind =>
  rw [Option.some.injEq, Prod.mk.injEq] at h
  obtain ⟨-, rfl⟩ := h
  -- the first of the lines behind is one of the text
  obtain ⟨blank, more, hmore⟩ := List.exists_cons_of_ne_nil (mt List.isEmpty_iff.mpr hbehind)
  have hmem : blank ∈ linesOf text := by
    have hothers := List.takeWhile_append_dropWhile (p := fun line : Text => !line.isAllBlank) (l := lines)
    rw [hmore] at hothers
    rw [hlines, ← hothers]
    simp
  rw [hmore, List.flatten_cons]
  exact List.append_ne_nil_of_left_ne_nil (ne_nil_of_mem_linesOf hmem) _

/-- What a text ends in stands behind the blank line that it is split at. -/
theorem exists_concat_of_splitAtBlankLine {text head behind : Text} {c : Char}
    (h : splitAtBlankLine (text ++ [c]) = some (head, behind)) :
    ∃ others, behind = others ++ [c] ∧ text = head ++ others := by
  obtain ⟨happend, -⟩ := append_of_splitAtBlankLine h
  rcases List.eq_nil_or_concat behind with hnil | ⟨others, d, rfl⟩
  · exact absurd hnil (ne_nil_of_splitAtBlankLine h)
  · rw [List.concat_eq_append, ← List.append_assoc] at happend
    obtain ⟨rfl, hd⟩ := List.append_inj' happend rfl
    exact ⟨others, by rw [List.concat_eq_append, hd], rfl⟩

/-- Trimming the end of a text goes no further than to a character that is not blank. -/
theorem exists_trimEnd_append_cons {c : Char} (hc : isBlank c = false) (rest : Text) :
    ∃ tail : Text, tail <+: rest
      ∧ ∀ before : Text, (before ++ c :: rest).trimEnd = before ++ c :: tail := by
  obtain ⟨blanks, hblanks, hrest⟩ := Text.exists_trimEnd_append rest
  refine ⟨rest.trimEnd, ⟨blanks, hrest.symm⟩, ?_⟩
  intro before
  have hfilled : Text.isAllBlank [c] = false := by simp [hc]
  cases hblank : rest.isAllBlank with
  | false =>
    have happend := Text.trimEnd_append_of_not_blank (before ++ [c]) hblank
    simpa using happend
  | true =>
    have happend := Text.trimEnd_append_blank (before ++ [c]) hblank
    rw [List.append_assoc, List.singleton_append] at happend
    rw [happend, Text.trimEnd_append_of_not_blank before hfilled, Text.trimEnd_eq_nil_iff.mpr hblank]
    simp [Text.trimEnd, hc]

/-- Declarations in front of a blank line are told from the query, unless part of it stands in them. -/
theorem splitPreamble_of_splitAtBlankLine (dialect : Dialect) {text head behind declarations : Text}
    (hcut : splitAtBlankLine text = some (head, behind)) (htrim : head.trimEnd = declarations)
    (hne : declarations ≠ []) :
    splitPreamble dialect text
      = if startsQuery dialect declarations then (none, text.trimStart)
        else (some declarations, behind.trimStart) := by
  subst htrim
  rw [splitPreamble, hcut]
  simp only [List.isEmpty_eq_false_iff.mpr hne, Bool.false_or]

/-- Whether a text settles where declarations are told from the query, whatever follows it: at a blank line
in it, or not at all, since part of the query stands in it. -/
def IsSettled (dialect : Dialect) (text : Text) : Prop :=
  (splitAtBlankLine text).isSome = true ∨ startsQuery dialect text = true

instance (dialect : Dialect) (text : Text) : Decidable (IsSettled dialect text) :=
  inferInstanceAs (Decidable (_ ∨ _))

/-- Part of a query in front of a literal is part of it whatever follows. -/
theorem OpensLiteral.startsQuery_append {dialect : Dialect} {text : Text} (h : OpensLiteral dialect text)
    (hquery : startsQuery dialect text = true) (rest : Text) : startsQuery dialect (text ++ rest) = true := by
  obtain ⟨front, htext, happend, -⟩ := h.exists_lex_append
  have hwhole := happend []
  rw [List.append_nil] at hwhole
  have hnone : lex dialect ['\''] = [.literal ['\'']] := by cases dialect <;> decide +kernel
  rw [startsQuery, hwhole, hnone, List.any_append, Bool.or_eq_true] at hquery
  rw [startsQuery, happend, List.any_append, Bool.or_eq_true]
  rcases hquery with hquery | hquery
  · exact .inl hquery
  · simp [Lexeme.isKeyword] at hquery

/-- **Where it is settled in front of a literal where declarations end**, nothing behind matters. -/
theorem splitPreamble_append {dialect : Dialect} {text : Text} (hopens : OpensLiteral dialect text)
    (h : IsSettled dialect text) (rest : Text) :
    splitPreamble dialect (text ++ rest)
      = ((splitPreamble dialect text).1, (splitPreamble dialect text).2 ++ rest) := by
  obtain ⟨front, htext, -⟩ := hopens.exists_lex_eq
  have hquote : isBlank '\'' = false := by decide
  have hstart : (text ++ rest).trimStart = text.trimStart ++ rest := by
    rw [htext, Text.trimStart_append_cons hquote, List.append_assoc, List.append_assoc]
    exact Text.trimStart_append_cons hquote _ _
  have hsplit := splitAtBlankLine_append_cons (textOf front) hquote rest
  have hshape : textOf front ++ '\'' :: rest = text ++ rest := by simp [htext]
  rw [hshape, ← htext] at hsplit
  unfold splitPreamble
  rw [hsplit, hstart]
  cases hcut : splitAtBlankLine text with
  | some parts =>
    -- what stands behind the blank line ends in the apostrophe
    obtain ⟨head, behind⟩ := parts
    obtain ⟨others, rfl, -⟩ := exists_concat_of_splitAtBlankLine (htext ▸ hcut)
    have hbehind : (others ++ ['\''] ++ rest).trimStart = (others ++ ['\'']).trimStart ++ rest := by
      rw [Text.trimStart_append_cons hquote, List.append_assoc, List.append_assoc]
      exact Text.trimStart_append_cons hquote _ _
    simp only [hbehind]
    split <;> rfl
  | none =>
    -- a blank line further on would follow part of the query
    have hquery : startsQuery dialect text = true := by
      rcases h with hsome | hquery
      · rw [hcut] at hsome
        cases hsome
      · exact hquery
    cases hlater : splitAtBlankLine ('\'' :: rest) with
    | none => rfl
    | some parts =>
      obtain ⟨head, behind⟩ := parts
      obtain ⟨tail, rfl, -⟩ := exists_cons_of_splitAtBlankLine (by decide) hlater
      obtain ⟨kept, -, htrim⟩ := exists_trimEnd_append_cons hquote tail
      have hmore := hopens.startsQuery_append hquery kept
      rw [htext, List.append_assoc, List.singleton_append] at hmore
      simp only [Option.map_some, htrim, hmore, Bool.or_true, if_true]

/-- Whether a literal has a blank line behind its first line. -/
def HasBlankLine (content : Text) : Prop := (splitAtBlankLine (Value.textLiteral content)).isSome = true

/-- Where neither the text in front nor the literal has a blank line, it is looked for behind. -/
theorem splitAtBlankLine_withLiteral {before content : Text}
    (hbefore : splitAtBlankLine (before ++ ['\'']) = none) (hcontent : ¬HasBlankLine content)
    (behind : Text) :
    splitAtBlankLine (withLiteral before content behind)
      = (splitAtBlankLine ('\'' :: behind)).map fun (head, rest) =>
        (before ++ '\'' :: content.doubling '\'' ++ head, rest) := by
  have hquote : isBlank '\'' = false := by decide
  have hliteral : splitAtBlankLine ('\'' :: content.doubling '\'' ++ ['\'']) = none := by
    simpa [HasBlankLine, Value.textLiteral] using hcontent
  have hinside := splitAtBlankLine_append_cons ('\'' :: content.doubling '\'') hquote behind
  have hwhole := splitAtBlankLine_append_cons before hquote (content.doubling '\'' ++ '\'' :: behind)
  rw [hliteral] at hinside
  rw [List.cons_append] at hinside
  rw [hbefore, hinside] at hwhole
  rw [withLiteral_eq, List.append_assoc, List.singleton_append, hwhole]
  cases splitAtBlankLine ('\'' :: behind) with
  | none => rfl
  | some parts => simp

/-- What starts a query is a word, and no literal. -/
theorem OpensLiteral.startsQuery_withLiteral {dialect : Dialect} {before : Text}
    (h : OpensLiteral dialect (before ++ ['\''])) (content : Text) {behind : Text}
    (hbehind : behind.head? ≠ some '\'') :
    startsQuery dialect (withLiteral before content behind)
      = (startsQuery dialect (before ++ ['\'']) || startsQuery dialect behind) := by
  obtain ⟨front, -, happend, hlex⟩ := h.exists_lex_append
  have hwhole := happend []
  have hnone : lex dialect ['\''] = [.literal ['\'']] := by cases dialect <;> decide +kernel
  rw [List.append_nil, hnone] at hwhole
  rw [startsQuery, startsQuery, startsQuery, withLiteral_eq, hlex _ _ hbehind, hwhole]
  simp [Lexeme.isKeyword]

/-- **Where no blank line is found up to the end of a literal**, the declarations are told from the query
behind it, whatever the literal holds, or not at all. -/
theorem exists_splitPreamble_withLiteral {dialect : Dialect} {before behind : Text}
    (hopens : OpensLiteral dialect (before ++ ['\''])) (hbefore : splitAtBlankLine (before ++ ['\'']) = none)
    (hbehind : behind.head? ≠ some '\'') :
    (∀ content, ¬HasBlankLine content →
        splitPreamble dialect (withLiteral before content behind)
          = (none, (withLiteral before content behind).trimStart))
      ∨ ∃ tail rest, ∀ content, ¬HasBlankLine content →
        splitPreamble dialect (withLiteral before content behind)
          = (some (withLiteral before content tail), rest) := by
  cases hcut : splitAtBlankLine ('\'' :: behind) with
  | none =>
    left
    intro content hcontent
    rw [splitPreamble, splitAtBlankLine_withLiteral hbefore hcontent, hcut]
    rfl
  | some parts =>
    obtain ⟨head, rest⟩ := parts
    obtain ⟨more, rfl, hmore⟩ := exists_cons_of_splitAtBlankLine (by decide) hcut
    -- the declarations go on behind the literal up to the white space in front of the blank line
    obtain ⟨tail, hwithin, htrim⟩ := exists_trimEnd_append_cons (by decide : isBlank '\'' = false) more
    have htail : tail.head? ≠ some '\'' := by
      intro hhead
      obtain ⟨others, rfl⟩ := hwithin
      rw [hmore] at hbehind
      cases tail with
      | nil => cases hhead
      | cons c tail => exact hbehind hhead
    have hdeclarations : ∀ content : Text,
        (before ++ '\'' :: content.doubling '\'' ++ '\'' :: more).trimEnd
          = withLiteral before content tail := by
      intro content
      rw [htrim, withLiteral_eq]
      simp
    have hne : ∀ content : Text, withLiteral before content tail ≠ [] := by
      intro content
      simp [withLiteral, Value.textLiteral]
    have hsplit : ∀ content, ¬HasBlankLine content →
        splitPreamble dialect (withLiteral before content behind)
          = if startsQuery dialect (before ++ ['\'']) || startsQuery dialect tail then
              (none, (withLiteral before content behind).trimStart)
            else (some (withLiteral before content tail), rest.trimStart) := by
      intro content hcontent
      have hwhole := splitAtBlankLine_withLiteral hbefore hcontent behind
      rw [hcut] at hwhole
      rw [splitPreamble_of_splitAtBlankLine _ hwhole (hdeclarations content) (hne content),
        hopens.startsQuery_withLiteral content htail]
    by_cases hquery : (startsQuery dialect (before ++ ['\'']) || startsQuery dialect tail) = true
    · -- part of the query stands in front of the blank line
      left
      intro content hcontent
      rw [hsplit content hcontent, if_pos hquery]
    · right
      refine ⟨tail, rest.trimStart, ?_⟩
      intro content hcontent
      rw [hsplit content hcontent, if_neg hquery]

/-! ## The query around a literal -/

/-- **A literal is no keyword**: pieces are split in front of it or behind it. -/
theorem splitKeyword_append_literal (keyword : Keyword) (front back : List Lexeme) (run : Text) :
    splitKeyword keyword (front ++ .literal run :: back)
      = match splitKeyword keyword front with
        | some (before, found, behind) => some (before, found, behind ++ .literal run :: back)
        | none => (splitKeyword keyword back).map fun (before, found, behind) =>
          (front ++ .literal run :: before, found, behind) := by
  induction front with
  | nil => rfl
  | cons piece rest ih =>
    rw [List.cons_append, splitKeyword, splitKeyword]
    by_cases hpiece : piece.isKeyword keyword = true
    · rw [if_pos hpiece, if_pos hpiece]
    · rw [if_neg hpiece, if_neg hpiece, ih]
      cases splitKeyword keyword rest with
      | some parts => rfl
      | none => cases splitKeyword keyword back <;> rfl

/-- A literal mentions nothing. -/
theorem mentions_append_literal (keyword : Keyword) (front back : List Lexeme) (run : Text) :
    mentions keyword (front ++ .literal run :: back) = mentions keyword (front ++ back) := by
  simp [Lexeme.isKeyword]

/-- A literal is no alias. -/
theorem find?_isToken_append_literal (front back : List Lexeme) (run : Text) :
    (front ++ .literal run :: back).find? Lexeme.isToken = (front ++ back).find? Lexeme.isToken := by
  simp [List.find?_append, Lexeme.isToken]

/-- A text with a literal is not blank. -/
theorem isEmpty_trim_textOf_literal (front back : List Lexeme) (content : Text) :
    (textOf (front ++ .literal (Value.textLiteral content) :: back)).trim.isEmpty = false := by
  have hquote : isBlank '\'' = false := by decide
  have hshape : textOf (front ++ .literal (Value.textLiteral content) :: back)
      = textOf front ++ '\'' :: (content.doubling '\'' ++ '\'' :: textOf back) := by
    simp [Lexeme.text, Value.textLiteral]
  obtain ⟨tail, -, htrim⟩ :=
    exists_trimEnd_append_cons hquote (content.doubling '\'' ++ '\'' :: textOf back)
  rw [hshape, Text.trim, Text.trimStart_append_cons hquote, htrim]
  simp

namespace SourceQuery

/-- Whether a place between pieces lies behind `FROM` and in front of the first `AS` behind it. -/
def IsInTable (front back : List Lexeme) : Prop :=
  ∃ items fromWord start, splitKeyword .FROM front = some (items, fromWord, start)
    ∧ mentions .AS start = false ∧ mentions .AS back = true

/-- **The checks of a query pass over a literal** that is not part of the table. -/
theorem ofPieces_literal {front back : List Lexeme} (h : ¬IsInTable front back) (first second : Text) :
    (ofPieces none (front ++ .literal first :: back)).map (fun query => (query.table, query.tableAlias))
      = (ofPieces none (front ++ .literal second :: back)).map
        (fun query => (query.table, query.tableAlias)) := by
  unfold ofPieces
  simp only [splitKeyword_append_literal, mentions_append_literal]
  cases hfrom : splitKeyword .FROM front with
  | none =>
    -- the literal stands among the items
    cases splitKeyword .FROM back with
    | none => rfl
    | some parts => simp only [Option.map_some, mentions_append_literal]
  | some parts =>
    obtain ⟨items, fromWord, start⟩ := parts
    simp only [splitKeyword_append_literal, mentions_append_literal]
    cases has : splitKeyword .AS start with
    | none =>
      -- no table ends behind the literal
      have hback : splitKeyword .AS back = none := by
        rw [splitKeyword_eq_none_iff]
        by_contra hmentions
        exact h ⟨items, fromWord, start, hfrom, splitKeyword_eq_none_iff.mp has, by simpa using hmentions⟩
      simp only [hback, Option.map_none]
    | some parts =>
      obtain ⟨table, asWord, middle⟩ := parts
      simp only [splitKeyword_append_literal]
      cases splitKeyword .WHERE middle with
      | none =>
        -- the literal stands behind the alias or in front of it
        cases splitKeyword .WHERE back with
        | none => simp only [Option.map_none]
        | some parts =>
          simp only [Option.map_some, mentions_append_literal, find?_isToken_append_literal]
      | some parts =>
        -- the literal stands in the condition
        dsimp only
        repeat' split
        all_goals rfl

/-- A literal that is part of the table does not matter to the checks either. -/
theorem ofPieces_literal_table {front back : List Lexeme} (h : IsInTable front back)
    (first second : Text) :
    (ofPieces none (front ++ .literal (Value.textLiteral first) :: back)).map (·.tableAlias)
      = (ofPieces none (front ++ .literal (Value.textLiteral second) :: back)).map (·.tableAlias) := by
  obtain ⟨items, fromWord, start, hfrom, has, -⟩ := h
  unfold ofPieces
  simp only [splitKeyword_append_literal, mentions_append_literal, hfrom,
    splitKeyword_eq_none_iff.mpr has]
  cases splitKeyword .AS back with
  | none => simp only [Option.map_none]
  | some parts =>
    simp only [Option.map_some, mentions_append_literal, isEmpty_trim_textOf_literal]
    repeat' split
    all_goals rfl

end SourceQuery

/-- The pieces of a query from `AS` on. -/
def QueryLayout.fromAs (layout : QueryLayout) : List Lexeme :=
  layout.asWord :: (layout.lead
    ++ layout.aliasToken :: (layout.gap ++ layout.whereWord :: layout.condition))

/-- A literal between `FROM` and `AS` of a query that is accepted is part of its table. -/
theorem SourceQuery.IsInTable.exists_isFramed {front back : List Lexeme} (h : IsInTable front back)
    {run : Text} {preamble : Option Text} {query : SourceQuery}
    (hquery : ofPieces preamble (front ++ .literal run :: back) = .ok query) :
    ∃ (layout : QueryLayout) (before behind : List Lexeme), layout.IsFramed
      ∧ layout.pieces = front ++ .literal run :: back
      ∧ layout.table = before ++ .literal run :: behind ∧ behind ++ layout.fromAs = back := by
  obtain ⟨items, fromWord, start, hfrom, has, -⟩ := h
  obtain ⟨layout, hframed, hpieces, -⟩ := exists_isFramed_of_ofPieces hquery
  have hfromSplit := hframed.splitKeyword_from
  rw [← hpieces, splitKeyword_append_literal, hfrom] at hfromSplit
  simp only [Option.some.injEq, Prod.mk.injEq] at hfromSplit
  obtain ⟨-, -, hbehind⟩ := hfromSplit
  have hasSplit := hframed.splitKeyword_as
  rw [← hbehind, splitKeyword_append_literal, splitKeyword_eq_none_iff.mpr has] at hasSplit
  obtain ⟨⟨rest, asWord, others⟩, hparts, htable⟩ := Option.map_eq_some_iff.mp hasSplit
  simp only [Prod.mk.injEq] at htable
  obtain ⟨htable, rfl, rfl⟩ := htable
  exact ⟨layout, start, rest, hframed, hpieces.symm, htable.symm, (eq_append_of_splitKeyword hparts).symm⟩

end BulkDml
