import BulkDml.Proofs.LiteralPlace
import BulkDml.Proofs.LiteralText

/-! # What literals hold

No word in a literal is taken for a keyword, so that what a literal outside of the table holds should have no
part in how a query is read.  But blank lines are looked for in literals as anywhere: one in a literal of the
declarations ends them, and the rest of the literal is taken for part of the query.

* `LiesInTable`, `AgreesAround` — a literal of the table, and outcomes that differ in a literal at most;
* `IsIrrelevant` — places at which it does not matter what a literal holds;
* `Lexeme.EndsBefore.exists_breakout` — how a literal gets out of a piece that it is taken for part of;
* `SourceQuery.isIrrelevant_iff` — the places at which any content is irrelevant, and those at which only a
  blank line matters.
-/

namespace BulkDml

/-! ## Outcomes that differ in a literal -/

/-- Outcomes that are mapped to the same one have the same errors. -/
theorem eq_error_of_map_eq {ε α β : Type} {f : α → β} {left right : Except ε α}
    (h : left.map f = right.map f) {cause : ε} (hleft : left = .error cause) : right = .error cause := by
  subst hleft
  cases right with
  | ok value => cases h
  | error other =>
    cases h
    rfl

/-- Whether a literal is part of the table that the query of a text names. -/
def LiesInTable (dialect : Dialect) (before content behind : Text) : Prop :=
  ∃ (layout : QueryLayout) (front back : List Lexeme),
    layout.Reads dialect (withLiteral before content behind)
      ∧ layout.table = front ++ .literal (Value.textLiteral content) :: back
      ∧ textOf (back ++ layout.fromAs) = behind

/-- A literal that is no piece of the query behind the declarations is no part of its table. -/
theorem not_liesInTable_of_notMem {dialect : Dialect} {before content behind : Text}
    (h : .literal (Value.textLiteral content)
      ∉ lex dialect (splitPreamble dialect (withLiteral before content behind)).2) :
    ¬LiesInTable dialect before content behind := by
  rintro ⟨layout, front, back, ⟨-, hpieces⟩, htable, -⟩
  rw [hpieces] at h
  exact h (by simp [QueryLayout.pieces, htable])

namespace SourceQuery

/-- Whether the declarations of two texts that differ in a literal end at the same place: in front of the
literal, or in the same way behind it. -/
def EndsAlike (before first second : Text) : Option Text → Option Text → Prop
  | none, none => True
  | some left, some right => left = right ∧ left <+: before
      ∨ ∃ tail, left = withLiteral before first tail ∧ right = withLiteral before second tail
  | _, _ => False

/-- Whether two texts that differ in a literal are refused for the same cause, or read to the same table and
alias, with declarations that end at the same place. -/
def AgreesAround (before first second : Text) :
    Except CompileError SourceQuery → Except CompileError SourceQuery → Prop
  | .ok left, .ok right => left.table = right.table ∧ left.tableAlias = right.tableAlias
      ∧ EndsAlike before first second left.preamble right.preamble
  | .error left, .error right => left = right
  | _, _ => False

/-- Whether it does not matter which of the allowed contents a literal behind a text has, provided that it is
not part of the table. -/
def IsIrrelevant (dialect : Dialect) (before : Text) (allowed : Text → Prop) : Prop :=
  ∀ first second behind, allowed first → allowed second →
    IsLiteralAt dialect before first behind → IsLiteralAt dialect before second behind →
    ¬LiesInTable dialect before first behind →
    AgreesAround before first second (parse dialect (withLiteral before first behind))
      (parse dialect (withLiteral before second behind))

/-- Outcomes that agree have the same errors. -/
theorem AgreesAround.error_iff {before first second : Text} {left right : Except CompileError SourceQuery}
    (h : AgreesAround before first second left right) (cause : CompileError) :
    left = .error cause ↔ right = .error cause := by
  cases left with
  | ok left =>
    cases right with
    | ok right => simp
    | error right => exact h.elim
  | error left =>
    cases right with
    | ok right => exact h.elim
    | error right =>
      obtain rfl : left = right := h
      rfl

/-- Texts whose queries have the same table and alias agree if their declarations end alike. -/
theorem agreesAround_of_map {dialect : Dialect} {before first second text other : Text}
    (hquery : (ofPieces none (lex dialect (splitPreamble dialect text).2)).map
        (fun query => (query.table, query.tableAlias))
      = (ofPieces none (lex dialect (splitPreamble dialect other).2)).map
        (fun query => (query.table, query.tableAlias)))
    (hends : EndsAlike before first second (splitPreamble dialect text).1 (splitPreamble dialect other).1) :
    AgreesAround before first second (parse dialect text) (parse dialect other) := by
  rw [parse_eq, parse_eq]
  cases hleft : ofPieces none (lex dialect (splitPreamble dialect text).2) with
  | error cause =>
    rw [eq_error_of_map_eq hquery hleft]
    rfl
  | ok left =>
    cases hright : ofPieces none (lex dialect (splitPreamble dialect other).2) with
    | error cause =>
      rw [eq_error_of_map_eq hquery.symm hright] at hleft
      cases hleft
    | ok right =>
      rw [hleft, hright] at hquery
      simp only [Except.map, Except.ok.injEq, Prod.mk.injEq] at hquery
      exact ⟨hquery.1, hquery.2, hends⟩

/-- **Texts with the same query around a literal agree**, unless the literal is part of the table. -/
theorem agreesAround_of_body {dialect : Dialect} {before first second behind body : Text}
    {left right : Option Text}
    (hfirst : splitPreamble dialect (withLiteral before first behind)
      = (left, body ++ (first.doubling '\'' ++ '\'' :: behind)))
    (hsecond : splitPreamble dialect (withLiteral before second behind)
      = (right, body ++ (second.doubling '\'' ++ '\'' :: behind)))
    (hends : EndsAlike before first second left right) (hopens : OpensLiteral dialect body)
    (hbehind : behind.head? ≠ some '\'') (houtside : ¬LiesInTable dialect before first behind) :
    AgreesAround before first second (parse dialect (withLiteral before first behind))
      (parse dialect (withLiteral before second behind)) := by
  obtain ⟨front, -, -, hlex⟩ := hopens.exists_lex_append
  refine agreesAround_of_map ?_ (by rwa [hfirst, hsecond])
  rw [hfirst, hsecond, hlex _ _ hbehind, hlex _ _ hbehind]
  by_cases htable : IsInTable front (lex dialect behind)
  · have hsame := ofPieces_literal_table htable first second
    cases hleft : ofPieces none (front ++ .literal (Value.textLiteral first) :: lex dialect behind) with
    | ok query =>
      -- accepted, the literal would be part of the table
      obtain ⟨layout, items, rest, hframed, hpieces, hliteral, hrest⟩ := htable.exists_isFramed hleft
      refine absurd ⟨layout, items, rest, ⟨hframed, ?_⟩, hliteral, ?_⟩ houtside
      · rw [hfirst, hlex _ _ hbehind, hpieces]
      · rw [hrest, textOf_lex]
    | error cause => rw [eq_error_of_map_eq hsame hleft]
  · exact ofPieces_literal htable _ _

/-- A query is refused for a further `FROM` exactly if it has two of them. -/
theorem ofPieces_eq_duplicateFrom_iff {pieces : List Lexeme} :
    ofPieces none pieces = .error (.duplicateKeyword .FROM)
      ↔ 2 ≤ pieces.countP (Lexeme.isKeyword .FROM) := by
  have hcount : ∀ others, mentions .FROM others = false ↔ others.countP (Lexeme.isKeyword .FROM) = 0 := by
    intro others
    simp [mentions, List.countP_eq_zero]
  unfold ofPieces
  cases hsplit : splitKeyword .FROM pieces with
  | none =>
    have hzero := (hcount pieces).mp (splitKeyword_eq_none_iff.mp hsplit)
    simp [hzero]
  | some parts =>
    obtain ⟨items, fromWord, behind⟩ := parts
    obtain ⟨rfl, hitems, hfromWord⟩ := splitKeyword_eq_some_iff.mp hsplit
    rw [List.countP_append, List.countP_cons_of_pos hfromWord, (hcount items).mp hitems]
    dsimp only
    cases hbehind : mentions .FROM behind with
    | true =>
      have hpos : behind.countP (Lexeme.isKeyword .FROM) ≠ 0 := by
        intro hzero
        rw [(hcount behind).mpr hzero] at hbehind
        cases hbehind
      refine iff_of_true rfl ?_
      omega
    | false =>
      -- the other checks have other causes
      have hzero := (hcount behind).mp hbehind
      rw [hzero]
      refine iff_of_false ?_ (by decide)
      rw [if_neg Bool.false_ne_true]
      repeat' split
      all_goals simp

/-- A source text is refused for a further `FROM` exactly if its query has two of them. -/
theorem parse_eq_duplicateFrom_iff {dialect : Dialect} {text : Text} :
    parse dialect text = .error (.malformedQuery (.duplicateKeyword .FROM))
      ↔ 2 ≤ (lex dialect (splitPreamble dialect text).2).countP (Lexeme.isKeyword .FROM) := by
  rw [parse_eq, ← ofPieces_eq_duplicateFrom_iff]
  cases ofPieces none (lex dialect (splitPreamble dialect text).2) with
  | ok query => simp
  | error cause => simp

end SourceQuery

/-! ## Places at which contents are irrelevant -/

/-- What is declared and what is left of a text that ends in an apostrophe. -/
theorem splitPreamble_concat_apostrophe (dialect : Dialect) (before : Text) :
    (∀ declarations ∈ (splitPreamble dialect (before ++ ['\''])).1, declarations <+: before)
      ∧ ∃ rest, rest <:+ before ∧ (splitPreamble dialect (before ++ ['\''])).2 = rest ++ ['\''] := by
  have hquote : isBlank '\'' = false := by decide
  have hstart : ∀ text : Text, ∃ rest, rest <:+ text ∧ (text ++ ['\'']).trimStart = rest ++ ['\''] :=
    fun text => ⟨text.trimStart, List.dropWhile_suffix _, Text.trimStart_append_cons hquote _ _⟩
  unfold splitPreamble
  cases hsplit : splitAtBlankLine (before ++ ['\'']) with
  | none => exact ⟨by simp, hstart before⟩
  | some parts =>
    obtain ⟨head, behind⟩ := parts
    dsimp only
    split
    · exact ⟨by simp, hstart before⟩
    · -- the apostrophe stands behind the blank line
      obtain ⟨others, rfl, rfl⟩ := exists_concat_of_splitAtBlankLine hsplit
      constructor
      · intro declarations hdeclarations
        obtain rfl := Option.some_inj.mp (Option.mem_def.mp hdeclarations)
        obtain ⟨blanks, -, hhead⟩ := Text.exists_trimEnd_append head
        exact ⟨blanks ++ others, by rw [← List.append_assoc, ← hhead]⟩
      · obtain ⟨rest, hrest, hbody⟩ := hstart others
        exact ⟨rest, hrest.trans (List.suffix_append _ _), hbody⟩

/-- **How a literal gets out of a piece** that its first apostrophe is taken for part of: with some content
the piece is closed in front of two words `FROM`, and without any it is not closed in front of the second
apostrophe. -/
theorem Lexeme.EndsBefore.exists_breakout {dialect : Dialect} {piece : Lexeme} {run : Text}
    (h : piece.EndsBefore dialect []) (htext : piece.text = run ++ ['\''])
    (hrun : run.getLast? ≠ some '\'') (hne : piece ≠ .literal ['\'']) :
    ∃ (closing : Text) (closed broken : Lexeme), '\'' ∉ closing
      ∧ ¬HasBlankLine (closing ++ " FROM FROM ".toList)
      ∧ closed.text = piece.text ++ closing ∧ (∀ rest, closed.EndsBefore dialect (' ' :: rest))
      ∧ broken.text = piece.text ++ ['\''] ∧ broken.EndsBefore dialect [] := by
  have hclose : dialect.closeQuote ≠ '\'' := by cases dialect <;> decide
  have hspace : ' ' ≠ dialect.closeQuote := by cases dialect <;> decide
  -- the last character of the piece is the apostrophe
  have hlast : piece.text.getLast? = some '\'' := by rw [htext, List.getLast?_concat]
  cases piece with
  | word word =>
    exact absurd (h.2.1 _ (List.mem_of_getLast? hlast)) (by decide)
  | quoted quotedRun =>
    obtain ⟨name, ⟨rfl, -⟩ | ⟨rfl, -⟩⟩ := h
    · rw [text, Dialect.quote, List.getLast?_concat] at hlast
      exact absurd (Option.some_inj.mp hlast) hclose
    · have hclosed : ∀ rest, (quoted (dialect.quote name)).EndsBefore dialect (' ' :: rest) :=
        fun rest => ⟨name, .inl ⟨rfl, by simpa using hspace⟩⟩
      have hbroken : (quoted (dialect.openQuote :: (name ++ ['\'']).doubling dialect.closeQuote)).EndsBefore
          dialect [] :=
        ⟨name ++ ['\''], .inr ⟨rfl, rfl⟩⟩
      refine ⟨[dialect.closeQuote], _, _, by simpa using hclose.symm, ?_, rfl, hclosed, ?_, hbroken⟩
      · cases dialect <;> simp only [HasBlankLine] <;> decide
      · simp [text, Text.doubling_append, hclose.symm]
  | literal literalRun =>
    obtain ⟨content, ⟨rfl, -⟩ | ⟨rfl, -⟩⟩ := h
    · have hclosed : ∀ rest, (literal (Value.textLiteral content)).EndsBefore dialect (' ' :: rest) :=
        fun rest => ⟨content, .inl ⟨rfl, by simp⟩⟩
      have hbroken : (literal ('\'' :: (content ++ ['\'']).doubling '\'')).EndsBefore dialect [] :=
        ⟨content ++ ['\''], .inr ⟨rfl, rfl⟩⟩
      refine ⟨[], _, _, List.not_mem_nil, ?_, (List.append_nil _).symm, hclosed, ?_, hbroken⟩
      · simp only [HasBlankLine]
        decide
      · simp [text, Value.textLiteral, Text.doubling_append]
    · -- the apostrophe is doubled, or it opens the literal
      rcases List.eq_nil_or_concat content with rfl | ⟨start, c, rfl⟩
      · exact absurd rfl hne
      · rw [List.concat_eq_append, text, Text.doubling_append, ← List.cons_append] at htext hlast
        by_cases hc : c = '\''
        · subst hc
          have hdouble : Text.doubling '\'' ['\''] = ['\''] ++ ['\''] := rfl
          rw [hdouble, ← List.append_assoc] at htext
          rw [← List.append_cancel_right htext, List.getLast?_concat] at hrun
          exact absurd rfl hrun
        · have hsingle : Text.doubling '\'' [c] = [c] := by simp [hc]
          rw [hsingle, List.getLast?_concat] at hlast
          exact absurd (Option.some_inj.mp hlast) hc
  | comment commentRun =>
    obtain ⟨line, hline, rfl | ⟨rfl, -⟩⟩ := h
    · rw [text, ← List.cons_append, ← List.cons_append, List.getLast?_concat] at hlast
      cases hlast
    · have hclosed : ∀ rest, (comment ('-' :: '-' :: (line ++ ['\n']))).EndsBefore dialect (' ' :: rest) :=
        fun rest => ⟨line, hline, .inl rfl⟩
      have hbroken : (comment ('-' :: '-' :: (line ++ ['\'']))).EndsBefore dialect [] :=
        ⟨line ++ ['\''], by simp [hline], .inr ⟨rfl, rfl⟩⟩
      refine ⟨['\n'], _, _, by decide, ?_, rfl, hclosed, rfl, hbroken⟩
      simp only [HasBlankLine]
      decide
  | other c =>
    rw [text, List.getLast?_singleton] at hlast
    exact absurd (Option.some_inj.mp hlast) h.1

/-- Whether lexing what is left behind the declarations of a text finds the literal that the text opens, or a
second word `FROM` in front of it. -/
def IsMet (dialect : Dialect) (text : Text) : Prop :=
  OpensLiteral dialect (splitPreamble dialect text).2
    ∨ 2 ≤ (lex dialect (splitPreamble dialect text).2).countP (Lexeme.isKeyword .FROM)

instance (dialect : Dialect) (text : Text) : Decidable (IsMet dialect text) :=
  inferInstanceAs (Decidable (_ ∨ _))

/-- Without declarations, the literal that a text opens is found. -/
theorem OpensLiteral.isMet_of_none {dialect : Dialect} {text : Text} (h : OpensLiteral dialect text)
    (hnone : (splitPreamble dialect text).1 = none) : IsMet dialect text := by
  rw [IsMet, splitPreamble_snd_of_none hnone]
  exact .inl h.trimStart

/-- Declarations end at a blank line. -/
theorem isSettled_of_splitPreamble {dialect : Dialect} {text : Text}
    (h : (splitPreamble dialect text).1 ≠ none) : IsSettled dialect text := by
  left
  unfold splitPreamble at h
  cases hsplit : splitAtBlankLine text with
  | none =>
    rw [hsplit] at h
    exact absurd rfl h
  | some parts => rfl

/-- The piece that an apostrophe at the end of a text is part of, and the pieces in front of it. -/
theorem exists_lex_concat_apostrophe (dialect : Dialect) (text : Text) :
    ∃ (front : List Lexeme) (piece : Lexeme) (run : Text),
      lex dialect (text ++ ['\'']) = front ++ [piece] ∧ text = textOf front ++ run
        ∧ piece.text = run ++ ['\''] ∧ piece.EndsBefore dialect []
        ∧ ∀ more, lex dialect (text ++ '\'' :: more) = front ++ lex dialect (piece.text ++ more) := by
  have htext := textOf_lex dialect (text ++ ['\''])
  rcases List.eq_nil_or_concat (lex dialect (text ++ ['\''])) with hnil | ⟨front, piece, hlex⟩
  · rw [hnil] at htext
    simp at htext
  rw [List.concat_eq_append] at hlex
  have hends : piece.EndsBefore dialect [] := endsBefore_of_lex_eq hlex
  have hpieces : textOf front ++ piece.text = text ++ ['\''] := by
    rw [← htext, hlex]
    simp
  obtain ⟨run, hrun⟩ : ∃ run, piece.text = run ++ ['\''] := by
    refine List.getLast?_eq_some_iff.mp ?_
    rw [← List.getLast?_append_of_ne_nil (textOf front) hends.text_ne_nil, hpieces, List.getLast?_concat]
  rw [hrun, ← List.append_assoc] at hpieces
  obtain rfl := List.append_cancel_right hpieces
  refine ⟨front, piece, run, hlex, rfl, hrun, hends, ?_⟩
  intro more
  have hshape : textOf front ++ run ++ '\'' :: more = textOf front ++ (piece.text ++ more) := by
    rw [hrun]
    simp
  have hhead : (piece.text ++ more).head? = piece.text.head? :=
    List.head?_append_of_ne_nil _ hends.text_ne_nil
  rw [List.append_assoc, ← hrun] at hlex
  rw [hshape]
  exact lex_append_congr hlex hends.text_ne_nil hhead

/-- A piece with an apostrophe is no keyword. -/
theorem Lexeme.isKeyword_eq_false_of_apostrophe {piece : Lexeme} {run : Text}
    (h : piece.text = run ++ ['\'']) (keyword : Keyword) : piece.isKeyword keyword = false := by
  have hmem : '\'' ∈ piece.text := by simp [h]
  refine isKeyword_eq_false_of_mem hmem ?_ keyword
  intro keyword
  cases keyword <;> decide

/-- What a text goes on with behind an apostrophe takes away no keyword in front of it. -/
theorem countP_lex_concat_apostrophe_le (dialect : Dialect) (text more : Text) :
    (lex dialect (text ++ ['\''])).countP (Lexeme.isKeyword .FROM)
      ≤ (lex dialect (text ++ '\'' :: more)).countP (Lexeme.isKeyword .FROM) := by
  obtain ⟨front, piece, run, hlex, -, htext, -, hmore⟩ := exists_lex_concat_apostrophe dialect text
  have hpiece := Lexeme.isKeyword_eq_false_of_apostrophe htext .FROM
  rw [hlex, hmore, List.countP_append, List.countP_append, List.countP_singleton, hpiece]
  simp

/-- No literal at the end of a text is part of its table. -/
theorem not_liesInTable_nil (dialect : Dialect) (before content : Text) :
    ¬LiesInTable dialect before content [] := by
  rintro ⟨layout, front, back, hreads, -, htext⟩
  rw [QueryLayout.fromAs, textOf_append, textOf_cons, List.append_eq_nil_iff, List.append_eq_nil_iff] at htext
  have has := hreads.1.asWord
  cases hword : layout.asWord with
  | word run =>
    rw [hword] at has htext
    obtain rfl : run = [] := htext.2.1
    exact absurd has (by decide)
  | quoted run => rw [hword] at has; cases has
  | literal run => rw [hword] at has; cases has
  | comment run => rw [hword] at has; cases has
  | other c => rw [hword] at has; cases has

namespace SourceQuery

/-- Where it is settled in front of a literal where the declarations end, its content is irrelevant if the
query behind them meets it. -/
theorem agreesAround_of_isSettled {dialect : Dialect} {before behind : Text}
    (hopens : OpensLiteral dialect (before ++ ['\''])) (hsettled : IsSettled dialect (before ++ ['\'']))
    (hmet : IsMet dialect (before ++ ['\''])) (hbehind : behind.head? ≠ some '\'') {first : Text}
    (houtside : ¬LiesInTable dialect before first behind) (second : Text) :
    AgreesAround before first second (parse dialect (withLiteral before first behind))
      (parse dialect (withLiteral before second behind)) := by
  have hsplit : ∀ content : Text, splitPreamble dialect (withLiteral before content behind)
      = ((splitPreamble dialect (before ++ ['\''])).1,
        (splitPreamble dialect (before ++ ['\''])).2 ++ (content.doubling '\'' ++ '\'' :: behind)) := by
    intro content
    rw [withLiteral_eq]
    exact splitPreamble_append hopens hsettled _
  obtain ⟨hwithin, rest, -, hbody⟩ := splitPreamble_concat_apostrophe dialect before
  rcases hmet with hmet | hcount
  · refine agreesAround_of_body (hsplit first) (hsplit second) ?_ hmet hbehind houtside
    cases hdeclarations : (splitPreamble dialect (before ++ ['\''])).1 with
    | none => trivial
    | some declarations => exact .inl ⟨rfl, hwithin _ hdeclarations⟩
  · -- both queries have two words `FROM`
    have hrefused : ∀ content : Text, parse dialect (withLiteral before content behind)
        = .error (.malformedQuery (.duplicateKeyword .FROM)) := by
      intro content
      rw [parse_eq_duplicateFrom_iff, hsplit, hbody, List.append_assoc, List.singleton_append]
      rw [hbody] at hcount
      exact hcount.trans (countP_lex_concat_apostrophe_le dialect rest _)
    rw [hrefused, hrefused]
    rfl

/-- Where no blank line is found in front of a literal, contents without blank lines are irrelevant. -/
theorem agreesAround_of_not_hasBlankLine {dialect : Dialect} {before behind : Text}
    (hopens : OpensLiteral dialect (before ++ ['\''])) (hbefore : splitAtBlankLine (before ++ ['\'']) = none)
    (hbehind : behind.head? ≠ some '\'') {first second : Text} (hfirst : ¬HasBlankLine first)
    (hsecond : ¬HasBlankLine second) (houtside : ¬LiesInTable dialect before first behind) :
    AgreesAround before first second (parse dialect (withLiteral before first behind))
      (parse dialect (withLiteral before second behind)) := by
  rcases exists_splitPreamble_withLiteral hopens hbefore hbehind with hwhole | ⟨tail, rest, hparts⟩
  · have hbody : ∀ content : Text, (withLiteral before content behind).trimStart
        = (before ++ ['\'']).trimStart ++ (content.doubling '\'' ++ '\'' :: behind) := by
      intro content
      have hquote : isBlank '\'' = false := by decide
      rw [withLiteral_eq, Text.trimStart_append_cons hquote, List.append_assoc, List.append_assoc]
      exact Text.trimStart_append_cons hquote _ _
    have hleft := hwhole first hfirst
    have hright := hwhole second hsecond
    rw [hbody] at hleft hright
    exact agreesAround_of_body hleft hright trivial hopens.trimStart hbehind houtside
  · refine agreesAround_of_map ?_ ?_
    · rw [hparts first hfirst, hparts second hsecond]
    · rw [hparts first hfirst, hparts second hsecond]
      exact .inr ⟨tail, rfl, rfl⟩

/-- Where the query behind the declarations does not meet a literal, the literal can be made to hold two words
`FROM` that are taken for part of the query. -/
theorem exists_breakout_of_not_isMet {dialect : Dialect} {before : Text}
    (hopens : OpensLiteral dialect (before ++ ['\''])) (hnot : ¬IsMet dialect (before ++ ['\''])) :
    ∃ content, ¬HasBlankLine content
      ∧ parse dialect (withLiteral before [] []) ≠ .error (.malformedQuery (.duplicateKeyword .FROM))
      ∧ parse dialect (withLiteral before content [])
        = .error (.malformedQuery (.duplicateKeyword .FROM)) := by
  have hsettled : IsSettled dialect (before ++ ['\'']) :=
    isSettled_of_splitPreamble fun hnone => hnot (hopens.isMet_of_none hnone)
  obtain ⟨-, rest, hsuffix, hbody⟩ := splitPreamble_concat_apostrophe dialect before
  have hsplit : ∀ content : Text, (splitPreamble dialect (withLiteral before content [])).2
      = rest ++ '\'' :: (content.doubling '\'' ++ ['\'']) := by
    intro content
    rw [withLiteral_eq, splitPreamble_append hopens hsettled, hbody]
    simp
  rw [IsMet, not_or, hbody, Nat.not_le] at hnot
  obtain ⟨hunmet, hcount⟩ := hnot
  -- the apostrophe of the literal ends up in a piece that starts in front of it
  obtain ⟨front, piece, run, hlex, rfl, htext, hends, hmore⟩ := exists_lex_concat_apostrophe dialect rest
  have hrun : run.getLast? ≠ some '\'' := by
    intro hlast
    obtain ⟨start, rfl⟩ := List.getLast?_eq_some_iff.mp hlast
    obtain ⟨lead, rfl⟩ := (List.suffix_append _ _).trans hsuffix
    refine hopens.getLast?_ne_apostrophe ?_
    rw [← List.append_assoc, List.getLast?_concat]
  have hne : piece ≠ .literal ['\''] := by
    rintro rfl
    refine hunmet ?_
    rw [OpensLiteral, hlex, List.getLast?_concat]
  obtain ⟨closing, closed, broken, hclosing, hblank, hclosedText, hclosedEnds, hbrokenText, hbrokenEnds⟩ :=
    hends.exists_breakout htext hrun hne
  refine ⟨closing ++ " FROM FROM ".toList, hblank, ?_, ?_⟩
  · -- nothing but the apostrophes of the literal follows
    have hword := Lexeme.isKeyword_eq_false_of_apostrophe htext .FROM
    have hbrokenWord := Lexeme.isKeyword_eq_false_of_apostrophe hbrokenText .FROM
    have hpieces := hmore ['\'']
    rw [← hbrokenText, Lexeme.lex_text hbrokenEnds] at hpieces
    rw [hlex, List.countP_append, List.countP_singleton, hword] at hcount
    rw [Ne, parse_eq_duplicateFrom_iff, hsplit, Text.doubling_nil, List.nil_append, hpieces,
      List.countP_append, List.countP_singleton, hbrokenWord]
    exact Nat.not_le.mpr hcount
  · -- the closed piece stands in front of the two words
    have hcontent : Text.doubling '\'' (closing ++ " FROM FROM ".toList) ++ ['\'']
        = closing ++ ' ' :: "FROM FROM '".toList := by
      have hnone : '\'' ∉ closing ++ " FROM FROM ".toList := by
        simp [hclosing]
      rw [Text.doubling_eq_self hnone]
      simp
    have hwords : (lex dialect (' ' :: "FROM FROM '".toList)).countP (Lexeme.isKeyword .FROM) = 2 := by
      cases dialect <;> decide +kernel
    rw [parse_eq_duplicateFrom_iff, hsplit, hcontent, hmore, ← List.append_assoc, ← hclosedText,
      Lexeme.lex_text_append (hclosedEnds _), List.countP_append, List.countP_cons, hwords]
    omega

/-- Where contents without blank lines are irrelevant, the query behind the declarations meets them. -/
theorem isMet_of_isIrrelevant {dialect : Dialect} {before : Text}
    (hopens : OpensLiteral dialect (before ++ ['\'']))
    (h : IsIrrelevant dialect before (¬HasBlankLine ·)) : IsMet dialect (before ++ ['\'']) := by
  by_contra hnot
  obtain ⟨content, hblank, hread, hrefused⟩ := exists_breakout_of_not_isMet hopens hnot
  have hempty : ¬HasBlankLine [] := by
    simp only [HasBlankLine]
    decide
  have hliteral : ∀ content, IsLiteralAt dialect before content [] :=
    fun content => hopens.isLiteralAt_iff.mpr (by simp)
  have hagree := h [] content [] hempty hblank (hliteral []) (hliteral content) (not_liesInTable_nil _ _ _)
  exact hread ((hagree.error_iff _).mpr hrefused)

/-- A query behind a blank line. -/
def laterQuery : Text := "\n\nSELECT 1 FROM t AS a WHERE x".toList

/-- Where it is not settled in front of a literal where the declarations end, they end behind a literal
without blank lines, and in a literal with one. -/
theorem splitPreamble_laterQuery {dialect : Dialect} {before : Text}
    (hopens : OpensLiteral dialect (before ++ ['\''])) (hnot : ¬IsSettled dialect (before ++ ['\''])) :
    splitPreamble dialect (withLiteral before [] laterQuery)
        = (some (before ++ "''".toList), "SELECT 1 FROM t AS a WHERE x".toList)
      ∧ splitPreamble dialect (withLiteral before "\n\n".toList laterQuery)
        = (some (before ++ "'".toList), "'\n\nSELECT 1 FROM t AS a WHERE x".toList) := by
  rw [IsSettled, not_or, Bool.not_eq_true, Bool.not_eq_true, Option.isSome_eq_false_iff,
    Option.isNone_iff_eq_none] at hnot
  obtain ⟨hnone, hquery⟩ := hnot
  constructor
  · have hempty : ¬HasBlankLine [] := by
      simp only [HasBlankLine]
      decide
    have hcut : splitAtBlankLine ('\'' :: laterQuery)
        = some ("'\n".toList, "\nSELECT 1 FROM t AS a WHERE x".toList) := by
      decide +kernel
    have hwhole : splitAtBlankLine (withLiteral before [] laterQuery)
        = some (before ++ "''\n".toList, "\nSELECT 1 FROM t AS a WHERE x".toList) := by
      rw [splitAtBlankLine_withLiteral hnone hempty, hcut]
      simp
    have hfilled : Text.isAllBlank "''\n".toList = false := by decide
    have htrim : (before ++ "''\n".toList).trimEnd = before ++ "''".toList := by
      rw [Text.trimEnd_append_of_not_blank before hfilled]
      rfl
    have hliteral : startsQuery dialect (before ++ "''".toList) = false := by
      have hnil : ([] : Text).head? ≠ some '\'' := by simp
      have hstart := hopens.startsQuery_withLiteral [] hnil
      rw [hquery] at hstart
      simpa [startsQuery, withLiteral, Value.textLiteral] using hstart
    rw [splitPreamble_of_splitAtBlankLine _ hwhole htrim (by simp), hliteral]
    rfl
  · have hcut : splitAtBlankLine ('\'' :: ("\n\n'".toList ++ laterQuery))
        = some ("'\n".toList, "\n'\n\nSELECT 1 FROM t AS a WHERE x".toList) := by
      decide +kernel
    have hquote : isBlank '\'' = false := by decide
    have hwhole := splitAtBlankLine_append_cons before hquote ("\n\n'".toList ++ laterQuery)
    rw [hnone, hcut] at hwhole
    have hfilled : Text.isAllBlank "'\n".toList = false := by decide
    have htrim : (before ++ "'\n".toList).trimEnd = before ++ "'".toList := by
      rw [Text.trimEnd_append_of_not_blank before hfilled]
      rfl
    have hsplit := splitPreamble_of_splitAtBlankLine dialect hwhole htrim (by simp)
    rw [show startsQuery dialect (before ++ "'".toList) = false from hquery] at hsplit
    exact hsplit

/-- Where all contents are irrelevant, it is settled in front of them where the declarations end: otherwise a
blank line ends them in the literal. -/
theorem isSettled_of_isIrrelevant {dialect : Dialect} {before : Text}
    (hopens : OpensLiteral dialect (before ++ ['\'']))
    (h : IsIrrelevant dialect before fun _ => True) : IsSettled dialect (before ++ ['\'']) := by
  by_contra hnot
  obtain ⟨hbehind, hinside⟩ := splitPreamble_laterQuery hopens hnot
  have hread : ofPieces none (lex dialect "SELECT 1 FROM t AS a WHERE x".toList)
      = .ok ⟨none, "t".toList, "a".toList, "WHERE x".toList⟩ := by
    cases dialect <;> decide +kernel
  have hlost : ofPieces none (lex dialect "'\n\nSELECT 1 FROM t AS a WHERE x".toList)
      = .error (.missingKeyword .FROM) := by
    cases dialect <;> decide +kernel
  have hliteral : ∀ content, IsLiteralAt dialect before content laterQuery :=
    fun content => hopens.isLiteralAt_iff.mpr (by decide)
  have houtside : ¬LiesInTable dialect before [] laterQuery := by
    have hnone : .literal (Value.textLiteral []) ∉ lex dialect "SELECT 1 FROM t AS a WHERE x".toList := by
      cases dialect <;> decide +kernel
    refine not_liesInTable_of_notMem ?_
    rw [hbehind]
    exact hnone
  have hagree := h [] "\n\n".toList laterQuery trivial trivial (hliteral _) (hliteral _) houtside
  rw [parse_eq, parse_eq, hbehind, hinside] at hagree
  simp only [hread, hlost] at hagree
  exact hagree

/-- **What a literal holds is irrelevant**, if it has no blank line, exactly if the query behind the
declarations meets the literal or is refused for a second `FROM` in front of it; and it is irrelevant whatever
it is exactly if moreover a blank line or part of the query stands in front of the literal. -/
theorem isIrrelevant_iff {dialect : Dialect} {before : Text}
    (hopens : OpensLiteral dialect (before ++ ['\''])) :
    (IsIrrelevant dialect before (¬HasBlankLine ·) ↔ IsMet dialect (before ++ ['\'']))
      ∧ (IsIrrelevant dialect before (fun _ => True)
        ↔ IsMet dialect (before ++ ['\'']) ∧ IsSettled dialect (before ++ ['\''])) := by
  refine ⟨⟨isMet_of_isIrrelevant hopens, ?_⟩, ?_, ?_⟩
  · intro hmet first second behind hfirst hsecond hliteral _ houtside
    have hbehind := hopens.isLiteralAt_iff.mp hliteral
    by_cases hcut : splitAtBlankLine (before ++ ['\'']) = none
    · exact agreesAround_of_not_hasBlankLine hopens hcut hbehind hfirst hsecond houtside
    · have hsettled : IsSettled dialect (before ++ ['\'']) := .inl (Option.isSome_iff_ne_none.mpr hcut)
      exact agreesAround_of_isSettled hopens hsettled hmet hbehind houtside second
  · intro h
    have hsome : IsIrrelevant dialect before (¬HasBlankLine ·) :=
      fun first second behind _ _ => h first second behind trivial trivial
    exact ⟨isMet_of_isIrrelevant hopens hsome, isSettled_of_isIrrelevant hopens h⟩
  · rintro ⟨hmet, hsettled⟩ first second behind - - hliteral - houtside
    exact agreesAround_of_isSettled hopens hsettled hmet (hopens.isLiteralAt_iff.mp hliteral) houtside second

/-- A declaration up to the literal that it starts from. -/
def namedOrders : Text := "DECLARE @n nvarchar(99) = ".toList

/-- The literal of a declaration may hold anything but blank lines. -/
theorem isIrrelevant_namedOrders :
    IsIrrelevant .sqlServer namedOrders (¬HasBlankLine ·)
      ∧ ¬IsIrrelevant .sqlServer namedOrders (fun _ => True) := by
  have hopens : OpensLiteral .sqlServer (namedOrders ++ ['\'']) := by decide +kernel
  have hmet : IsMet .sqlServer (namedOrders ++ ['\'']) := by decide +kernel
  have hnot : ¬IsSettled .sqlServer (namedOrders ++ ['\'']) := by decide +kernel
  refine ⟨(isIrrelevant_iff hopens).1.mpr hmet, ?_⟩
  intro h
  exact hnot ((isIrrelevant_iff hopens).2.mp h).2

/-- The query behind `namedOrders`. -/
def namedQuery : Text :=
  ";\n\nSELECT [o].[Id] FROM [Orders] AS [o] WHERE [o].[Name] = @n".toList

/-- A content with a blank line and a query of its own. -/
def nestedQuery : Text :=
  "red\n\nSELECT 1 FROM [Users] AS [u] WHERE [u].[Id] <> '".toList

/-- A query in the literal of a declaration is taken for the query behind the declarations, and other rows are
deleted. -/
theorem table_from_literal_of_declaration :
    IsLiteralAt .sqlServer namedOrders "red".toList namedQuery
      ∧ IsLiteralAt .sqlServer namedOrders nestedQuery namedQuery
      ∧ ¬LiesInTable .sqlServer namedOrders "red".toList namedQuery
      ∧ ¬LiesInTable .sqlServer namedOrders nestedQuery namedQuery
      ∧ parse .sqlServer (withLiteral namedOrders "red".toList namedQuery)
        = .ok ⟨some "DECLARE @n nvarchar(99) = 'red';".toList, "[Orders]".toList, "[o]".toList,
          "WHERE [o].[Name] = @n".toList⟩
      ∧ parse .sqlServer (withLiteral namedOrders nestedQuery namedQuery)
        = .ok ⟨some "DECLARE @n nvarchar(99) = 'red".toList, "[Users]".toList, "[u]".toList,
          "WHERE [u].[Id] <> ''';\n\nSELECT [o].[Id] FROM [Orders] AS [o] WHERE [o].[Name] = @n".toList⟩
      ∧ ¬AgreesAround namedOrders "red".toList nestedQuery
        (parse .sqlServer (withLiteral namedOrders "red".toList namedQuery))
        (parse .sqlServer (withLiteral namedOrders nestedQuery namedQuery)) := by
  have hopens : OpensLiteral .sqlServer (namedOrders ++ ['\'']) := by decide +kernel
  have hbehind : namedQuery.head? ≠ some '\'' := by decide
  have hparse : parse .sqlServer (withLiteral namedOrders "red".toList namedQuery)
      = .ok ⟨some "DECLARE @n nvarchar(99) = 'red';".toList, "[Orders]".toList, "[o]".toList,
        "WHERE [o].[Name] = @n".toList⟩ := by
    decide +kernel
  have hnested : parse .sqlServer (withLiteral namedOrders nestedQuery namedQuery)
      = .ok ⟨some "DECLARE @n nvarchar(99) = 'red".toList, "[Users]".toList, "[u]".toList,
        "WHERE [u].[Id] <> ''';\n\nSELECT [o].[Id] FROM [Orders] AS [o] WHERE [o].[Name] = @n".toList⟩ := by
    decide +kernel
  refine ⟨hopens.isLiteralAt_iff.mpr hbehind, hopens.isLiteralAt_iff.mpr hbehind, ?_, ?_, hparse, hnested, ?_⟩
  · exact not_liesInTable_of_notMem (by decide +kernel)
  · exact not_liesInTable_of_notMem (by decide +kernel)
  · rw [hparse, hnested]
    rintro ⟨htable, -⟩
    exact absurd htable (by decide)

end SourceQuery

end BulkDml
