import BulkDml.Proofs.HarmlessPlaces
import BulkDml.Proofs.LeadingBlank
import BulkDml.Proofs.MergedBindings
import BulkDml.Proofs.PieceCut

/-! # Comments in front of a query

Line comments in front of a query are its declarations, and go to the compiled statement as they are.  The
pieces of a query know comments, and the segments that binding goes through do not: to binding, an apostrophe
in a comment opens a quoted run, and a name behind `@` in a comment is a placeholder.

* `CommentLine`, `CommentBlock` — the comments that the declarations of a query may consist of;
* `CommentBlock.splitPreamble_append` — such comments are set apart whole, whatever they say;
* `Text.endsPlain_or_endsInQuotes` — where binding is at the end of a line;
* `IsQuiet` — texts in front of an UPDATE that binding copies, and leaves at their end;
* `bindsEveryUpdate_iff_isQuiet` — the comments that do not disturb the binding of any UPDATE.
-/

namespace BulkDml

/-! ## Comments as declarations -/

/-- A line that holds a comment and nothing else. -/
structure CommentLine where
  /-- White space in front of the comment. -/
  indent : Text
  /-- What stands behind the two hyphens. -/
  body : Text
  /-- The indentation is white space. -/
  isAllBlank_indent : indent.isAllBlank = true
  /-- The indentation is part of the line. -/
  newline_notMem_indent : '\n' ∉ indent
  /-- The comment is part of the line. -/
  newline_notMem_body : '\n' ∉ body

namespace CommentLine

/-- The text of a comment line, without the line break behind it. -/
def text (line : CommentLine) : Text := line.indent ++ '-' :: '-' :: line.body

/-- The text of comment lines, one below the other. -/
def textOf (lines : List CommentLine) : Text := Text.joinWith ['\n'] (lines.map text)

variable (dialect : Dialect) (line : CommentLine)

/-- A comment line is one line. -/
theorem newline_notMem_text : '\n' ∉ line.text := by
  simp [text, line.newline_notMem_indent, line.newline_notMem_body]

/-- A comment line is not blank. -/
theorem isAllBlank_text_append (rest : Text) : Text.isAllBlank (line.text ++ rest) = false := by
  have hdash : isBlank '-' = false := by decide
  simp [text, hdash]

/-- A comment line is white space and a comment up to its line break. -/
theorem lex_text_append (rest : Text) :
    lex dialect (line.text ++ '\n' :: rest)
      = line.indent.map Lexeme.other
        ++ .comment ('-' :: '-' :: (line.body ++ ['\n'])) :: lex dialect rest := by
  have hcomment : (Lexeme.comment ('-' :: '-' :: (line.body ++ ['\n']))).EndsBefore dialect rest :=
    ⟨line.body, line.newline_notMem_body, .inl rfl⟩
  have htext : line.text ++ '\n' :: rest
      = line.indent ++ (Lexeme.text (.comment ('-' :: '-' :: (line.body ++ ['\n']))) ++ rest) := by
    simp [text, Lexeme.text]
  rw [htext, lex_blank_append _ _ line.isAllBlank_indent, Lexeme.lex_text_append hcomment]

/-- The last comment line is white space and a comment up to the end. -/
theorem lex_text :
    lex dialect line.text
      = line.indent.map Lexeme.other ++ [.comment ('-' :: '-' :: line.body)] := by
  have hcomment : (Lexeme.comment ('-' :: '-' :: line.body)).EndsBefore dialect [] :=
    ⟨line.body, line.newline_notMem_body, .inr ⟨rfl, rfl⟩⟩
  rw [← Lexeme.lex_text hcomment, ← lex_blank_append _ _ line.isAllBlank_indent]
  rfl

/-- White space in a line consists of trivia. -/
theorem isTrivia_of_mem_indent {piece : Lexeme} (h : piece ∈ line.indent.map Lexeme.other) :
    piece.isTrivia = true := by
  obtain ⟨c, hc, rfl⟩ := List.mem_map.mp h
  exact List.all_eq_true.mp line.isAllBlank_indent c hc

/-- Comment lines hold white space and comments only, whatever the comments say. -/
theorem isTrivia_of_mem_lex {lines : List CommentLine} :
    ∀ piece ∈ lex dialect (textOf lines), piece.isTrivia = true := by
  induction lines with
  | nil => simp [textOf]
  | cons line rest ih =>
    intro piece hpiece
    cases rest with
    | nil =>
      rw [textOf, List.map_singleton, Text.joinWith_singleton, lex_text, List.mem_append,
        List.mem_singleton] at hpiece
      rcases hpiece with hindent | rfl
      · exact line.isTrivia_of_mem_indent hindent
      · rfl
    | cons second more =>
      rw [textOf, List.map_cons, List.map_cons, Text.joinWith_cons_cons, List.append_assoc,
        List.singleton_append, lex_text_append, List.mem_append, List.mem_cons] at hpiece
      rcases hpiece with hindent | rfl | hlater
      · exact line.isTrivia_of_mem_indent hindent
      · rfl
      · exact ih piece hlater

/-- No line of comment lines is blank. -/
theorem isAllBlank_of_mem_linesOf {lines : List CommentLine} :
    ∀ line ∈ linesOf (textOf lines), line.isAllBlank = false := by
  induction lines with
  | nil => simp [textOf, linesOf]
  | cons line rest ih =>
    intro other hother
    have hne : line.text ≠ [] := by simp [text]
    cases rest with
    | nil =>
      rw [textOf, List.map_singleton, Text.joinWith_singleton,
        linesOf_of_not_mem hne line.newline_notMem_text, List.mem_singleton] at hother
      have hfilled := line.isAllBlank_text_append []
      rw [hother]
      rwa [List.append_nil] at hfilled
    | cons second more =>
      rw [textOf, List.map_cons, List.map_cons, Text.joinWith_cons_cons, List.append_assoc,
        List.singleton_append, linesOf_append_newline, linesOf_newline line.newline_notMem_text,
        List.singleton_append, List.mem_cons] at hother
      rcases hother with rfl | hlater
      · exact line.isAllBlank_text_append ['\n']
      · exact ih other hlater

end CommentLine

/-- The comment lines that the declarations of a query may consist of. -/
structure CommentBlock where
  /-- The lines, in order. -/
  lines : List CommentLine
  /-- There is a line. -/
  lines_ne_nil : lines ≠ []
  /-- No white space is left behind the last line. -/
  trimEnd_textOf : (CommentLine.textOf lines).trimEnd = CommentLine.textOf lines

namespace CommentBlock

variable (dialect : Dialect) (block : CommentBlock)

/-- The text of the comments. -/
def text : Text := CommentLine.textOf block.lines

/-- There is something to a comment. -/
theorem text_ne_nil : block.text ≠ [] := by
  obtain ⟨line, rest, hlines⟩ := List.exists_cons_of_ne_nil block.lines_ne_nil
  rw [text, hlines, CommentLine.textOf]
  cases rest <;> simp [CommentLine.text]

/-- Comments hold no part of a query, whatever they say. -/
theorem startsQuery_text : startsQuery dialect block.text = false := by
  rw [startsQuery, List.any_eq_false]
  intro piece hpiece
  have htoken : piece.isToken = false := by
    have htrivia := CommentLine.isTrivia_of_mem_lex dialect piece hpiece
    cases piece with
    | comment text => rfl
    | other c => rfl
    | word text => cases htrivia
    | quoted text => cases htrivia
    | literal text => cases htrivia
  simp [Lexeme.isKeyword_eq_false_of_not_token htoken]

/-- **Comments in front of a blank line are set apart whole**, whatever they say. -/
theorem splitPreamble_append {blanks : Text} (hblank : blanks.isAllBlank = true)
    (hcount : 2 ≤ blanks.count '\n') (query : Text) :
    splitPreamble dialect (block.text ++ blanks ++ query) = (some block.text, query.trimStart) :=
  splitPreamble_of_blankLine query block.text_ne_nil block.trimEnd_textOf
    (fun _ hline => CommentLine.isAllBlank_of_mem_linesOf _ hline) (block.startsQuery_text dialect)
    hblank hcount

end CommentBlock

/-! ## Where binding is at the end of a line -/

/-- The last segment of a split ends with the text. -/
theorem Segment.endsBefore_nil_of_isSplit_concat {parts : List Segment} {last : Segment}
    (h : IsSplit (parts ++ [last])) : last.EndsBefore [] := by
  induction parts with
  | nil => exact h.1
  | cons first rest ih => exact ih h.2

/-- Binding is outside of quotes at the end of a line, or inside of quotes that are open there. -/
theorem Text.endsPlain_or_endsInQuotes (line : Text) :
    Text.EndsPlain (line ++ ['\n'])
      ∨ ∃ opening close, Text.EndsInQuotes (line ++ ['\n']) opening close := by
  obtain ⟨parts, last, hparts⟩ := (List.eq_nil_or_concat' (segments (line ++ ['\n']))).resolve_left
    (fun hnil => by simpa [hnil] using flatMap_text_segments (line ++ ['\n']))
  -- the line break is the last character of the last segment
  have hsplit := Segment.isSplit_segments (line ++ ['\n'])
  have htext := flatMap_text_segments (line ++ ['\n'])
  rw [hparts, List.flatMap_append, List.flatMap_singleton] at htext
  rw [hparts] at hsplit
  have hends := Segment.endsBefore_nil_of_isSplit_concat hsplit
  have hnewline : last.text.getLast? = some '\n' := by
    have hlast := congrArg List.getLast? htext
    rwa [List.getLast?_append_of_ne_nil _ hends.text_ne_nil, List.getLast?_concat] at hlast
  cases last with
  | other c =>
    left
    obtain rfl : c = '\n' := by simpa [Segment.text] using hnewline
    exact .of_getLast? (by rw [hparts, List.getLast?_concat]) rfl
  | placeholder name =>
    -- a name does not end in a line break
    obtain ⟨c, run, rfl, -, hne, hrun, -⟩ := hends
    have hlast : run.getLast? = some '\n' := by
      rwa [Segment.text, List.getLast?_cons_of_ne_nil hne] at hnewline
    exact absurd (hrun '\n' (List.mem_of_getLast? hlast)) (by decide)
  | quoted run =>
    right
    obtain ⟨opening, close, content, hclose, ⟨rfl, -⟩ | ⟨rfl, -⟩⟩ := hends
    · -- a run that is closed ends in its quote
      rw [Segment.text, List.getLast?_concat, Option.some_inj] at hnewline
      subst hnewline
      unfold closingQuote? at hclose
      split at hclose <;> simp at hclose
    · exact ⟨opening, close, hclose, parts, content, hparts⟩

/-- A placeholder in a line is one in every text that starts with the line. -/
theorem placeholder_mem_segments_append {line name : Text}
    (h : .placeholder name ∈ segments (line ++ ['\n'])) (rest : Text) :
    .placeholder name ∈ segments (line ++ ['\n'] ++ rest) := by
  rcases line.endsPlain_or_endsInQuotes with hplain | ⟨opening, close, hquotes⟩
  · rw [hplain.segments_append]
    exact List.mem_append_left _ h
  · -- only the last run changes, and a run is no placeholder
    obtain ⟨parts, content, hsegments⟩ := hquotes.exists_segments_append
    have hline := hsegments []
    rw [List.append_nil] at hline
    rw [hline] at h
    rw [hsegments]
    have hmem : .placeholder name ∈ parts := by simpa [spanQuoted] using h
    exact List.mem_append_left _ hmem

/-! ## Texts that do not disturb binding -/

/-- Whether binding copies a text in front of an UPDATE and is outside of quotes behind the table of the
UPDATE. -/
structure IsQuiet (dialect : Dialect) (text : Text) : Prop where
  /-- No quote is open behind the text, or the one that the closing quote of the table closes. -/
  closed : Text.EndsPlain (text ++ ['\n'])
    ∨ dialect.openQuote ≠ dialect.closeQuote
      ∧ Text.EndsInQuotes (text ++ ['\n']) dialect.openQuote dialect.closeQuote
  /-- No placeholder in the text has the name of a parameter. -/
  unnamed : ∀ column ordinal, column.all isNameChar = true →
    .placeholder (dialect.parameterName column ordinal) ∉ segments (text ++ ['\n'])

/-- A text without quotes and without characters that introduce names is quiet. -/
theorem IsQuiet.of_forall_plain (dialect : Dialect) {text : Text} (h : ∀ c ∈ text, isPlain c = true) :
    IsQuiet dialect text := by
  have hline : ∀ c ∈ text ++ ['\n'], isPlain c = true := by
    intro c hc
    rcases List.mem_append.mp hc with hc | hc
    · exact h c hc
    · rw [List.mem_singleton.mp hc]
      rfl
  refine ⟨.inl (.of_forall_plain hline), ?_⟩
  intro column ordinal _ hmem
  have hkept := (Text.IsInert.of_forall_plain hline).kept _ hmem
  cases hkept

example : IsQuiet .sqlServer "-- all orders that were shipped, but not paid for".toList :=
  .of_forall_plain _ (List.all_eq_true.mp (by decide))

/-- Quoted names, each behind a point. -/
def pointed (dialect : Dialect) (names : List Text) : Text :=
  names.flatMap fun name => '.' :: dialect.quote name

/-- Whether a table is written as quoted names with points between them. -/
def IsQuotedTable (dialect : Dialect) (table : Text) : Prop :=
  ∃ name names, table = dialect.quote name ++ pointed dialect names

/-- Quoted names behind points are inert, and prolong no run in front of them. -/
theorem isInert_pointed (dialect : Dialect) (names : List Text) :
    Text.IsInert (pointed dialect names) ∧ Text.startsClosing (pointed dialect names) = false := by
  induction names with
  | nil => exact ⟨.nil, rfl⟩
  | cons name rest ih =>
    rw [pointed, List.flatMap_cons, List.cons_append]
    exact ⟨.cons (by decide) ((Text.IsInert.quote dialect name).append ih.1 ih.2), rfl⟩

/-- An inert text ends plainly with a line break behind it. -/
theorem Text.IsInert.endsPlain {text : Text} (h : text.IsInert) : Text.EndsPlain (text ++ ['\n']) :=
  .of_segments_append (List.all_eq_true.mp (by decide)) (by decide) (h.segments_append _ rfl)

/-- An inert text holds no placeholder, with a line break behind it or without. -/
theorem Text.IsInert.placeholder_notMem {text : Text} (h : text.IsInert) (name : Text) :
    .placeholder name ∉ segments (text ++ ['\n']) := by
  rw [h.segments_append _ rfl, List.mem_append, segments_cons_of_plain (by decide), segments_nil]
  rintro (hmem | hmem)
  · have hkept := h.kept _ hmem
    cases hkept
  · simp at hmem

/-- A run that is open behind a text is closed by the next closing quote that is not doubled. -/
theorem Text.EndsInQuotes.segments_closed {before : Text} {opening close : Char}
    (h : before.EndsInQuotes opening close) {lead : Text} (hlead : close ∉ lead) (name : Text)
    {rest : Text} (hrest : rest.head? ≠ some close) :
    ∃ parts run, (∀ segment ∈ parts, segment ∈ segments before)
      ∧ segments (before ++ (lead ++ (name.doubling close ++ close :: rest)))
        = parts ++ .quoted run :: segments rest := by
  obtain ⟨parts, content, hsegments⟩ := h.exists_segments_append
  have hbefore := hsegments []
  rw [List.append_nil] at hbefore
  refine ⟨parts, opening :: (content ++ (lead ++ (name.doubling close ++ [close]))), ?_, ?_⟩
  · intro segment hmem
    rw [hbefore]
    exact List.mem_append_left _ hmem
  · rw [hsegments, spanQuoted_append_of_notMem hlead, spanQuoted_doubling _ _ _ hrest]

/-- **Behind the table of an UPDATE, quiet comments are over**: no quote is open, and no placeholder has come
up that is not in the comments. -/
theorem IsQuiet.endsPlain_head {dialect : Dialect} {text : Text} (h : IsQuiet dialect text)
    {table : Text} (htable : IsQuotedTable dialect table) :
    Text.EndsPlain (text ++ ['\n'] ++ ("UPDATE ".toList ++ table ++ ['\n']))
      ∧ ∀ name,
        .placeholder name ∈ segments (text ++ ['\n'] ++ ("UPDATE ".toList ++ table ++ ['\n'])) →
          .placeholder name ∈ segments (text ++ ['\n']) := by
  obtain ⟨first, names, rfl⟩ := htable
  obtain ⟨hpointed, hclosing⟩ := isInert_pointed dialect names
  rcases h.closed with hplain | ⟨hdiffer, hquotes⟩
  · -- the line of the table is read by itself, and is inert up to its line break
    have hline : Text.IsInert ("UPDATE ".toList ++ (dialect.quote first ++ pointed dialect names)) :=
      .plain_append (List.all_eq_true.mp (by decide))
        ((Text.IsInert.quote dialect first).append hpointed hclosing)
    refine ⟨hplain.append hline.endsPlain, ?_⟩
    intro name hmem
    rw [hplain.segments_append, List.mem_append] at hmem
    exact hmem.resolve_right (hline.placeholder_notMem name)
  · -- the run that is open ends with the first name of the table, and the rest is read by itself
    have hlead : dialect.closeQuote ∉ "UPDATE ".toList ++ [dialect.openQuote] := by
      cases dialect
      case sqlServer => decide
      all_goals exact absurd rfl hdiffer
    have hbehind : (pointed dialect names ++ ['\n']).head? ≠ some dialect.closeQuote :=
      head?_ne_of_startsClosing hquotes.1 (Text.startsClosing_append hclosing rfl)
    obtain ⟨parts, run, hparts, hsegments⟩ := hquotes.segments_closed hlead first hbehind
    have htext : "UPDATE ".toList ++ (dialect.quote first ++ pointed dialect names) ++ ['\n']
        = "UPDATE ".toList ++ [dialect.openQuote] ++ (first.doubling dialect.closeQuote
          ++ dialect.closeQuote :: (pointed dialect names ++ ['\n'])) := by
      simp [Dialect.quote]
    rw [htext]
    constructor
    · intro segment hlast
      have hne : segments (pointed dialect names ++ ['\n']) ≠ [] := by
        intro hnil
        simpa [hnil] using flatMap_text_segments (pointed dialect names ++ ['\n'])
      rw [hsegments, List.getLast?_append_of_ne_nil _ (List.cons_ne_nil _ _),
        List.getLast?_cons_of_ne_nil hne] at hlast
      exact hpointed.endsPlain segment hlast
    · intro name hmem
      rw [hsegments, List.mem_append, List.mem_cons] at hmem
      rcases hmem with hmem | hmem | hmem
      · exact hparts _ hmem
      · cases hmem
      · exact absurd hmem (hpointed.placeholder_notMem name)

/-! ## Binding behind comments -/

/-- Placeholders without a value are copied with everything else. -/
theorem bindFrom_of_forall_unknown {bindings : List Binding} (bound : List Binding)
    {parts : List Segment} (h : ∀ name, .placeholder name ∈ parts → lookup? bindings name = none) :
    bindFrom bindings bound parts = (parts.flatMap Segment.text, bound) := by
  induction parts with
  | nil => rfl
  | cons segment rest ih =>
    have hrest := ih fun name hmem => h name (List.mem_cons_of_mem _ hmem)
    cases hkept : segment.isPlaceholder with
    | false =>
      rw [bindFrom_cons_of_kept _ _ hkept, hrest]
      rfl
    | true =>
      obtain ⟨name, rfl⟩ := Segment.exists_of_isPlaceholder hkept
      rw [bindFrom_cons_of_unknown _ (h name List.mem_cons_self), hrest]
      rfl

/-- Where every name that has a value has a position already, no name gets another. -/
theorem bound_bindFrom_of_subset {bindings bound : List Binding}
    (h : ∀ binding ∈ bindings, binding.name ∈ bound.map (·.name)) (parts : List Segment) :
    (bindFrom bindings bound parts).2 = bound := by
  induction parts with
  | nil => rfl
  | cons segment rest ih =>
    cases hkept : segment.isPlaceholder with
    | false =>
      rw [bindFrom_cons_of_kept _ _ hkept]
      exact ih
    | true =>
      obtain ⟨name, rfl⟩ := Segment.exists_of_isPlaceholder hkept
      cases hvalue : lookup? bindings name with
      | none =>
        rw [bindFrom_cons_of_unknown _ hvalue]
        exact ih
      | some value =>
        obtain ⟨binding, hmem, rfl⟩ := List.mem_map.mp (mem_map_name_of_lookup? hvalue)
        cases hposition : bound.findIdx? (·.name == binding.name) with
        | none => exact absurd (h binding hmem) (findIdx?_name_eq_none_iff.mp hposition)
        | some position =>
          rw [bindFrom_cons_of_bound hvalue hposition]
          exact ih

/-- The segments of closed fragments are cut off the line break behind the last of them. -/
theorem segments_joinWith_newline {dialect : Dialect} {fragments : List SetFragment}
    (hne : fragments ≠ []) (h : ∀ fragment ∈ fragments, fragment.IsClosed) :
    segments (Text.joinWith ", ".toList (fragments.map (·.text dialect)) ++ ['\n'])
      = segments (Text.joinWith ", ".toList (fragments.map (·.text dialect))) ++ segments ['\n'] := by
  obtain ⟨front, last, rfl⟩ := (List.eq_nil_or_concat' fragments).resolve_left hne
  have hfront : Text.EndsPlain ((front.map (·.text dialect)).flatMap (· ++ ", ".toList)) :=
    endsPlain_flatMap_comma fun fragment hmem => h fragment (List.mem_append_left _ hmem)
  have hlast : segments (last.text dialect ++ ['\n']) = segments (last.text dialect) ++ segments ['\n'] :=
    (h last (by simp)).segments_append rfl rfl
  rw [List.map_append, List.map_singleton, joinWith_append_cons, Assignment.separated_nil,
    List.append_nil, List.append_assoc, hfront.segments_append, hfront.segments_append, hlast,
    List.append_assoc]

/-- Binding the line of a SET clause puts positions in the place of all its parameters. -/
theorem Assignment.bindFrom_setLine {dialect : Dialect} {entries : Assignment}
    {fragments : List SetFragment} (h : fragmentsFrom dialect 0 entries = .ok fragments)
    (hne : fragments ≠ [])
    (hcolumns : ∀ entry ∈ entries, entry.value.isLiteral = true →
      entry.column.all isNameChar = true) :
    bindFrom (fragments.filterMap (·.parameter? dialect)) []
        (segments ("SET ".toList ++ (Text.joinWith ", ".toList (fragments.map (·.text dialect)) ++ ['\n'])))
      = ("SET ".toList ++ (Text.joinWith ", ".toList
            (withPositions dialect 0 entries (fragments.map (·.text dialect))) ++ ['\n']),
          fragments.filterMap (·.parameter? dialect)) := by
  rw [bindFrom_plain_append (List.all_eq_true.mp (by decide)),
    segments_joinWith_newline hne (isClosed_of_mem h hcolumns), bindFrom_append,
    bindFrom_joinWith h hne hcolumns, segments_cons_of_plain (by decide), segments_nil,
    bindFrom_cons_of_kept _ _ rfl]
  rfl

/-- The head of an UPDATE behind declarations. -/
theorem SourceQuery.updateHead_of_preamble {query : SourceQuery} {declarations : Text}
    (h : query.preamble = some declarations) :
    query.updateHead = declarations ++ ['\n'] ++ ("UPDATE ".toList ++ query.table ++ ['\n']) := by
  rw [updateHead, Statement.assemble, h]
  simp [Text.joinWith]

/-- What binding is to make of an UPDATE: what stands in front of the SET clause is copied, each parameter of
the clause is written as a position, and the values of all parameters are listed in order.  In the condition,
positions stand for the names that it shares with the clause. -/
def boundUpdate (dialect : Dialect) (query : SourceQuery) (entries : Assignment) (clause : SetClause) :
    PositionalQuery where
  sql := query.updateHead
    ++ ("SET ".toList
      ++ (Text.joinWith ", ".toList (Assignment.withPositions dialect 0 entries clause.fragments) ++ ['\n'])
      ++ (bindFrom clause.parameters clause.parameters (segments (query.unaliasedWhere dialect))).1)
  values := clause.parameters.map (·.value)

/-- Binding makes of an UPDATE what it is to make of it, if what stands in front of the SET clause ends
plainly and holds no parameter. -/
theorem toPositional_of_endsPlain_head {dialect : Dialect} {query : SourceQuery} {ignored : IgnoreSet}
    {assignment : Assignment} {clause : SetClause}
    (hclause : assignment.compile dialect ignored = .ok clause)
    (hcolumns : ∀ entry ∈ assignment.keep ignored, entry.value.isLiteral = true →
      entry.column.all isNameChar = true)
    (hhead : query.updateHead.EndsPlain)
    (hunnamed : ∀ name, .placeholder name ∈ segments query.updateHead →
      name ∉ clause.parameters.map (·.name)) :
    toPositional (query.updateHead ++ (clause.text ++ '\n' :: query.unaliasedWhere dialect))
        clause.parameters
      = boundUpdate dialect query (assignment.keep ignored) clause := by
  obtain ⟨fragments, hfragments, hne, rfl⟩ := Assignment.exists_fragmentsFrom_of_compile hclause
  have hset : Text.EndsPlain "SET ".toList :=
    .of_forall_plain (List.all_eq_true.mp (by decide))
  have hline : Text.EndsPlain ("SET ".toList
      ++ (Text.joinWith ", ".toList (fragments.map (·.text dialect)) ++ ['\n'])) :=
    hset.append (endsPlain_joinWith hne (Assignment.isClosed_of_mem hfragments hcolumns))
  -- the text is its head, the line of the SET clause, and the condition, each read by itself
  have htext : query.updateHead ++ (SetClause.text ⟨fragments.map (·.text dialect),
          fragments.filterMap (·.parameter? dialect)⟩ ++ '\n' :: query.unaliasedWhere dialect)
      = query.updateHead ++ ("SET ".toList
          ++ (Text.joinWith ", ".toList (fragments.map (·.text dialect)) ++ ['\n'])
        ++ query.unaliasedWhere dialect) := by
    simp [SetClause.text]
  have hunknown : ∀ name, .placeholder name ∈ segments query.updateHead →
      lookup? (fragments.filterMap (·.parameter? dialect)) name = none :=
    fun name hmem => lookup?_eq_none_iff.mpr (hunnamed name hmem)
  have hall : ∀ binding ∈ fragments.filterMap (·.parameter? dialect),
      binding.name ∈ (fragments.filterMap (·.parameter? dialect)).map (·.name) :=
    fun binding hmem => List.mem_map_of_mem hmem
  rw [htext, toPositional, hhead.segments_append, hline.segments_append, bindFrom_append,
    bindFrom_of_forall_unknown [] hunknown, flatMap_text_segments, bindFrom_append,
    Assignment.bindFrom_setLine hfragments hne hcolumns, boundUpdate]
  simp only [bound_bindFrom_of_subset hall]

/-! ## Probing comments -/

/-- A query behind comments that asks for nothing in particular. -/
def CommentBlock.probe (dialect : Dialect) (block : CommentBlock) : Text :=
  block.text ++ "\n\n".toList
    ++ ("SELECT 1 FROM ".toList ++ dialect.quote "T".toList ++ " AS t WHERE t".toList)

/-- The parts of the probe. -/
def CommentBlock.probed (dialect : Dialect) (block : CommentBlock) : SourceQuery where
  preamble := some block.text
  table := dialect.quote "T".toList
  tableAlias := "t".toList
  whereClause := "WHERE t".toList

/-- The probe is a query with a quoted table behind the comments. -/
theorem CommentBlock.parse_probe (dialect : Dialect) (block : CommentBlock) :
    SourceQuery.parse dialect (block.probe dialect) = .ok (block.probed dialect)
      ∧ IsQuotedTable dialect (block.probed dialect).table := by
  constructor
  · have hquery : SourceQuery.ofPieces none (lex dialect (Text.trimStart
        ("SELECT 1 FROM ".toList ++ dialect.quote "T".toList ++ " AS t WHERE t".toList)))
        = .ok ⟨none, dialect.quote "T".toList, "t".toList, "WHERE t".toList⟩ := by
      cases dialect <;> decide +kernel
    rw [SourceQuery.parse_eq, probe, block.splitPreamble_append dialect (by decide) (by decide), hquery]
    rfl
  · exact ⟨"T".toList, [], (List.append_nil _).symm⟩

namespace Assignment

/-- The same column, assigned nothing a number of times. -/
def repeated (column : Text) (count : Nat) : Assignment :=
  List.replicate count ⟨column, .constant .null⟩

/-- Assigning nothing compiles, however often. -/
theorem exists_fragmentsFrom_repeated (dialect : Dialect) (column : Text) (count ordinal : Nat) :
    ∃ fragments, fragmentsFrom dialect ordinal (repeated column count) = .ok fragments := by
  induction count generalizing ordinal with
  | zero => exact ⟨[], rfl⟩
  | succ count ih =>
    obtain ⟨more, hmore⟩ := ih (ordinal + 1)
    refine ⟨.bound column ordinal .null :: more, ?_⟩
    rw [repeated, List.replicate_succ, ← repeated, fragmentsFrom, hmore]
    rfl

/-- Every name that a column can give a parameter is among the parameters of some clause. -/
theorem exists_compile_repeated (dialect : Dialect) (column : Text) (ordinal : Nat) :
    ∃ clause, (repeated column (ordinal + 1)).compile dialect .empty = .ok clause
      ∧ dialect.parameterName column ordinal ∈ clause.parameters.map (·.name) := by
  obtain ⟨fragments, hfragments⟩ := exists_fragmentsFrom_repeated dialect column (ordinal + 1) 0
  have hlast : fragmentsFrom dialect 0 (repeated column ordinal ++ ⟨column, .constant .null⟩ :: [])
      = .ok fragments := by
    rw [← hfragments, repeated, repeated, List.replicate_succ']
  obtain ⟨front, back, -, hsplit⟩ := exists_bound_of_literal? hlast rfl
  have hcount : (repeated column ordinal).countP (·.value.isLiteral) = ordinal := by
    rw [repeated, List.countP_replicate]
    rfl
  rw [hcount, Nat.zero_add] at hsplit
  have hmem : ⟨dialect.parameterName column ordinal, .null⟩
      ∈ fragments.filterMap (·.parameter? dialect) :=
    List.mem_filterMap.mpr ⟨.bound column ordinal .null, by simp [hsplit], rfl⟩
  have hkept : fragmentsFrom dialect 0 ((repeated column (ordinal + 1)).keep .empty) = .ok fragments := by
    rw [keep_empty, hfragments]
  exact ⟨_, compile_of_fragmentsFrom hkept (by simp [hsplit]), List.mem_map_of_mem hmem⟩

end Assignment

/-- Whether comments leave the binding of every UPDATE alone: every UPDATE behind the comments, of a quoted
table and with parameters whose columns consist of name characters, compiles and is bound as it is to be. -/
def CommentBlock.BindsEveryUpdate (dialect : Dialect) (block : CommentBlock) : Prop :=
  ∀ (source : Text) (query : SourceQuery) (assignment : Assignment) (ignored : IgnoreSet)
    (clause : SetClause),
    SourceQuery.parse dialect source = .ok query → query.preamble = some block.text →
    IsQuotedTable dialect query.table → assignment.compile dialect ignored = .ok clause →
    (∀ entry ∈ assignment.keep ignored, entry.value.isLiteral = true →
      entry.column.all isNameChar = true) →
    ∃ statement, compileUpdate dialect source assignment ignored = .ok statement
      ∧ toPositional statement.sql statement.parameters
        = boundUpdate dialect query (assignment.keep ignored) clause

/-- The UPDATE of the probe that assigns a column `A`. -/
theorem CommentBlock.text_probed_update (dialect : Dialect) (block : CommentBlock)
    (parameters : List Binding) :
    (block.probed dialect).updateHead ++ (SetClause.text
          ⟨[dialect.quote "A".toList ++ " = ".toList ++ dialect.parameterName "A".toList 0], parameters⟩
        ++ '\n' :: (block.probed dialect).unaliasedWhere dialect)
      = block.text ++ ['\n'] ++ ("UPDATE ".toList ++ dialect.quote "T".toList ++ "\nSET ".toList
          ++ dialect.quote "A".toList ++ " = ".toList ++ dialect.parameterName "A".toList 0
          ++ "\nWHERE t".toList) := by
  have hwhere : (block.probed dialect).unaliasedWhere dialect = "WHERE t".toList := by
    show BulkDml.textOf (dropQualifier "t".toList (lex dialect "WHERE t".toList)) = _
    cases dialect <;> decide +kernel
  rw [SourceQuery.updateHead_of_preamble rfl, hwhere, SetClause.text]
  simp [probed]

/-- Comments that leave every UPDATE alone leave that of the probe alone. -/
theorem CommentBlock.BindsEveryUpdate.probe {dialect : Dialect} {block : CommentBlock}
    (h : block.BindsEveryUpdate dialect) {assignment : Assignment} {clause : SetClause}
    (hclause : assignment.compile dialect .empty = .ok clause)
    (hcolumns : ∀ entry ∈ assignment, entry.value.isLiteral = true →
      entry.column.all isNameChar = true) :
    toPositional ((block.probed dialect).updateHead
        ++ (clause.text ++ '\n' :: (block.probed dialect).unaliasedWhere dialect)) clause.parameters
      = boundUpdate dialect (block.probed dialect) assignment clause := by
  obtain ⟨hparse, htable⟩ := block.parse_probe dialect
  have hkept : ∀ entry ∈ assignment.keep .empty, entry.value.isLiteral = true →
      entry.column.all isNameChar = true := by
    rwa [Assignment.keep_empty]
  obtain ⟨statement, hstatement, hbound⟩ := h _ _ _ _ _ hparse rfl htable hclause hkept
  obtain ⟨query, other, hquery, hother, rfl⟩ := compileUpdate_eq_ok_iff.mp hstatement
  obtain rfl : block.probed dialect = query := Except.ok.inj (hparse.symm.trans hquery)
  obtain rfl : clause = other := Except.ok.inj (hclause.symm.trans hother)
  rwa [Assignment.keep_empty] at hbound

/-- A bound text holds no name that has a value. -/
theorem placeholder_notMem_of_toPositional (sql : Text) {name : Text} {bindings : List Binding}
    (hname : name ∈ bindings.map (·.name)) :
    .placeholder name ∉ segments (toPositional sql bindings).sql := by
  intro hmem
  obtain ⟨numbered, hnumbered, hagain⟩ := exists_isNumbering (toPositional sql bindings).sql bindings
  rw [toPositional_toPositional, PositionalQuery.mk.injEq] at hagain
  have hnone : numbered = [] := List.map_eq_nil_iff.mp hagain.2.symm
  have hnumber := (hnumbered.mem_iff name).mpr ⟨hmem, hname⟩
  rw [hnone] at hnumber
  cases hnumber

/-- In a run that is open in front of the probe, the parameter of the probe is not found, unless the closing
quote of its table closes the run. -/
theorem placeholder_notMem_behind_open_quote (dialect : Dialect) {opening close : Char}
    (hclose : closingQuote? opening = some close)
    (hother : ¬(dialect.openQuote ≠ dialect.closeQuote ∧ opening = dialect.openQuote)) :
    .placeholder (dialect.parameterName "A".toList 0)
      ∉ segments (spanQuoted close ("UPDATE ".toList ++ dialect.quote "T".toList ++ "\nSET ".toList
          ++ dialect.quote "A".toList ++ " = ".toList ++ dialect.parameterName "A".toList 0
          ++ "\nWHERE t".toList)).2 := by
  unfold closingQuote? at hclose
  split at hclose
  all_goals cases hclose
  all_goals cases dialect
  all_goals first
    | decide +kernel
    | exact absurd ⟨by decide, rfl⟩ hother

/-- **Comments leave binding alone exactly if they are quiet**: if no quote is open behind them that the
closing quote of a table does not close, and they mention no name that a parameter could have. -/
theorem bindsEveryUpdate_iff_isQuiet (dialect : Dialect) (block : CommentBlock) :
    block.BindsEveryUpdate dialect ↔ IsQuiet dialect block.text := by
  constructor
  · intro h
    have hunnamed : ∀ column ordinal, column.all isNameChar = true →
        .placeholder (dialect.parameterName column ordinal) ∉ segments (block.text ++ ['\n']) := by
      -- a name in the comments would be bound there, so that the comments would change
      intro column ordinal hcolumn hmem
      obtain ⟨clause, hclause, hname⟩ := Assignment.exists_compile_repeated dialect column ordinal
      have hbound := h.probe hclause fun entry hentry _ => by
        rw [List.eq_of_mem_replicate hentry]
        exact hcolumn
      have hfree := placeholder_notMem_of_toPositional ((block.probed dialect).updateHead
        ++ (clause.text ++ '\n' :: (block.probed dialect).unaliasedWhere dialect)) hname
      rw [hbound, boundUpdate, SourceQuery.updateHead_of_preamble rfl, List.append_assoc] at hfree
      exact hfree (placeholder_mem_segments_append hmem _)
    refine ⟨?_, hunnamed⟩
    rcases block.text.endsPlain_or_endsInQuotes with hplain | ⟨opening, close, hquotes⟩
    · exact .inl hplain
    · -- any other run would go on up to the parameter of the probe, and its value would not be bound
      by_contra hclosed
      have hother : ¬(dialect.openQuote ≠ dialect.closeQuote ∧ opening = dialect.openQuote) := by
        rintro ⟨hdiffer, rfl⟩
        have hclose : closingQuote? dialect.openQuote = some dialect.closeQuote := by
          cases dialect <;> rfl
        obtain rfl : close = dialect.closeQuote := Option.some_inj.mp (hquotes.1.symm.trans hclose)
        exact hclosed (.inr ⟨hdiffer, hquotes⟩)
      obtain ⟨clause, hclause, hname⟩ := Assignment.exists_compile_repeated dialect "A".toList 0
      obtain rfl : ⟨[dialect.quote "A".toList ++ " = ".toList ++ dialect.parameterName "A".toList 0],
          [⟨dialect.parameterName "A".toList 0, .null⟩]⟩ = clause := Except.ok.inj hclause
      have hbound := h.probe hclause fun entry hentry _ => by
        rw [List.eq_of_mem_replicate hentry]
        decide
      have hmem := Assignment.placeholder_mem_of_length (by rw [hbound]; rfl) hname
      rw [block.text_probed_update] at hmem
      obtain ⟨parts, content, hsegments⟩ := hquotes.exists_segments_append
      have hline := hsegments []
      rw [List.append_nil] at hline
      rw [hsegments, List.mem_append, List.mem_cons] at hmem
      rcases hmem with hmem | hmem | hmem
      · refine hunnamed "A".toList 0 (by decide) ?_
        rw [hline]
        exact List.mem_append_left _ hmem
      · cases hmem
      · exact placeholder_notMem_behind_open_quote dialect hquotes.1 hother hmem
  · intro h source query assignment ignored clause hquery hpreamble htable hclause hcolumns
    have hhead := h.endsPlain_head htable
    rw [← SourceQuery.updateHead_of_preamble hpreamble] at hhead
    refine ⟨_, compileUpdate_eq_ok_iff.mpr ⟨query, clause, hquery, hclause, rfl⟩, ?_⟩
    refine toPositional_of_endsPlain_head hclause hcolumns hhead.1 ?_
    -- the parameters are named after columns of name characters, and no such name is in the comments
    intro name hplace hname
    obtain ⟨parameter, hmem, rfl⟩ := List.mem_map.mp hname
    obtain ⟨before, earlier, entry, later, hentries, hvalue, hparameter, -⟩ :=
      exists_isAssigned_of_mem hclause hmem
    have hcolumn : entry.column.all isNameChar = true := by
      refine hcolumns entry (by simp [hentries]) ?_
      rw [Expr.isLiteral_eq_isSome, hvalue]
      rfl
    have hcomment := hhead.2 _ hplace
    rw [hparameter] at hcomment
    exact h.unnamed _ _ hcolumn hcomment

/-- A comment with an apostrophe. -/
def urgentComment : CommentBlock where
  lines := [⟨[], " it's urgent".toList, rfl, by decide, by decide⟩]
  lines_ne_nil := List.cons_ne_nil _ _
  trimEnd_textOf := by decide +kernel

/-- A query behind `urgentComment`. -/
def urgentOrders : Text :=
  "-- it's urgent\n\nSELECT [o].[Id] FROM [Orders] AS [o] WHERE [o].[Id] = 1".toList

/-- The assignment of a status. -/
def shippedStatus : Assignment := [⟨"Status".toList, .constant (.text "shipped".toList)⟩]

/-- Behind an apostrophe in a comment the SET clause is taken for quoted text: its parameter is left in the
statement, and its value is not bound. -/
theorem parameter_lost_behind_apostrophe :
    ¬urgentComment.BindsEveryUpdate .sqlServer
      ∧ compileUpdate .sqlServer urgentOrders shippedStatus .empty
        = .ok ⟨"-- it's urgent\nUPDATE [Orders]\nSET [Status] = @Status_P0\nWHERE [Id] = 1".toList,
          [⟨"@Status_P0".toList, .text "shipped".toList⟩]⟩
      ∧ toPositional "-- it's urgent\nUPDATE [Orders]\nSET [Status] = @Status_P0\nWHERE [Id] = 1".toList
          [⟨"@Status_P0".toList, .text "shipped".toList⟩]
        = ⟨"-- it's urgent\nUPDATE [Orders]\nSET [Status] = @Status_P0\nWHERE [Id] = 1".toList, []⟩ := by
  have hparse : SourceQuery.parse .sqlServer urgentOrders
      = .ok ⟨some urgentComment.text, "[Orders]".toList, "[o]".toList, "WHERE [o].[Id] = 1".toList⟩ := by
    decide +kernel
  have hwhere : SourceQuery.unaliasedWhere .sqlServer
      ⟨some urgentComment.text, "[Orders]".toList, "[o]".toList, "WHERE [o].[Id] = 1".toList⟩
      = "WHERE [Id] = 1".toList := by
    decide +kernel
  have hcompile : compileUpdate .sqlServer urgentOrders shippedStatus .empty
      = .ok ⟨"-- it's urgent\nUPDATE [Orders]\nSET [Status] = @Status_P0\nWHERE [Id] = 1".toList,
        [⟨"@Status_P0".toList, .text "shipped".toList⟩]⟩ := by
    rw [compileUpdate_of_parse hparse, hwhere]
    rfl
  have hbind : toPositional
      "-- it's urgent\nUPDATE [Orders]\nSET [Status] = @Status_P0\nWHERE [Id] = 1".toList
      [⟨"@Status_P0".toList, .text "shipped".toList⟩]
      = ⟨"-- it's urgent\nUPDATE [Orders]\nSET [Status] = @Status_P0\nWHERE [Id] = 1".toList, []⟩ := by
    decide +kernel
  refine ⟨?_, hcompile, hbind⟩
  intro h
  obtain ⟨statement, hstatement, hbound⟩ := h _ _ shippedStatus .empty _ hparse rfl
    ⟨"Orders".toList, [], by decide⟩ rfl (by decide)
  -- no value is bound, where one is to be
  obtain rfl := Except.ok.inj (hcompile.symm.trans hstatement)
  rw [hbind] at hbound
  cases congrArg PositionalQuery.values hbound

end BulkDml
