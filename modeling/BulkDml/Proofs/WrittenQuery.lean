import BulkDml.Proofs.Preamble
import BulkDml.Proofs.QueryLayout

/-! # Queries as they are written

A `WrittenQuery` is a query in the form in which planners write it: declarations and a blank line, or
neither, and then `SELECT … FROM … AS … WHERE …` with any white space between its parts and the keywords in
any letter case.  Its parts are passages, so that literals, quoted identifiers and comments in them may hold
keywords and blank lines.

`WrittenQuery.compile_text` says what becomes of all of them: the parts are found exactly as they were
written, and a statement is put together from them.

* `Keyword.Spelling`, `Blanks` — a keyword in some letter case, and white space that is not empty;
* `Declarations` — declarations and the blank line behind them;
* `WrittenQuery.text`, `WrittenQuery.source` — the text of a query and the parts to be found in it;
* `WrittenQuery.layout_reads` — the layout of the text.
-/

namespace BulkDml

/-! ## Parts of a query -/

/-- A keyword in some letter case. -/
abbrev Keyword.Spelling (keyword : Keyword) : Type :=
  { text : Text // text.equalsIgnoringCase keyword.text = true }

/-- White space that is not empty. -/
abbrev Blanks : Type := { text : Text // text ≠ [] ∧ text.isAllBlank = true }

/-- A character whose lower case is a word character is one itself. -/
theorem isWordChar_of_toLower {c : Char} (h : isWordChar c.toLower = true) : isWordChar c = true := by
  unfold Char.toLower at h
  split at h
  · next hupper =>
    have hrange : 65 ≤ c.toNat ∧ c.toNat ≤ 90 := by
      simpa [UInt32.le_iff_toNat_le] using hupper
    simp [isWordChar, isAlphanum_iff, hrange]
  · exact h

namespace Keyword.Spelling

variable {keyword : Keyword} (spelling : keyword.Spelling)

/-- A keyword is not empty. -/
theorem ne_nil : spelling.val ≠ [] := by
  intro h
  have hsame := spelling.property
  rw [h] at hsame
  revert hsame
  cases keyword <;> decide

/-- A keyword is a run of word characters. -/
theorem isWordChar_of_mem {c : Char} (hc : c ∈ spelling.val) : isWordChar c = true := by
  have hsame := spelling.property
  rw [Text.equalsIgnoringCase, beq_iff_eq] at hsame
  have hmem : c.toLower ∈ keyword.text.asciiLower := by
    rw [← hsame, Text.asciiLower]
    exact List.mem_map_of_mem hc
  have hall : keyword.text.asciiLower.all isWordChar = true := by
    cases keyword <;> decide
  exact isWordChar_of_toLower (List.all_eq_true.mp hall _ hmem)

end Keyword.Spelling

namespace Blanks

/-- White space in front of anything goes on with white space. -/
theorem startsBlank_append (blanks : Blanks) (rest : Text) :
    Text.startsBlank (blanks.val ++ rest) = true :=
  Text.startsBlank_append rest blanks.property.2 fun h => absurd h blanks.property.1

end Blanks

/-- Declarations in front of a query, and the blank line behind them. -/
structure Declarations (dialect : Dialect) where
  /-- The declarations. -/
  passage : Passage dialect
  /-- Something is declared. -/
  ne_nil : passage.text ≠ []
  /-- No white space stands around the declarations. -/
  trim_text : passage.text.trim = passage.text
  /-- No line of the declarations is blank. -/
  no_blank_line : ∀ line ∈ linesOf passage.text, line.isAllBlank = false
  /-- The declarations hold no part of a query. -/
  no_query : mentionsNoneOf [.SELECT, .FROM] passage.pieces
  /-- The white space behind the declarations. -/
  blankLine : Text
  /-- Nothing but white space stands there. -/
  blankLine_blank : blankLine.isAllBlank = true
  /-- There is a blank line in it, between two line breaks. -/
  two_newlines : 2 ≤ blankLine.count '\n'

/-- A query with its declarations, as it is written. -/
structure WrittenQuery (dialect : Dialect) where
  /-- The declarations in front of the query, if there are any. -/
  declarations : Option (Declarations dialect)
  /-- The word `SELECT`. -/
  selectWord : Keyword.Spelling .SELECT
  /-- The white space behind `SELECT`. -/
  afterSelect : Blanks
  /-- The items. -/
  items : Passage dialect
  /-- The white space in front of `FROM`. -/
  beforeFrom : Blanks
  /-- The word `FROM`. -/
  fromWord : Keyword.Spelling .FROM
  /-- The white space behind `FROM`. -/
  afterFrom : Blanks
  /-- The table. -/
  table : Passage dialect
  /-- The white space in front of `AS`. -/
  beforeAs : Blanks
  /-- The word `AS`. -/
  asWord : Keyword.Spelling .AS
  /-- The white space behind `AS`. -/
  afterAs : Blanks
  /-- The alias, one word or one quoted identifier. -/
  tableAlias : Lexeme
  /-- The white space in front of `WHERE`. -/
  beforeWhere : Blanks
  /-- The word `WHERE`. -/
  whereWord : Keyword.Spelling .WHERE
  /-- The white space behind `WHERE`. -/
  afterWhere : Blanks
  /-- The condition. -/
  condition : Passage dialect
  /-- The items hold none of the words that a query is split at. -/
  items_mentions : mentionsNoneOf [.FROM, .AS, .WHERE] items.pieces
  /-- The table holds none of them. -/
  table_mentions : mentionsNoneOf [.FROM, .AS, .WHERE] table.pieces
  /-- The table is not empty. -/
  table_ne_nil : table.text ≠ []
  /-- No white space stands around the table. -/
  trim_table : table.text.trim = table.text
  /-- The alias is a token. -/
  alias_isToken : tableAlias.isToken = true
  /-- The alias is closed. -/
  alias_isComplete : tableAlias.IsComplete dialect
  /-- The text of the alias is a single piece. -/
  lex_alias : lex dialect tableAlias.text = [tableAlias]
  /-- The alias is none of the words that a query is split at. -/
  alias_mentions : mentionsNoneOf [.FROM, .AS, .WHERE] [tableAlias]
  /-- The condition holds no `FROM`. -/
  condition_mentions : mentions .FROM condition.pieces = false

/-! ## Pieces of the parts -/

/-- A passage and the white space behind it. -/
theorem Passage.lex_append_blanks {dialect : Dialect} (passage : Passage dialect) (blanks : Blanks)
    (rest : Text) :
    lex dialect (passage.text ++ (blanks.val ++ rest))
      = passage.pieces ++ (blanks.val.map Lexeme.other ++ lex dialect rest) := by
  rw [passage.lex_append (blanks.startsBlank_append rest), lex_blank_append _ _ blanks.property.2]

/-- A keyword and the white space behind it. -/
theorem Keyword.Spelling.lex_append_blanks {keyword : Keyword} (spelling : keyword.Spelling)
    (dialect : Dialect) (blanks : Blanks) (rest : Text) :
    lex dialect (spelling.val ++ (blanks.val ++ rest))
      = .word spelling.val :: (blanks.val.map Lexeme.other ++ lex dialect rest) := by
  rw [Passage.lex_word_append spelling.ne_nil (fun _ => spelling.isWordChar_of_mem)
    (blanks.startsBlank_append rest), lex_blank_append _ _ blanks.property.2]

/-- White space holds no keyword. -/
theorem mentions_map_other (keyword : Keyword) (blanks : Text) :
    mentions keyword (blanks.map Lexeme.other) = false := by
  refine mentions_eq_false_of_no_token ?_ keyword
  intro piece hpiece
  obtain ⟨c, -, rfl⟩ := List.mem_map.mp hpiece
  rfl

/-- White space around pieces does not matter to the keywords among them. -/
theorem mentionsNoneOf_between_blanks {keywords : List Keyword} {pieces : List Lexeme}
    (before after : Text) (h : mentionsNoneOf keywords pieces) :
    mentionsNoneOf keywords (before.map Lexeme.other ++ (pieces ++ after.map Lexeme.other)) := by
  intro keyword hkeyword
  simp [mentions_map_other, h keyword hkeyword]

namespace WrittenQuery

variable {dialect : Dialect} (query : WrittenQuery dialect)

/-- The alias as a passage. -/
def aliasPassage : Passage dialect where
  pieces := [query.tableAlias]
  isComplete := by simpa using query.alias_isComplete
  lex_textOf := by simpa using query.lex_alias

/-- The text of the alias. -/
theorem text_aliasPassage : query.aliasPassage.text = query.tableAlias.text := by
  simp [aliasPassage, Passage.text]

/-- The text from `WHERE` on. -/
def whereText : Text :=
  query.whereWord.val ++ (query.afterWhere.val ++ query.condition.text)

/-- The text of the query without declarations. -/
def body : Text :=
  query.selectWord.val ++ (query.afterSelect.val ++ (query.items.text ++ (query.beforeFrom.val
    ++ (query.fromWord.val ++ (query.afterFrom.val ++ (query.table.text ++ (query.beforeAs.val
      ++ (query.asWord.val ++ (query.afterAs.val ++ (query.tableAlias.text ++ (query.beforeWhere.val
        ++ query.whereText)))))))))))

/-- The text of the query. -/
def text : Text :=
  match query.declarations with
  | none => query.body
  | some declarations => declarations.passage.text ++ declarations.blankLine ++ query.body

/-- The parts that are to be found in the text. -/
def source : SourceQuery where
  preamble := query.declarations.map (·.passage.text)
  table := query.table.text
  tableAlias := query.tableAlias.text
  whereClause := query.whereText.trimEnd

/-- The layout of the query. -/
def layout : QueryLayout where
  items := .word query.selectWord.val :: (query.afterSelect.val.map .other
    ++ (query.items.pieces ++ query.beforeFrom.val.map .other))
  fromWord := .word query.fromWord.val
  table := query.afterFrom.val.map .other ++ (query.table.pieces ++ query.beforeAs.val.map .other)
  asWord := .word query.asWord.val
  lead := query.afterAs.val.map .other
  aliasToken := query.tableAlias
  gap := query.beforeWhere.val.map .other
  whereWord := .word query.whereWord.val
  condition := query.afterWhere.val.map .other ++ query.condition.pieces

/-- The pieces of the query without declarations. -/
theorem lex_body : lex dialect query.body = query.layout.pieces := by
  -- White space follows every part, so that each is cut off as if it stood alone.
  rw [body, whereText, ← text_aliasPassage]
  rw [query.selectWord.lex_append_blanks, query.items.lex_append_blanks,
    query.fromWord.lex_append_blanks, query.table.lex_append_blanks, query.asWord.lex_append_blanks,
    query.aliasPassage.lex_append_blanks, query.whereWord.lex_append_blanks, query.condition.lex_text]
  simp [QueryLayout.pieces, layout, aliasPassage]

/-- The table of the layout is the table with white space around it. -/
theorem trim_layout_table : (textOf query.layout.table).trim = query.table.text := by
  have htext : textOf query.layout.table
      = query.afterFrom.val ++ query.table.text ++ query.beforeAs.val := by
    simp [layout, Passage.text]
  rw [htext, Text.trim_append_blank _ query.afterFrom.property.2 query.beforeAs.property.2,
    query.trim_table]

/-- The parts of the layout stand where they should. -/
theorem layout_isFramed : query.layout.IsFramed where
  items := by
    intro keyword hkeyword
    -- `SELECT` belongs to the items and is none of the three words
    have hselect : (Lexeme.word query.selectWord.val).isKeyword keyword = false := by
      refine Lexeme.isKeyword_unique (show _ = true from query.selectWord.property) ?_
      rintro rfl
      simp at hkeyword
    rw [layout, mentions_cons, hselect, Bool.false_or]
    exact mentionsNoneOf_between_blanks _ _ query.items_mentions keyword hkeyword
  fromWord := query.fromWord.property
  table := mentionsNoneOf_between_blanks _ _ query.table_mentions
  table_ne_nil := by
    rw [query.trim_layout_table]
    exact query.table_ne_nil
  asWord := query.asWord.property
  lead := by
    intro piece hpiece
    obtain ⟨c, -, rfl⟩ := List.mem_map.mp hpiece
    rfl
  aliasToken := query.alias_isToken
  aliasToken_isName := query.alias_mentions
  gap := mentions_map_other _ _
  whereWord := query.whereWord.property
  condition := by
    rw [layout, mentions_append, mentions_map_other, query.condition_mentions]
    rfl

/-- The layout stands for the parts of the query. -/
theorem layout_query :
    query.layout.query (query.declarations.map (·.passage.text)) = query.source := by
  have hwhere : textOf (query.layout.whereWord :: query.layout.condition) = query.whereText := by
    simp [layout, whereText, Passage.text, Lexeme.text]
  rw [QueryLayout.query, query.trim_layout_table, hwhere]
  rfl

/-- A text that starts with a keyword is kept by trimming its start. -/
theorem trimStart_body : query.body.trimStart = query.body := by
  obtain ⟨c, tail, hword⟩ := List.exists_cons_of_ne_nil query.selectWord.ne_nil
  have hc : isBlank c = false := by
    rw [Bool.eq_false_iff]
    intro hblank
    have hchar := query.selectWord.isWordChar_of_mem (c := c) (by simp [hword])
    rw [isWordChar_eq_false_of_isBlank hblank] at hchar
    cases hchar
  rw [body, hword, List.cons_append, Text.trimStart_cons_of_not_blank _ hc]

/-- The declarations are set apart from the rest of the text. -/
theorem splitPreamble_text :
    splitPreamble dialect query.text = (query.declarations.map (·.passage.text), query.body) := by
  cases h : query.declarations with
  | none =>
    rw [text, h]
    exact splitPreamble_of_select query.selectWord.ne_nil
      (fun _ => query.selectWord.isWordChar_of_mem) query.selectWord.property
      (query.afterSelect.startsBlank_append _)
  | some declarations =>
    -- a `SELECT` or `FROM` in the declarations would make them part of the query
    have hquery : startsQuery dialect declarations.passage.text = false := by
      have hselect := declarations.no_query .SELECT (by simp)
      have hfrom := declarations.no_query .FROM (by simp)
      rw [mentions, List.any_eq_false] at hselect hfrom
      rw [startsQuery, declarations.passage.lex_text, List.any_eq_false]
      intro piece hpiece
      simp [hselect piece hpiece, hfrom piece hpiece]
    have hend := (Text.trim_eq_self_iff.mp declarations.trim_text).2
    rw [text, h]
    show splitPreamble dialect
      (declarations.passage.text ++ declarations.blankLine ++ query.body) = _
    rw [splitPreamble_of_blankLine _ declarations.ne_nil hend
      declarations.no_blank_line hquery declarations.blankLine_blank declarations.two_newlines,
      query.trimStart_body]
    rfl

/-- The layout is that of the text. -/
theorem layout_reads : query.layout.Reads dialect query.text :=
  ⟨query.layout_isFramed, by rw [query.splitPreamble_text, query.lex_body]⟩

/-- The parts of the query are found in its text. -/
theorem parse_text_eq_source : SourceQuery.parse dialect query.text = .ok query.source := by
  -- the gap is white space, which is all that is asked of it
  have hfrom : mentions .FROM query.layout.gap = false := mentions_map_other _ _
  have has : mentions .AS query.layout.gap = false := mentions_map_other _ _
  rw [SourceQuery.parse_of_reads query.layout_reads, hfrom, has, query.splitPreamble_text,
    query.layout_query]
  rfl

/-! ## Statements -/

/-- The declarations as the first lines of a statement. -/
def firstLines : Text :=
  match query.declarations with
  | none => []
  | some declarations => declarations.passage.text ++ ['\n']

/-- The condition as the last lines of a statement, without the qualifiers that name the alias. -/
def lastLines : Text :=
  textOf (dropQualifier query.tableAlias.text (lex dialect query.whereText.trimEnd))

/-- The lines of a statement start with the declarations. -/
theorem assemble_source (part : Text) (parts : List Text) :
    Statement.assemble query.source.preamble (part :: parts)
      = query.firstLines ++ Text.joinWith ['\n'] (part :: parts) := by
  rw [source, firstLines]
  cases query.declarations with
  | none => rfl
  | some declarations => rw [Statement.assemble]; simp

/-- **A written query is read and compiled as it is written**: its parts are found one by one, its DELETE
consists of the declarations, the table and the condition without the alias, and its UPDATE has the compiled
assignments between the last two. -/
theorem compile_text :
    SourceQuery.parse dialect query.text = .ok query.source
      ∧ compileDelete dialect query.text
        = .ok ⟨query.firstLines ++ "DELETE FROM ".toList ++ query.table.text
            ++ '\n' :: query.lastLines, []⟩
      ∧ ∀ (assignment : Assignment) (ignored : IgnoreSet),
        compileUpdate dialect query.text assignment ignored
          = (assignment.compile dialect ignored).map fun clause =>
            ⟨query.firstLines ++ "UPDATE ".toList ++ query.table.text
              ++ '\n' :: "SET ".toList ++ Text.joinWith ", ".toList clause.fragments
              ++ '\n' :: query.lastLines, clause.parameters⟩ := by
  have hparse := query.parse_text_eq_source
  refine ⟨hparse, ?_, ?_⟩
  · rw [compileDelete_of_parse hparse, assemble_source]
    simp [source, lastLines, SourceQuery.unaliasedWhere]
  · intro assignment ignored
    rw [compileUpdate_of_parse hparse]
    congr 1
    funext clause
    rw [assemble_source]
    simp [source, lastLines, SourceQuery.unaliasedWhere]

/-- The pieces `DECLARE @p0;`. -/
def shippedDeclaration : List Lexeme :=
  [.word "DECLARE".toList, .other ' ', .other '@', .word "p0".toList, .other ';']

/-- The pieces `[o].[FROM],'it''s AS'`. -/
def shippedItems : List Lexeme :=
  [.quoted "[o]".toList, .other '.', .quoted "[FROM]".toList, .other ',',
    .literal "'it''s AS'".toList]

/-- The pieces `[o].[Id]=@p0 -- FROM`, with a line break behind them. -/
def shippedCondition : List Lexeme :=
  [.quoted "[o]".toList, .other '.', .quoted "[Id]".toList, .other '=', .other '@',
    .word "p0".toList, .other ' ', .comment "-- FROM\n".toList]

/-- The text of the declaration is cut into its pieces. -/
theorem lex_shippedDeclaration : lex .sqlServer (textOf shippedDeclaration) = shippedDeclaration := by
  decide +kernel

/-- The text of the items is cut into its pieces. -/
theorem lex_shippedItems : lex .sqlServer (textOf shippedItems) = shippedItems := by
  decide +kernel

/-- The text of the condition is cut into its pieces. -/
theorem lex_shippedCondition : lex .sqlServer (textOf shippedCondition) = shippedCondition := by
  decide +kernel

/-- The alias is cut into a single piece. -/
theorem lex_shippedAlias : lex .sqlServer "[o]".toList = [.quoted "[o]".toList] := by
  decide +kernel

/-- A query with declarations, keywords in literals, identifiers and comments, and a blank line inside. -/
def shippedOrders : WrittenQuery .sqlServer where
  declarations := some {
    passage := {
      pieces := shippedDeclaration
      isComplete := by simp [shippedDeclaration, Lexeme.IsComplete]
      lex_textOf := lex_shippedDeclaration }
    ne_nil := by decide
    trim_text := by decide
    no_blank_line := by decide
    no_query := by unfold mentionsNoneOf; decide
    blankLine := "\r\n \r\n".toList
    blankLine_blank := by decide
    two_newlines := by decide }
  selectWord := ⟨"select".toList, by decide⟩
  afterSelect := ⟨" ".toList, by decide⟩
  items := {
    pieces := shippedItems
    isComplete := by
      intro piece hpiece
      simp only [shippedItems, List.mem_cons, List.not_mem_nil, or_false] at hpiece
      rcases hpiece with rfl | rfl | rfl | rfl | rfl
      · exact ⟨"o".toList, by decide⟩
      · trivial
      · exact ⟨"FROM".toList, by decide⟩
      · trivial
      · exact ⟨"it's AS".toList, by decide⟩
    lex_textOf := lex_shippedItems }
  beforeFrom := ⟨"\n".toList, by decide⟩
  fromWord := ⟨"From".toList, by decide⟩
  afterFrom := ⟨"  ".toList, by decide⟩
  table := .ofWord .sqlServer "Orders".toList (by decide) (List.all_eq_true.mp (by decide))
  beforeAs := ⟨" ".toList, by decide⟩
  asWord := ⟨"AS".toList, by decide⟩
  afterAs := ⟨" ".toList, by decide⟩
  tableAlias := .quoted "[o]".toList
  beforeWhere := ⟨"\n\n".toList, by decide⟩
  whereWord := ⟨"WHERE".toList, by decide⟩
  afterWhere := ⟨" ".toList, by decide⟩
  condition := {
    pieces := shippedCondition
    isComplete := by
      intro piece hpiece
      simp only [shippedCondition, List.mem_cons, List.not_mem_nil, or_false] at hpiece
      rcases hpiece with rfl | rfl | rfl | rfl | rfl | rfl | rfl | rfl
      · exact ⟨"o".toList, by decide⟩
      · trivial
      · exact ⟨"Id".toList, by decide⟩
      · trivial
      · trivial
      · trivial
      · trivial
      · exact ⟨"-- FROM".toList, by decide, by decide⟩
    lex_textOf := lex_shippedCondition }
  items_mentions := by unfold mentionsNoneOf; decide
  table_mentions := by unfold mentionsNoneOf; decide
  table_ne_nil := by decide
  trim_table := by decide
  alias_isToken := rfl
  alias_isComplete := ⟨"o".toList, by decide⟩
  lex_alias := lex_shippedAlias
  alias_mentions := by unfold mentionsNoneOf; decide
  condition_mentions := by decide

/-- The DELETE for that query. -/
theorem compileDelete_shippedOrders :
    compileDelete .sqlServer ("DECLARE @p0;\r\n \r\nselect [o].[FROM],'it''s AS'\nFrom  Orders AS [o]\n\n".toList
        ++ "WHERE [o].[Id]=@p0 -- FROM\n".toList)
      = .ok ⟨"DECLARE @p0;\nDELETE FROM Orders\nWHERE [Id]=@p0 -- FROM".toList, []⟩ := by
  have htext : shippedOrders.text
      = "DECLARE @p0;\r\n \r\nselect [o].[FROM],'it''s AS'\nFrom  Orders AS [o]\n\n".toList
        ++ "WHERE [o].[Id]=@p0 -- FROM\n".toList := by
    decide +kernel
  have hlast : shippedOrders.lastLines = "WHERE [Id]=@p0 -- FROM".toList := by decide +kernel
  have hfirst : shippedOrders.firstLines ++ "DELETE FROM ".toList ++ shippedOrders.table.text
      = "DECLARE @p0;\nDELETE FROM Orders".toList := by
    decide +kernel
  have hdelete := shippedOrders.compile_text.2.1
  rw [htext, hlast, hfirst] at hdelete
  exact hdelete

end WrittenQuery

end BulkDml
