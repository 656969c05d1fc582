import BulkDml.Statement
import BulkDml.Proofs.Passage

/-! # The layout of an accepted query

A query is accepted for the words `FROM`, `AS` and `WHERE` in it and for nothing else.  `QueryLayout`
names the pieces that these words and the alias cut a query into, and `SourceQuery.ofPieces` is settled on
every query that has such a layout (`SourceQuery.ofPieces_of_isFramed`); no other query is accepted
(`SourceQuery.exists_isFramed_of_ofPieces`).

What stands between the alias and `WHERE` is the *gap* of the layout.  It has no part in the result, and it
is refused only for a further `FROM` or `AS` in it.

* `splitKeyword_eq_some_iff` — where a list of pieces is split;
* `QueryLayout`, `QueryLayout.IsFramed`, `QueryLayout.query` — a layout, its well-formedness and the query
  that it stands for;
* `QueryLayout.Reads` — a layout of the query that a source text holds, unique by `QueryLayout.Reads.unique`;
* `SourceQuery.parse_of_reads` — the outcome for a text with a layout.
-/

namespace BulkDml

/-! ## Splitting at keywords -/

@[simp] theorem mentions_nil (keyword : Keyword) : mentions keyword [] = false := rfl

@[simp] theorem mentions_cons (keyword : Keyword) (piece : Lexeme) (rest : List Lexeme) :
    mentions keyword (piece :: rest) = (piece.isKeyword keyword || mentions keyword rest) := rfl

@[simp] theorem mentions_append (keyword : Keyword) (left right : List Lexeme) :
    mentions keyword (left ++ right) = (mentions keyword left || mentions keyword right) :=
  List.any_append

/-- Pieces are split at the first one that is the keyword. -/
theorem splitKeyword_append {keyword : Keyword} {before behind : List Lexeme} {found : Lexeme}
    (hbefore : mentions keyword before = false) (hfound : found.isKeyword keyword = true) :
    splitKeyword keyword (before ++ found :: behind) = some (before, found, behind) := by
  induction before with
  | nil => rw [List.nil_append, splitKeyword, if_pos hfound]
  | cons piece rest ih =>
    rw [mentions_cons, Bool.or_eq_false_iff] at hbefore
    rw [List.cons_append, splitKeyword, if_neg (by simp [hbefore.1]), ih hbefore.2]
    rfl

/-- What a split finds is the keyword, and no piece before it is. -/
theorem keyword_of_splitKeyword {keyword : Keyword} {pieces before behind : List Lexeme}
    {found : Lexeme} (h : splitKeyword keyword pieces = some (before, found, behind)) :
    mentions keyword before = false ∧ found.isKeyword keyword = true := by
  induction pieces generalizing before with
  | nil => simp [splitKeyword] at h
  | cons piece rest ih =>
    unfold splitKeyword at h
    split at h
    · next hpiece =>
      obtain ⟨rfl, rfl, -⟩ : [] = before ∧ piece = found ∧ rest = behind := by simpa using h
      exact ⟨rfl, hpiece⟩
    · next hpiece =>
      obtain ⟨⟨a, f, b⟩, hsplit, hcons⟩ := Option.map_eq_some_iff.mp h
      obtain ⟨rfl, rfl, rfl⟩ : piece :: a = before ∧ f = found ∧ b = behind := by simpa using hcons
      obtain ⟨hmentions, hfound⟩ := ih hsplit
      exact ⟨by simp [hpiece, hmentions], hfound⟩

/-- A split gives the pieces around the first one that is the keyword. -/
theorem splitKeyword_eq_some_iff {keyword : Keyword} {pieces before behind : List Lexeme}
    {found : Lexeme} :
    splitKeyword keyword pieces = some (before, found, behind) ↔
      pieces = before ++ found :: behind ∧ mentions keyword before = false
        ∧ found.isKeyword keyword = true := by
  constructor
  · intro h
    exact ⟨eq_append_of_splitKeyword h, keyword_of_splitKeyword h⟩
  · rintro ⟨rfl, hbefore, hfound⟩
    exact splitKeyword_append hbefore hfound

/-! ## Layouts -/

/-- The pieces of a query around `FROM`, `AS`, the alias and `WHERE`. -/
structure QueryLayout where
  /-- The pieces before `FROM`. -/
  items : List Lexeme
  /-- The word `FROM`. -/
  fromWord : Lexeme
  /-- The pieces between `FROM` and `AS`. -/
  table : List Lexeme
  /-- The word `AS`. -/
  asWord : Lexeme
  /-- The pieces between `AS` and the alias. -/
  lead : List Lexeme
  /-- The alias. -/
  aliasToken : Lexeme
  /-- The pieces between the alias and `WHERE`. -/
  gap : List Lexeme
  /-- The word `WHERE`. -/
  whereWord : Lexeme
  /-- The pieces behind `WHERE`. -/
  condition : List Lexeme

/-- Whether none of the pieces is one of the words that a query is split at. -/
def mentionsNoneOf (keywords : List Keyword) (pieces : List Lexeme) : Prop :=
  ∀ keyword ∈ keywords, mentions keyword pieces = false

namespace QueryLayout

/-- The pieces of the whole query. -/
def pieces (layout : QueryLayout) : List Lexeme :=
  layout.items ++ layout.fromWord :: (layout.table ++ layout.asWord :: (layout.lead
    ++ layout.aliasToken :: (layout.gap ++ layout.whereWord :: layout.condition)))

/-- A layout whose words and alias stand where the names of its parts say.  The gap holds no `WHERE`, so
that `whereWord` is the first one; nothing else is asked of the gap. -/
structure IsFramed (layout : QueryLayout) : Prop where
  /-- The items hold none of the three words. -/
  items : mentionsNoneOf [.FROM, .AS, .WHERE] layout.items
  /-- `FROM` is where it is said to be. -/
  fromWord : layout.fromWord.isKeyword .FROM = true
  /-- The table holds none of the three words. -/
  table : mentionsNoneOf [.FROM, .AS, .WHERE] layout.table
  /-- The table is not blank. -/
  table_ne_nil : (textOf layout.table).trim ≠ []
  /-- `AS` is where it is said to be. -/
  asWord : layout.asWord.isKeyword .AS = true
  /-- No token stands between `AS` and the alias. -/
  lead : ∀ piece ∈ layout.lead, piece.isToken = false
  /-- The alias is a token. -/
  aliasToken : layout.aliasToken.isToken = true
  /-- The alias is none of the three words. -/
  aliasToken_isName : mentionsNoneOf [.FROM, .AS, .WHERE] [layout.aliasToken]
  /-- No `WHERE` stands before `whereWord`. -/
  gap : mentions .WHERE layout.gap = false
  /-- `WHERE` is where it is said to be. -/
  whereWord : layout.whereWord.isKeyword .WHERE = true
  /-- The condition holds no `FROM`. -/
  condition : mentions .FROM layout.condition = false

/-- The query that a layout stands for.  The gap has no part in it. -/
def query (layout : QueryLayout) (preamble : Option Text) : SourceQuery where
  preamble := preamble
  table := (textOf layout.table).trim
  tableAlias := layout.aliasToken.text
  whereClause := (textOf (layout.whereWord :: layout.condition)).trimEnd

end QueryLayout

/-- A piece that is no token is no keyword. -/
theorem Lexeme.isKeyword_eq_false_of_not_token {piece : Lexeme} (h : piece.isToken = false)
    (keyword : Keyword) : piece.isKeyword keyword = false := by
  cases piece with
  | word text => simp [Lexeme.isToken] at h
  | _ => rfl

/-- A piece is only one keyword. -/
theorem Lexeme.isKeyword_unique {piece : Lexeme} {first second : Keyword}
    (hfirst : piece.isKeyword first = true) (hne : first ≠ second) :
    piece.isKeyword second = false := by
  cases piece with
  | word text =>
    simp only [Lexeme.isKeyword, Text.equalsIgnoringCase, beq_iff_eq] at hfirst
    simp only [Lexeme.isKeyword, Text.equalsIgnoringCase, hfirst]
    revert hne
    cases first <;> cases second <;> decide
  | _ => rfl

/-- A piece with a character that no keyword has is no keyword. -/
theorem Lexeme.isKeyword_eq_false_of_mem {piece : Lexeme} {c : Char} (hc : c ∈ piece.text)
    (hforeign : ∀ keyword : Keyword, c.toLower ∉ keyword.text.asciiLower) (keyword : Keyword) :
    piece.isKeyword keyword = false := by
  cases piece with
  | word run =>
    rw [isKeyword, Bool.eq_false_iff]
    intro hsame
    have hlower : run.asciiLower = keyword.text.asciiLower := by
      simpa [Text.equalsIgnoringCase] using hsame
    have hmem : c.toLower ∈ run.asciiLower := List.mem_map_of_mem hc
    rw [hlower] at hmem
    exact absurd hmem (hforeign keyword)
  | _ => rfl

/-- Whether a piece says nothing: white space or a comment. -/
def Lexeme.isTrivia : Lexeme → Bool
  | comment _ => true
  | other c => isBlank c
  | word _ | quoted _ | literal _ => false

/-- Pieces without tokens hold no keyword. -/
theorem mentions_eq_false_of_no_token {pieces : List Lexeme}
    (h : ∀ piece ∈ pieces, piece.isToken = false) (keyword : Keyword) :
    mentions keyword pieces = false := by
  rw [mentions, List.any_eq_false]
  intro piece hpiece
  rw [Lexeme.isKeyword_eq_false_of_not_token (h piece hpiece)]
  simp

namespace QueryLayout.IsFramed

variable {layout : QueryLayout} (h : layout.IsFramed)

include h

/-- The pieces are split at `FROM`. -/
theorem splitKeyword_from :
    splitKeyword .FROM layout.pieces
      = some (layout.items, layout.fromWord, layout.table ++ layout.asWord :: (layout.lead
        ++ layout.aliasToken :: (layout.gap ++ layout.whereWord :: layout.condition))) :=
  splitKeyword_append (h.items .FROM (by simp)) h.fromWord

/-- The pieces behind `FROM` are split at `AS`. -/
theorem splitKeyword_as :
    splitKeyword .AS (layout.table ++ layout.asWord :: (layout.lead
        ++ layout.aliasToken :: (layout.gap ++ layout.whereWord :: layout.condition)))
      = some (layout.table, layout.asWord, layout.lead
        ++ layout.aliasToken :: (layout.gap ++ layout.whereWord :: layout.condition)) :=
  splitKeyword_append (h.table .AS (by simp)) h.asWord

/-- No token stands before the alias, so that no keyword does. -/
theorem mentions_lead (keyword : Keyword) : mentions keyword layout.lead = false :=
  mentions_eq_false_of_no_token h.lead keyword

/-- The alias is no `WHERE`, and neither is anything between `AS` and `WHERE`. -/
theorem splitKeyword_where :
    splitKeyword .WHERE (layout.lead ++ layout.aliasToken :: (layout.gap
        ++ layout.whereWord :: layout.condition))
      = some (layout.lead ++ layout.aliasToken :: layout.gap, layout.whereWord,
        layout.condition) := by
  have halias : layout.aliasToken.isKeyword .WHERE = false := by
    simpa using h.aliasToken_isName .WHERE (by simp)
  have hbefore : mentions .WHERE (layout.lead ++ layout.aliasToken :: layout.gap) = false := by
    simp [h.mentions_lead, halias, h.gap]
  rw [← List.cons_append, ← List.append_assoc]
  exact splitKeyword_append hbefore h.whereWord

/-- The alias is the first token behind `AS`. -/
theorem find?_isToken :
    (layout.lead ++ layout.aliasToken :: layout.gap).find? Lexeme.isToken
      = some layout.aliasToken := by
  rw [List.find?_eq_some_iff_append]
  refine ⟨h.aliasToken, layout.lead, layout.gap, rfl, ?_⟩
  intro piece hpiece
  simp [h.lead piece hpiece]

end QueryLayout.IsFramed

namespace SourceQuery

/-- The outcome for the pieces of a layout: a further `FROM` or `AS` in the gap is an error, and anything
else in it is passed over. -/
theorem ofPieces_of_isFramed {layout : QueryLayout} (h : layout.IsFramed) (preamble : Option Text) :
    ofPieces preamble layout.pieces
      = if mentions .FROM layout.gap then .error (.duplicateKeyword .FROM)
        else if mentions .AS layout.gap then .error (.duplicateKeyword .AS)
        else .ok (layout.query preamble) := by
  have hitems := h.items
  have htable := h.table
  have halias := h.aliasToken_isName
  simp only [mentionsNoneOf, List.mem_cons, List.not_mem_nil, or_false, forall_eq_or_imp, forall_eq,
    mentions_cons, mentions_nil, Bool.or_false] at hitems htable halias
  -- The checks look at everything behind `FROM`, but the frame leaves only the gap to them.
  have hfrom : mentions .FROM (layout.table ++ layout.asWord :: (layout.lead
      ++ layout.aliasToken :: (layout.gap ++ layout.whereWord :: layout.condition)))
        = mentions .FROM layout.gap := by
    have has := Lexeme.isKeyword_unique h.asWord (show Keyword.AS ≠ .FROM by decide)
    have hwhere := Lexeme.isKeyword_unique h.whereWord (show Keyword.WHERE ≠ .FROM by decide)
    simp [htable, has, h.mentions_lead, halias, hwhere, h.condition]
  have hwhere : mentions .WHERE layout.pieces = true := by
    simp [QueryLayout.pieces, h.whereWord]
  have has : mentions .AS (layout.lead ++ layout.aliasToken :: layout.gap)
      = mentions .AS layout.gap := by
    simp [h.mentions_lead, halias]
  have htext : (textOf layout.table).trim.isEmpty = false := by
    simpa using h.table_ne_nil
  rw [ofPieces, h.splitKeyword_from]
  simp only [hfrom, hwhere, hitems, h.splitKeyword_as, h.splitKeyword_where, htable, has,
    h.find?_isToken, htext]
  rfl

/-- Only the pieces of a layout are accepted, and only without a further `FROM` or `AS` in the gap. -/
theorem exists_isFramed_of_ofPieces {preamble : Option Text} {pieces : List Lexeme}
    {query : SourceQuery} (h : ofPieces preamble pieces = .ok query) :
    ∃ layout : QueryLayout, layout.IsFramed ∧ pieces = layout.pieces
      ∧ mentions .FROM layout.gap = false ∧ mentions .AS layout.gap = false
      ∧ query = layout.query preamble := by
  -- Each check that an accepted query passes says something about one part of its layout.
  unfold ofPieces at h
  split at h
  · cases h
  next items fromWord afterFrom hfromSplit =>
  -- the first `FROM`, and no other behind it
  obtain ⟨rfl, hitemsFrom, hfromWord⟩ := splitKeyword_eq_some_iff.mp hfromSplit
  split at h
  · cases h
  next hfrom =>
  -- some `WHERE`, and none before `FROM`
  split at h
  · cases h
  split at h
  · cases h
  next hitemsWhere =>
  -- the first `AS` behind `FROM`, in whatever order the words are if there is none
  split at h
  · split at h <;> cases h
  next table asWord afterAs hasSplit =>
  obtain ⟨rfl, htableAs, hasWord⟩ := splitKeyword_eq_some_iff.mp hasSplit
  -- the first `WHERE` behind `AS`, which is the first of all
  split at h
  · cases h
  next aliasPieces whereWord condition hwhereSplit =>
  obtain ⟨rfl, haliasWhere, hwhereWord⟩ := splitKeyword_eq_some_iff.mp hwhereSplit
  split at h
  · cases h
  next htableWhere =>
  -- no further `AS` before `WHERE`
  split at h
  · cases h
  next has =>
  -- a table and an alias, and with the alias the pieces on either side of it
  dsimp only at h
  split at h
  · cases h
  next htext =>
  split at h
  · cases h
  next token htoken =>
  obtain ⟨hisToken, lead, gap, rfl, hlead⟩ := List.find?_eq_some_iff_append.mp htoken
  simp only [mentions_append, mentions_cons, Bool.or_eq_true, not_or, Bool.not_eq_true,
    Bool.or_eq_false_iff] at hfrom has haliasWhere htableWhere hitemsWhere
  obtain ⟨htableFrom, -, ⟨-, haliasFrom, hgapFrom⟩, -, hconditionFrom⟩ := hfrom
  obtain ⟨hitemsAs, -, haliasAs, hgapAs⟩ := has
  obtain ⟨-, haliasWhere, hgapWhere⟩ := haliasWhere
  refine ⟨⟨items, fromWord, table, asWord, lead, token, gap, whereWord, condition⟩, ?_, ?_,
    hgapFrom, hgapAs, ?_⟩
  · constructor
    · simp [mentionsNoneOf, hitemsFrom, hitemsAs, hitemsWhere]
    · exact hfromWord
    · simp [mentionsNoneOf, htableFrom, htableAs, htableWhere]
    · simpa using htext
    · exact hasWord
    · simpa using hlead
    · exact hisToken
    · simp [mentionsNoneOf, haliasFrom, haliasAs, haliasWhere]
    · exact hgapWhere
    · exact hwhereWord
    · exact hconditionFrom
  · simp [QueryLayout.pieces]
  · exact (Except.ok.inj h).symm

end SourceQuery

/-! ## The layout of a source text -/

namespace QueryLayout

/-- The layout of the query that a source text holds behind its declarations. -/
def Reads (dialect : Dialect) (text : Text) (layout : QueryLayout) : Prop :=
  layout.IsFramed ∧ lex dialect (splitPreamble dialect text).2 = layout.pieces

/-- The pieces before the first token are those before the alias. -/
theorem IsFramed.takeWhile_not_token {layout : QueryLayout} (h : layout.IsFramed) :
    (layout.lead ++ layout.aliasToken :: layout.gap).takeWhile (!·.isToken) = layout.lead := by
  have hlead : ∀ piece ∈ layout.lead, (!piece.isToken) = true := by
    intro piece hpiece
    rw [h.lead piece hpiece]
    rfl
  rw [List.takeWhile_append_of_pos hlead, List.takeWhile_cons_of_neg (by simp [h.aliasToken]),
    List.append_nil]

/-- The pieces of a query have one layout at most. -/
theorem IsFramed.unique {first second : QueryLayout} (hfirst : first.IsFramed)
    (hsecond : second.IsFramed) (h : first.pieces = second.pieces) : first = second := by
  -- Both layouts give the same three splits, and each split settles the parts around its word.
  have hfrom := hfirst.splitKeyword_from
  rw [h, hsecond.splitKeyword_from, Option.some.injEq, Prod.mk.injEq, Prod.mk.injEq] at hfrom
  obtain ⟨hitems, hfromWord, hafterFrom⟩ := hfrom
  have has := hfirst.splitKeyword_as
  rw [← hafterFrom, hsecond.splitKeyword_as, Option.some.injEq, Prod.mk.injEq, Prod.mk.injEq] at has
  obtain ⟨htable, hasWord, hafterAs⟩ := has
  have hwhere := hfirst.splitKeyword_where
  rw [← hafterAs, hsecond.splitKeyword_where, Option.some.injEq, Prod.mk.injEq, Prod.mk.injEq]
    at hwhere
  obtain ⟨hmiddle, hwhereWord, hcondition⟩ := hwhere
  -- between `AS` and `WHERE` the first token tells the lead from the gap
  have hlead := hfirst.takeWhile_not_token
  rw [← hmiddle, hsecond.takeWhile_not_token] at hlead
  rw [hlead, List.append_cancel_left_eq, List.cons.injEq] at hmiddle
  obtain ⟨haliasToken, hgap⟩ := hmiddle
  cases first
  cases second
  simp_all

/-- A source text has one layout at most. -/
theorem Reads.unique {dialect : Dialect} {text : Text} {first second : QueryLayout}
    (hfirst : first.Reads dialect text) (hsecond : second.Reads dialect text) : first = second :=
  hfirst.1.unique hsecond.1 (hfirst.2.symm.trans hsecond.2)

end QueryLayout

namespace SourceQuery

/-- The outcome for a text with a layout. -/
theorem parse_of_reads {dialect : Dialect} {text : Text} {layout : QueryLayout}
    (h : layout.Reads dialect text) :
    parse dialect text
      = if mentions .FROM layout.gap then .error (.malformedQuery (.duplicateKeyword .FROM))
        else if mentions .AS layout.gap then .error (.malformedQuery (.duplicateKeyword .AS))
        else .ok (layout.query (splitPreamble dialect text).1) := by
  unfold parse
  dsimp only
  rw [h.2, ofPieces_of_isFramed h.1]
  cases mentions .FROM layout.gap with
  | true => rfl
  | false => cases mentions .AS layout.gap <;> rfl

/-- A text without a layout is refused. -/
theorem exists_reads_of_parse {dialect : Dialect} {text : Text} {query : SourceQuery}
    (h : parse dialect text = .ok query) :
    ∃ layout : QueryLayout, layout.Reads dialect text ∧ mentions .FROM layout.gap = false
      ∧ mentions .AS layout.gap = false ∧ query = layout.query (splitPreamble dialect text).1 := by
  unfold parse at h
  dsimp only at h
  split at h
  · next accepted haccepted =>
    obtain rfl : accepted = query := Except.ok.inj h
    obtain ⟨layout, hframed, hpieces, hfrom, has, hquery⟩ := exists_isFramed_of_ofPieces haccepted
    exact ⟨layout, ⟨hframed, hpieces⟩, hfrom, has, hquery⟩
  · cases h

/-! ## What may stand in the gap -/

/-- **White space and comments alone are passed over** between the alias and `WHERE` exactly if every
layout of the text has nothing else there, or has a further `FROM` or `AS` there.  So a restriction in the
gap is refused for these two words only, and is lost without them. -/
theorem gap_isTrivia_iff (dialect : Dialect) (text : Text) :
    (∀ query, parse dialect text = .ok query →
        ∃ layout : QueryLayout, layout.Reads dialect text
          ∧ query = layout.query (splitPreamble dialect text).1
          ∧ layout.gap.all Lexeme.isTrivia = true) ↔
      ∀ layout : QueryLayout, layout.Reads dialect text →
        layout.gap.all Lexeme.isTrivia = true ∨ mentions .FROM layout.gap = true
          ∨ mentions .AS layout.gap = true := by
  constructor
  · intro hclaim layout hreads
    cases hfrom : mentions .FROM layout.gap with
    | true => exact .inr (.inl rfl)
    | false =>
      cases has : mentions .AS layout.gap with
      | true => exact .inr (.inr rfl)
      | false =>
        -- the text is accepted, and the layout that it is accepted with is this one
        have hparse := parse_of_reads hreads
        rw [hfrom, has] at hparse
        obtain ⟨other, hother, -, htrivia⟩ := hclaim _ hparse
        rw [hreads.unique hother]
        exact .inl htrivia
  · intro hgap query hparse
    obtain ⟨layout, hreads, hfrom, has, hquery⟩ := exists_reads_of_parse hparse
    refine ⟨layout, hreads, hquery, ?_⟩
    rcases hgap layout hreads with htrivia | hmentions | hmentions
    · exact htrivia
    · -- a further `FROM` would have been refused
      rw [hfrom] at hmentions
      cases hmentions
    · -- and so would a further `AS`
      rw [has] at hmentions
      cases hmentions

/-- The layout of a query with a join that names no alias by `AS`. -/
def joinLayout : QueryLayout where
  items := lex .sqlServer "SELECT 1 ".toList
  fromWord := .word "FROM".toList
  table := lex .sqlServer " Orders ".toList
  asWord := .word "AS".toList
  lead := [.other ' ']
  aliasToken := .word "o".toList
  gap := lex .sqlServer " JOIN Lines l ON l.OrderId = o.Id ".toList
  whereWord := .word "WHERE".toList
  condition := lex .sqlServer " o.Id = 1".toList

/-- A join without `AS` is accepted and has no part in the statement: the rows are no longer restricted by
it. -/
theorem join_in_gap_is_lost :
    (¬ ∀ query,
        parse .sqlServer "SELECT 1 FROM Orders AS o JOIN Lines l ON l.OrderId = o.Id WHERE o.Id = 1".toList
          = .ok query →
        ∃ layout : QueryLayout,
          layout.Reads .sqlServer
            "SELECT 1 FROM Orders AS o JOIN Lines l ON l.OrderId = o.Id WHERE o.Id = 1".toList
          ∧ query = layout.query none ∧ layout.gap.all Lexeme.isTrivia = true)
      ∧ compileDelete .sqlServer
          "SELECT 1 FROM Orders AS o JOIN Lines l ON l.OrderId = o.Id WHERE o.Id = 1".toList
        = .ok ⟨"DELETE FROM Orders\nWHERE Id = 1".toList, []⟩ := by
  have hframed : joinLayout.IsFramed := by
    constructor
    case items | table | aliasToken_isName => unfold mentionsNoneOf; decide +kernel
    all_goals decide +kernel
  have hreads : joinLayout.Reads .sqlServer
      "SELECT 1 FROM Orders AS o JOIN Lines l ON l.OrderId = o.Id WHERE o.Id = 1".toList :=
    ⟨hframed, by decide +kernel⟩
  have hparse := parse_of_reads hreads
  have hgap : mentions .FROM joinLayout.gap = false ∧ mentions .AS joinLayout.gap = false := by
    decide +kernel
  rw [hgap.1, hgap.2] at hparse
  constructor
  · intro hclaim
    obtain ⟨layout, hlayout, -, htrivia⟩ := hclaim _ hparse
    rw [← hreads.unique hlayout] at htrivia
    exact absurd htrivia (by decide +kernel)
  · have hsql : Statement.assemble none
        ["DELETE FROM ".toList ++ (joinLayout.query none).table,
          (joinLayout.query none).unaliasedWhere .sqlServer]
          = "DELETE FROM Orders\nWHERE Id = 1".toList := by
      decide +kernel
    rw [compileDelete_of_parse hparse, ← hsql]
    rfl

end SourceQuery

end BulkDml
