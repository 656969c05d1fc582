import BulkDml.Proofs.TokenPlaces

/-! # The grammar of source queries

A source query is accepted for the places of the words `FROM`, `AS` and `WHERE` among its tokens, and for a
table and an alias between them.  Everything else can be said of it in one of ten ways, which are looked at in
a fixed order: the query is refused for the first of them that applies.

* `IsShaped`, `HasParts` — the queries that are accepted, and what is taken from them;
* `Violation`, `Violation.Holds`, `Violation.cause` — the ways in which a query is misshapen;
* `IsFirstViolation` — the first of these that applies;
* `SourceQuery.parse_law` — a query is accepted for its shape, and refused for its first violation.
-/

namespace BulkDml

/-! ## Accepted queries -/

/-- Whether a text has the required shape, `FROM`, `AS` and `WHERE` being the tokens of the given numbers. -/
structure IsShaped (text : Text) (tokens : List PlacedToken) (fromAt asAt whereAt : Nat) : Prop where
  /-- `FROM` is where it is said to be. -/
  isFrom : IsKeywordAt tokens .FROM fromAt
  /-- There is no other `FROM`, wherever. -/
  only_from : ∀ index, IsKeywordAt tokens .FROM index → index = fromAt
  /-- This is the first `WHERE`; others may follow. -/
  isWhere : IsFirstAt tokens .WHERE whereAt
  /-- It stands behind `FROM`. -/
  from_lt_where : fromAt < whereAt
  /-- `AS` is where it is said to be. -/
  isAs : IsKeywordAt tokens .AS asAt
  /-- There is no other `AS` before this `WHERE`. -/
  only_as : ∀ index < whereAt, IsKeywordAt tokens .AS index → index = asAt
  /-- `AS` stands behind `FROM`. -/
  from_lt_as : fromAt < asAt
  /-- `AS` stands before `WHERE`. -/
  as_lt_where : asAt < whereAt
  /-- The text between `FROM` and `AS` is not blank. -/
  table : ∀ fromToken asToken, tokens[fromAt]? = some fromToken → tokens[asAt]? = some asToken →
    (textBetween text fromToken asToken).trim ≠ []
  /-- A token lies between `AS` and `WHERE`. -/
  tableAlias : asAt + 1 < whereAt

/-- Whether a query has its parts from these places: the trimmed text between `FROM` and `AS`, the token
right behind `AS`, and the text from `WHERE` on without blanks at its end. -/
def HasParts (text : Text) (tokens : List PlacedToken) (fromAt asAt whereAt : Nat) (query : SourceQuery) :
    Prop :=
  ∃ fromToken asToken aliasToken whereToken,
    tokens[fromAt]? = some fromToken ∧ tokens[asAt]? = some asToken
      ∧ tokens[asAt + 1]? = some aliasToken ∧ tokens[whereAt]? = some whereToken
      ∧ query.table = (textBetween text fromToken asToken).trim
      ∧ query.tableAlias = aliasToken.piece.text
      ∧ query.whereClause = (textFrom text whereToken).trimEnd

/-! ## Refused queries -/

/-- The ways in which a query is misshapen. -/
inductive Violation where
  /-- There is no `FROM`. -/
  | noFrom
  /-- There is a further `FROM`. -/
  | secondFrom
  /-- There is no `WHERE`. -/
  | noWhere
  /-- The first `WHERE` stands before `FROM`. -/
  | whereBeforeFrom
  /-- There is no `AS`. -/
  | noAs
  /-- `AS` stands before `FROM` only. -/
  | asBeforeFrom
  /-- The first `AS` behind `FROM` stands behind the first `WHERE`. -/
  | asBehindWhere
  /-- There is a further `AS` before the first `WHERE`. -/
  | secondAs
  /-- Nothing stands between `FROM` and `AS`. -/
  | noTable
  /-- No token stands between `AS` and `WHERE`. -/
  | noAlias
deriving DecidableEq

namespace Violation

/-- The violations in the order in which a query is looked at. -/
def inOrder : List Violation :=
  [noFrom, secondFrom, noWhere, whereBeforeFrom, noAs, asBeforeFrom, asBehindWhere, secondAs, noTable,
    noAlias]

/-- What is said of a query that is refused for a violation. -/
def cause : Violation → MalformedQuery
  | noFrom => .missingKeyword .FROM
  | secondFrom => .duplicateKeyword .FROM
  | noWhere => .missingKeyword .WHERE
  | whereBeforeFrom => .outOfOrder .FROM .WHERE
  | noAs => .missingKeyword .AS
  | asBeforeFrom => .outOfOrder .FROM .AS
  | asBehindWhere => .outOfOrder .AS .WHERE
  | secondAs => .duplicateKeyword .AS
  | noTable => .emptyTableName
  | noAlias => .missingAlias

/-- Whether a violation applies to a text with the given tokens. -/
def Holds (text : Text) (tokens : List PlacedToken) : Violation → Prop
  | noFrom => ∀ index, ¬IsKeywordAt tokens .FROM index
  | secondFrom =>
    ∃ one other, one < other ∧ IsKeywordAt tokens .FROM one ∧ IsKeywordAt tokens .FROM other
  | noWhere => ∀ index, ¬IsKeywordAt tokens .WHERE index
  | whereBeforeFrom =>
    ∃ fromAt whereAt, IsFirstAt tokens .FROM fromAt ∧ IsFirstAt tokens .WHERE whereAt ∧ whereAt < fromAt
  | noAs => ∀ index, ¬IsKeywordAt tokens .AS index
  | asBeforeFrom =>
    (∃ index, IsKeywordAt tokens .AS index)
      ∧ ∃ fromAt, IsFirstAt tokens .FROM fromAt ∧ ∀ index, IsKeywordAt tokens .AS index → index < fromAt
  | asBehindWhere =>
    ∃ fromAt asAt whereAt, IsFirstAt tokens .FROM fromAt ∧ IsFirstBehind tokens fromAt .AS asAt
      ∧ IsFirstAt tokens .WHERE whereAt ∧ whereAt < asAt
  | secondAs =>
    ∃ one other whereAt, one < other ∧ other < whereAt ∧ IsKeywordAt tokens .AS one
      ∧ IsKeywordAt tokens .AS other ∧ IsFirstAt tokens .WHERE whereAt
  | noTable =>
    ∃ fromAt asAt fromToken asToken, IsFirstAt tokens .FROM fromAt
      ∧ IsFirstBehind tokens fromAt .AS asAt ∧ tokens[fromAt]? = some fromToken
      ∧ tokens[asAt]? = some asToken ∧ (textBetween text fromToken asToken).trim = []
  | noAlias =>
    ∃ fromAt asAt whereAt, IsFirstAt tokens .FROM fromAt ∧ IsFirstBehind tokens fromAt .AS asAt
      ∧ IsFirstAt tokens .WHERE whereAt ∧ asAt + 1 = whereAt

/-- Whether none of the given violations applies. -/
def NoneHold (text : Text) (tokens : List PlacedToken) (violations : List Violation) : Prop :=
  ∀ violation ∈ violations, ¬violation.Holds text tokens

theorem NoneHold.nil (text : Text) (tokens : List PlacedToken) : NoneHold text tokens [] :=
  List.forall_mem_nil _

/-- Violations are ruled out one behind the other. -/
theorem NoneHold.concat {text : Text} {tokens : List PlacedToken} {earlier : List Violation}
    {violation : Violation} (hearlier : NoneHold text tokens earlier)
    (h : ¬violation.Holds text tokens) : NoneHold text tokens (earlier ++ [violation]) :=
  List.forall_mem_append.mpr ⟨hearlier, List.forall_mem_singleton.mpr h⟩

end Violation

/-- Whether a violation is the first one that applies. -/
def IsFirstViolation (text : Text) (tokens : List PlacedToken) (violation : Violation) : Prop :=
  ∃ earlier later, Violation.inOrder = earlier ++ violation :: later
    ∧ violation.Holds text tokens ∧ Violation.NoneHold text tokens earlier

open Classical in
/-- There is one first violation at most. -/
theorem IsFirstViolation.unique {text : Text} {tokens : List PlacedToken} {one other : Violation}
    (hone : IsFirstViolation text tokens one) (hother : IsFirstViolation text tokens other) :
    one = other := by
  have hfind : ∀ violation, IsFirstViolation text tokens violation →
      Violation.inOrder.find? (fun found => decide (found.Holds text tokens)) = some violation := by
    rintro violation ⟨earlier, later, horder, hholds, hearlier⟩
    rw [List.find?_eq_some_iff_append]
    exact ⟨by simpa using hholds, earlier, later, horder, by simpa [Violation.NoneHold] using hearlier⟩
  exact Option.some.inj ((hfind one hone).symm.trans (hfind other hother))

/-! ## What rules a violation out -/

namespace Violation

variable {text : Text} {tokens : List PlacedToken} {fromAt asAt whereAt : Nat}

theorem not_noFrom (h : IsKeywordAt tokens .FROM fromAt) : ¬noFrom.Holds text tokens :=
  fun hnone => hnone fromAt h

theorem not_secondFrom (h : ∀ index, IsKeywordAt tokens .FROM index → index = fromAt) :
    ¬secondFrom.Holds text tokens := by
  rintro ⟨one, other, hlt, hone, hother⟩
  have hsame := (h one hone).trans (h other hother).symm
  omega

theorem not_noWhere (h : IsKeywordAt tokens .WHERE whereAt) : ¬noWhere.Holds text tokens :=
  fun hnone => hnone whereAt h

theorem not_whereBeforeFrom (hfrom : IsFirstAt tokens .FROM fromAt)
    (h : ∀ index < fromAt, ¬IsKeywordAt tokens .WHERE index) : ¬whereBeforeFrom.Holds text tokens := by
  rintro ⟨place, whereAt, hplace, hwhere, hlt⟩
  obtain rfl := hplace.unique hfrom
  exact h whereAt hlt hwhere.1

theorem not_noAs (h : IsKeywordAt tokens .AS asAt) : ¬noAs.Holds text tokens :=
  fun hnone => hnone asAt h

theorem not_asBeforeFrom (hfrom : IsFirstAt tokens .FROM fromAt)
    (has : IsFirstBehind tokens fromAt .AS asAt) : ¬asBeforeFrom.Holds text tokens := by
  rintro ⟨-, place, hplace, hbefore⟩
  obtain rfl := hplace.unique hfrom
  have hlt := hbefore asAt has.2.1
  have hgt := has.1
  omega

theorem not_asBehindWhere (hfrom : IsFirstAt tokens .FROM fromAt)
    (has : IsFirstBehind tokens fromAt .AS asAt) (h : ∀ index < asAt, ¬IsKeywordAt tokens .WHERE index) :
    ¬asBehindWhere.Holds text tokens := by
  rintro ⟨place, found, whereAt, hplace, hfound, hwhere, hlt⟩
  obtain rfl := hplace.unique hfrom
  obtain rfl := hfound.unique has
  exact h whereAt hlt hwhere.1

theorem not_secondAs (hwhere : IsFirstAt tokens .WHERE whereAt)
    (h : ∀ index < whereAt, IsKeywordAt tokens .AS index → index = asAt) :
    ¬secondAs.Holds text tokens := by
  rintro ⟨one, other, place, hlt, hbefore, hone, hother, hplace⟩
  obtain rfl := hplace.unique hwhere
  have hsame := (h one (hlt.trans hbefore) hone).trans (h other hbefore hother).symm
  omega

theorem not_noTable (hfrom : IsFirstAt tokens .FROM fromAt) (has : IsFirstBehind tokens fromAt .AS asAt)
    (h : ∀ fromToken asToken, tokens[fromAt]? = some fromToken → tokens[asAt]? = some asToken →
      (textBetween text fromToken asToken).trim ≠ []) : ¬noTable.Holds text tokens := by
  rintro ⟨place, found, fromToken, asToken, hplace, hfound, hfromToken, hasToken, hblank⟩
  obtain rfl := hplace.unique hfrom
  obtain rfl := hfound.unique has
  exact h fromToken asToken hfromToken hasToken hblank

theorem not_noAlias (hfrom : IsFirstAt tokens .FROM fromAt) (has : IsFirstBehind tokens fromAt .AS asAt)
    (hwhere : IsFirstAt tokens .WHERE whereAt) (h : asAt + 1 < whereAt) :
    ¬noAlias.Holds text tokens := by
  rintro ⟨place, found, wherePlace, hplace, hfound, hwherePlace, hnext⟩
  obtain rfl := hplace.unique hfrom
  obtain rfl := hfound.unique has
  obtain rfl := hwherePlace.unique hwhere
  omega

end Violation

/-- **No violation applies to a text with the required shape.** -/
theorem IsShaped.not_holds {text : Text} {tokens : List PlacedToken} {fromAt asAt whereAt : Nat}
    (h : IsShaped text tokens fromAt asAt whereAt) (violation : Violation) :
    ¬violation.Holds text tokens := by
  have hfrom : IsFirstAt tokens .FROM fromAt := by
    refine ⟨h.isFrom, ?_⟩
    intro earlier hlt hearlier
    have := h.only_from earlier hearlier
    omega
  have has : IsFirstBehind tokens fromAt .AS asAt := by
    refine ⟨h.from_lt_as, h.isAs, ?_⟩
    intro earlier _ hlt hearlier
    have := h.only_as earlier (hlt.trans h.as_lt_where) hearlier
    omega
  cases violation with
  | noFrom => exact Violation.not_noFrom h.isFrom
  | secondFrom => exact Violation.not_secondFrom h.only_from
  | noWhere => exact Violation.not_noWhere h.isWhere.1
  | whereBeforeFrom =>
    exact Violation.not_whereBeforeFrom hfrom fun index hlt => h.isWhere.2 index (hlt.trans h.from_lt_where)
  | noAs => exact Violation.not_noAs h.isAs
  | asBeforeFrom => exact Violation.not_asBeforeFrom hfrom has
  | asBehindWhere =>
    exact Violation.not_asBehindWhere hfrom has fun index hlt => h.isWhere.2 index (hlt.trans h.as_lt_where)
  | secondAs => exact Violation.not_secondAs h.isWhere h.only_as
  | noTable => exact Violation.not_noTable hfrom has h.table
  | noAlias => exact Violation.not_noAlias hfrom has h.isWhere h.tableAlias

/-! ## Reading a query -/

/-- Whether a query is refused for its first violation. -/
def IsRefused (preamble : Option Text) (pieces : List Lexeme) : Prop :=
  ∃ violation, SourceQuery.ofPieces preamble pieces = .error violation.cause
    ∧ IsFirstViolation (textOf pieces) (placedFrom 0 pieces) violation

/-- Whether pieces pass the checks for `FROM`: there is one and no other. -/
structure HasOneFrom (pieces items : List Lexeme) (fromWord : Lexeme) (afterFrom : List Lexeme) : Prop where
  /-- The first `FROM`. -/
  split_from : splitKeyword .FROM pieces = some (items, fromWord, afterFrom)
  /-- There is no other. -/
  no_from : mentions .FROM afterFrom = false

/-- Whether pieces pass the checks up to those for `AS`: the first `WHERE` stands behind the only `FROM`. -/
structure IsOpened (pieces items : List Lexeme) (fromWord : Lexeme) (afterFrom : List Lexeme) : Prop extends
    HasOneFrom pieces items fromWord afterFrom where
  /-- There is a `WHERE`. -/
  some_where : mentions .WHERE pieces = true
  /-- None stands before `FROM`. -/
  no_where : mentions .WHERE items = false

section

variable {pieces items afterFrom : List Lexeme} {fromWord : Lexeme}

namespace HasOneFrom

variable (h : HasOneFrom pieces items fromWord afterFrom)

include h

theorem isFoundBehind : IsFoundBehind pieces [] items .FROM fromWord afterFrom :=
  isFoundBehind_of_splitKeyword rfl h.split_from

theorem isFirstAt_from : IsFirstAt (placedFrom 0 pieces) .FROM (tokenCount items) :=
  isFirstAt_of_splitKeyword h.split_from

/-- The tokens before `FROM` are those of the items. -/
theorem mentions_items_iff (keyword : Keyword) :
    mentions keyword items = true
      ↔ ∃ index < tokenCount items, IsKeywordAt (placedFrom 0 pieces) keyword index := by
  have hpieces : pieces = [] ++ (items ++ ([fromWord] ++ afterFrom)) := by
    simpa using h.isFoundBehind.whole_eq
  rw [mentions_iff_exists_isKeywordAt hpieces, tokenCount_nil]
  simp only [Nat.zero_le, Nat.zero_add, true_and]

/-- The tokens behind `FROM` are those of the pieces behind it. -/
theorem mentions_afterFrom_iff (keyword : Keyword) :
    mentions keyword afterFrom = true
      ↔ ∃ index, tokenCount items < index ∧ IsKeywordAt (placedFrom 0 pieces) keyword index := by
  rw [mentions_behind_iff_exists_isKeywordAt h.isFoundBehind.whole_eq, h.isFoundBehind.count_found]
  rfl

/-- `FROM` is the only one. -/
theorem only_from (index : Nat) (hindex : IsKeywordAt (placedFrom 0 pieces) .FROM index) :
    index = tokenCount items := by
  rcases Nat.lt_trichotomy index (tokenCount items) with hlt | heq | hgt
  · exact absurd hindex (h.isFirstAt_from.2 index hlt)
  · exact heq
  · have hmentions := (h.mentions_afterFrom_iff .FROM).mpr ⟨index, hgt, hindex⟩
    exact absurd hmentions (Bool.eq_false_iff.mp h.no_from)

/-- Every other keyword stands before `FROM` or behind it. -/
theorem lt_or_gt {keyword : Keyword} (hne : keyword ≠ .FROM) {index : Nat}
    (hindex : IsKeywordAt (placedFrom 0 pieces) keyword index) :
    index < tokenCount items ∨ tokenCount items < index := by
  rcases Nat.lt_trichotomy index (tokenCount items) with hlt | rfl | hgt
  · exact .inl hlt
  · exact absurd (hindex.keyword_unique h.isFirstAt_from.1) hne
  · exact .inr hgt

theorem noneHold :
    Violation.NoneHold (textOf pieces) (placedFrom 0 pieces) [.noFrom, .secondFrom] :=
  ((Violation.NoneHold.nil _ _).concat (Violation.not_noFrom h.isFirstAt_from.1)).concat
    (Violation.not_secondFrom h.only_from)

end HasOneFrom

namespace IsOpened

variable (h : IsOpened pieces items fromWord afterFrom)

include h

/-- Every `WHERE` stands behind `FROM`. -/
theorem from_lt_where {index : Nat} (hindex : IsKeywordAt (placedFrom 0 pieces) .WHERE index) :
    tokenCount items < index := by
  refine (h.lt_or_gt (by decide) hindex).resolve_left fun hlt => ?_
  have hmentions := (h.mentions_items_iff .WHERE).mpr ⟨index, hlt, hindex⟩
  exact absurd hmentions (Bool.eq_false_iff.mp h.no_where)

theorem exists_isFirstAt_where : ∃ whereAt, IsFirstAt (placedFrom 0 pieces) .WHERE whereAt := by
  obtain ⟨index, -, hindex⟩ :=
    (mentions_behind_iff_exists_isKeywordAt (List.nil_append pieces).symm .WHERE).mp h.some_where
  obtain ⟨whereAt, -, hfirst⟩ := hindex.exists_isFirstAt
  exact ⟨whereAt, hfirst⟩

theorem noneHold :
    Violation.NoneHold (textOf pieces) (placedFrom 0 pieces)
      [.noFrom, .secondFrom, .noWhere, .whereBeforeFrom] := by
  obtain ⟨whereAt, hwhere⟩ := h.exists_isFirstAt_where
  refine (h.toHasOneFrom.noneHold.concat (Violation.not_noWhere hwhere.1)).concat
    (Violation.not_whereBeforeFrom h.isFirstAt_from fun index hlt hindex => ?_)
  exact absurd (h.from_lt_where hindex) (Nat.lt_asymm hlt)

end IsOpened

/-- A query passes the checks up to those for `AS`, or is refused. -/
theorem isOpened_or_isRefused (preamble : Option Text) (pieces : List Lexeme) :
    (∃ items fromWord afterFrom, IsOpened pieces items fromWord afterFrom)
      ∨ IsRefused preamble pieces := by
  cases hsplit : splitKeyword .FROM pieces with
  | none =>
    refine .inr ⟨.noFrom, by rw [SourceQuery.ofPieces, hsplit]; rfl, [], _, rfl, ?_, .nil _ _⟩
    intro index
    exact not_isKeywordAt_of_mentions_behind (List.nil_append pieces).symm
      (splitKeyword_eq_none_iff.mp hsplit) (Nat.zero_le index)
  | some parts =>
    obtain ⟨items, fromWord, afterFrom⟩ := parts
    have hfirst := isFirstAt_of_splitKeyword hsplit
    cases hfrom : mentions .FROM afterFrom with
    | true =>
      have hfound := isFoundBehind_of_splitKeyword (List.nil_append pieces).symm hsplit
      obtain ⟨index, hlower, hother⟩ :=
        (mentions_behind_iff_exists_isKeywordAt hfound.whole_eq .FROM).mp hfrom
      rw [hfound.count_found] at hlower
      refine .inr ⟨.secondFrom, by simp only [SourceQuery.ofPieces, hsplit, hfrom]; rfl, [.noFrom], _, rfl,
        ⟨tokenCount items, index, hlower, hfirst.1, hother⟩,
        (Violation.NoneHold.nil _ _).concat (Violation.not_noFrom hfirst.1)⟩
    | false =>
      have hone : HasOneFrom pieces items fromWord afterFrom := ⟨hsplit, hfrom⟩
      cases hsome : mentions .WHERE pieces with
      | false =>
        refine .inr ⟨.noWhere, by simp only [SourceQuery.ofPieces, hsplit, hfrom, hsome]; rfl,
          [.noFrom, .secondFrom], _, rfl, ?_, hone.noneHold⟩
        intro index
        exact not_isKeywordAt_of_mentions_behind (List.nil_append pieces).symm hsome (Nat.zero_le index)
      | true =>
        cases hwhere : mentions .WHERE items with
        | false => exact .inl ⟨items, fromWord, afterFrom, hone, hsome, hwhere⟩
        | true =>
          obtain ⟨index, hlt, hindex⟩ := (hone.mentions_items_iff .WHERE).mp hwhere
          obtain ⟨whereAt, hle, hfirstWhere⟩ := hindex.exists_isFirstAt
          refine .inr ⟨.whereBeforeFrom,
            by simp only [SourceQuery.ofPieces, hsplit, hfrom, hsome, hwhere]; rfl,
            [.noFrom, .secondFrom, .noWhere], _, rfl,
            ⟨tokenCount items, whereAt, hfirst, hfirstWhere, by omega⟩,
            hone.noneHold.concat (Violation.not_noWhere hindex)⟩

end

/-! ### The order of the keywords -/

/-- The pieces of a query around `FROM`, `AS` and `WHERE`, as they are looked for one behind the other. -/
structure KeywordCut where
  /-- The pieces before `FROM`. -/
  items : List Lexeme
  /-- The word `FROM`. -/
  fromWord : Lexeme
  /-- The pieces behind `FROM`. -/
  afterFrom : List Lexeme
  /-- The pieces between `FROM` and `AS`. -/
  table : List Lexeme
  /-- The word `AS`. -/
  asWord : Lexeme
  /-- The pieces behind `AS`. -/
  afterAs : List Lexeme
  /-- The pieces between `AS` and `WHERE`. -/
  aliasPieces : List Lexeme
  /-- The word `WHERE`. -/
  whereWord : Lexeme
  /-- The pieces behind `WHERE`. -/
  condition : List Lexeme

namespace KeywordCut

variable (cut : KeywordCut)

/-- The pieces before `AS`. -/
def beforeAs : List Lexeme := cut.items ++ [cut.fromWord] ++ cut.table

/-- The pieces before `WHERE`. -/
def beforeWhere : List Lexeme := cut.beforeAs ++ [cut.asWord] ++ cut.aliasPieces

/-- The number of the token `FROM`. -/
def fromAt : Nat := tokenCount cut.items

/-- The number of the token `AS`. -/
def asAt : Nat := tokenCount cut.beforeAs

/-- The number of the token `WHERE`. -/
def whereAt : Nat := tokenCount cut.beforeWhere

end KeywordCut

/-- Whether pieces pass the checks for the order of the keywords: the first `AS` behind `FROM` stands before
the first `WHERE`. -/
structure IsOrdered (pieces : List Lexeme) (cut : KeywordCut) : Prop extends
    IsOpened pieces cut.items cut.fromWord cut.afterFrom where
  /-- The first `AS` behind `FROM`. -/
  split_as : splitKeyword .AS cut.afterFrom = some (cut.table, cut.asWord, cut.afterAs)
  /-- The first `WHERE` behind `AS`. -/
  split_where : splitKeyword .WHERE cut.afterAs = some (cut.aliasPieces, cut.whereWord, cut.condition)
  /-- No `WHERE` stands before `AS`. -/
  no_where_table : mentions .WHERE cut.table = false

namespace IsOpened

variable {pieces items afterFrom table afterAs : List Lexeme} {fromWord asWord : Lexeme}
  (h : IsOpened pieces items fromWord afterFrom)

include h

/-- A split behind `FROM` finds the first `AS` behind it. -/
theorem isFoundBehind_as (hsplit : splitKeyword .AS afterFrom = some (table, asWord, afterAs)) :
    IsFoundBehind pieces (items ++ [fromWord]) (items ++ [fromWord] ++ table) .AS asWord afterAs :=
  isFoundBehind_of_splitKeyword h.isFoundBehind.whole_eq hsplit

theorem isFirstBehind_as (hsplit : splitKeyword .AS afterFrom = some (table, asWord, afterAs)) :
    IsFirstBehind (placedFrom 0 pieces) (tokenCount items) .AS
      (tokenCount (items ++ [fromWord] ++ table)) := by
  have hfound := h.isFoundBehind_as hsplit
  have hlead := hfound.count_lead
  rw [h.isFoundBehind.count_found] at hlead
  refine ⟨hlead, hfound.isKeywordAt, fun index hlower => hfound.none_between index ?_⟩
  rw [h.isFoundBehind.count_found]
  exact hlower

/-- The pieces between `FROM` and `AS` hold the tokens between these. -/
theorem mentions_table_iff (hsplit : splitKeyword .AS afterFrom = some (table, asWord, afterAs))
    (keyword : Keyword) :
    mentions keyword table = true
      ↔ ∃ index, tokenCount items < index ∧ index < tokenCount (items ++ [fromWord] ++ table)
        ∧ IsKeywordAt (placedFrom 0 pieces) keyword index := by
  have hpieces : pieces = (items ++ [fromWord]) ++ (table ++ ([asWord] ++ afterAs)) := by
    simpa using (h.isFoundBehind_as hsplit).whole_eq
  rw [mentions_iff_exists_isKeywordAt hpieces, tokenCount_append (items ++ [fromWord]),
    h.isFoundBehind.count_found]
  rfl

/-- The pieces behind `AS` hold the tokens behind it. -/
theorem mentions_afterAs_iff (hsplit : splitKeyword .AS afterFrom = some (table, asWord, afterAs))
    (keyword : Keyword) :
    mentions keyword afterAs = true
      ↔ ∃ index, tokenCount (items ++ [fromWord] ++ table) < index
        ∧ IsKeywordAt (placedFrom 0 pieces) keyword index := by
  have hfound := h.isFoundBehind_as hsplit
  rw [mentions_behind_iff_exists_isKeywordAt hfound.whole_eq, hfound.count_found]
  rfl

/-- No violation up to those for the order of `AS` and `WHERE` applies if an `AS` stands behind `FROM`. -/
theorem noneHold_of_as (hsplit : splitKeyword .AS afterFrom = some (table, asWord, afterAs)) :
    Violation.NoneHold (textOf pieces) (placedFrom 0 pieces)
      [.noFrom, .secondFrom, .noWhere, .whereBeforeFrom, .noAs, .asBeforeFrom] := by
  have has := h.isFirstBehind_as hsplit
  exact (h.noneHold.concat (Violation.not_noAs has.2.1)).concat
    (Violation.not_asBeforeFrom h.isFirstAt_from has)

end IsOpened

/-- A query whose first checks pass passes those for the order of the keywords, or is refused. -/
theorem IsOpened.isOrdered_or_isRefused {pieces items afterFrom : List Lexeme} {fromWord : Lexeme}
    (h : IsOpened pieces items fromWord afterFrom) (preamble : Option Text) :
    (∃ cut, IsOrdered pieces cut) ∨ IsRefused preamble pieces := by
  obtain ⟨firstWhere, hwhere⟩ := h.exists_isFirstAt_where
  cases has : splitKeyword .AS afterFrom with
  | none =>
    -- no `AS` stands behind `FROM`; whether one stands before it is what the two refusals differ in
    have hafterFrom := splitKeyword_eq_none_iff.mp has
    have hbefore : ∀ index, IsKeywordAt (placedFrom 0 pieces) .AS index → index < tokenCount items := by
      intro index hindex
      refine (h.lt_or_gt (by decide) hindex).resolve_right fun hgt => ?_
      have hmentions := (h.mentions_afterFrom_iff .AS).mpr ⟨index, hgt, hindex⟩
      exact absurd hmentions (Bool.eq_false_iff.mp hafterFrom)
    cases hitems : mentions .AS items with
    | true =>
      obtain ⟨index, hlt, hindex⟩ := (h.mentions_items_iff .AS).mp hitems
      refine .inr ⟨.asBeforeFrom, ?_, [.noFrom, .secondFrom, .noWhere, .whereBeforeFrom, .noAs], _, rfl,
        ⟨⟨index, hindex⟩, tokenCount items, h.isFirstAt_from, hbefore⟩,
        h.noneHold.concat (Violation.not_noAs hindex)⟩
      simp only [SourceQuery.ofPieces, h.split_from, h.no_from, h.some_where, h.no_where, has, hitems]
      rfl
    | false =>
      refine .inr ⟨.noAs, ?_, [.noFrom, .secondFrom, .noWhere, .whereBeforeFrom], _, rfl, ?_,
        h.noneHold⟩
      · simp only [SourceQuery.ofPieces, h.split_from, h.no_from, h.some_where, h.no_where, has, hitems]
        rfl
      · intro index hindex
        have hmentions := (h.mentions_items_iff .AS).mpr ⟨index, hbefore index hindex, hindex⟩
        exact absurd hmentions (Bool.eq_false_iff.mp hitems)
  | some parts =>
    obtain ⟨table, asWord, afterAs⟩ := parts
    have hfirstAs := h.isFirstBehind_as has
    -- a `WHERE` before this `AS`, however it is noticed, is the same violation
    have hrefused (herror : SourceQuery.ofPieces preamble pieces = .error (.outOfOrder .AS .WHERE))
        (hlt : firstWhere < tokenCount (items ++ [fromWord] ++ table)) : IsRefused preamble pieces :=
      ⟨.asBehindWhere, herror,
        [.noFrom, .secondFrom, .noWhere, .whereBeforeFrom, .noAs, .asBeforeFrom], _, rfl,
        ⟨_, _, firstWhere, h.isFirstAt_from, hfirstAs, hwhere, hlt⟩, h.noneHold_of_as has⟩
    cases hbehind : splitKeyword .WHERE afterAs with
    | none =>
      refine .inr (hrefused ?_ ?_)
      · simp only [SourceQuery.ofPieces, h.split_from, h.no_from, h.some_where, h.no_where, has, hbehind]
        rfl
      · rcases Nat.lt_trichotomy firstWhere (tokenCount (items ++ [fromWord] ++ table)) with hlt | heq | hgt
        · exact hlt
        · have hsame := (heq ▸ hwhere.1).keyword_unique hfirstAs.2.1
          cases hsame
        · have hmentions := (h.mentions_afterAs_iff has .WHERE).mpr ⟨firstWhere, hgt, hwhere.1⟩
          exact absurd hmentions (Bool.eq_false_iff.mp (splitKeyword_eq_none_iff.mp hbehind))
    | some parts =>
      obtain ⟨aliasPieces, whereWord, condition⟩ := parts
      cases htable : mentions .WHERE table with
      | true =>
        refine .inr (hrefused ?_ ?_)
        · simp only [SourceQuery.ofPieces, h.split_from, h.no_from, h.some_where, h.no_where, has, hbehind,
            htable]
          rfl
        · obtain ⟨index, -, hupper, hindex⟩ := (h.mentions_table_iff has .WHERE).mp htable
          by_contra hge
          exact hwhere.2 index (by omega) hindex
      | false =>
        exact .inl ⟨⟨items, fromWord, afterFrom, table, asWord, afterAs, aliasPieces, whereWord, condition⟩,
          h, has, hbehind, htable⟩

/-! ### Table and alias -/

namespace IsOrdered

variable {pieces : List Lexeme} {cut : KeywordCut} (h : IsOrdered pieces cut)

include h

theorem isFirstBehind_as : IsFirstBehind (placedFrom 0 pieces) cut.fromAt .AS cut.asAt :=
  h.toIsOpened.isFirstBehind_as h.split_as

theorem isFoundBehind_where :
    IsFoundBehind pieces (cut.beforeAs ++ [cut.asWord]) cut.beforeWhere .WHERE cut.whereWord
      cut.condition :=
  isFoundBehind_of_splitKeyword (h.toIsOpened.isFoundBehind_as h.split_as).whole_eq h.split_where

/-- `AS` is a token. -/
theorem count_as : tokenCount (cut.beforeAs ++ [cut.asWord]) = cut.asAt + 1 :=
  (h.toIsOpened.isFoundBehind_as h.split_as).count_found

/-- The tokens between `AS` and `WHERE` are those of the pieces between them. -/
theorem whereAt_eq : cut.whereAt = cut.asAt + 1 + tokenCount cut.aliasPieces := by
  rw [KeywordCut.whereAt, KeywordCut.beforeWhere, tokenCount_append, h.count_as]

theorem as_lt_where : cut.asAt < cut.whereAt := by
  have := h.whereAt_eq
  omega

/-- The `WHERE` behind `AS` is the first of all. -/
theorem isFirstAt_where : IsFirstAt (placedFrom 0 pieces) .WHERE cut.whereAt := by
  have hfound := h.isFoundBehind_where
  refine ⟨hfound.isKeywordAt, fun index hlt hindex => ?_⟩
  have hfrom := h.from_lt_where hindex
  rcases Nat.lt_trichotomy index cut.asAt with hbefore | rfl | hbehind
  · have hmentions := (h.toIsOpened.mentions_table_iff h.split_as .WHERE).mpr ⟨index, hfrom, hbefore, hindex⟩
    exact absurd hmentions (Bool.eq_false_iff.mp h.no_where_table)
  · have hsame := hindex.keyword_unique h.isFirstBehind_as.2.1
    cases hsame
  · refine hfound.none_between index ?_ hlt hindex
    rw [h.count_as]
    exact hbehind

/-- The pieces between `AS` and `WHERE` hold the tokens between these. -/
theorem mentions_aliasPieces_iff (keyword : Keyword) :
    mentions keyword cut.aliasPieces = true
      ↔ ∃ index, cut.asAt < index ∧ index < cut.whereAt
        ∧ IsKeywordAt (placedFrom 0 pieces) keyword index := by
  have hpieces : pieces
      = (cut.beforeAs ++ [cut.asWord]) ++ (cut.aliasPieces ++ ([cut.whereWord] ++ cut.condition)) := by
    simpa [KeywordCut.beforeWhere] using h.isFoundBehind_where.whole_eq
  rw [mentions_iff_exists_isKeywordAt hpieces, h.count_as, ← h.whereAt_eq]
  rfl

/-- The token `FROM`. -/
theorem getElem?_from :
    (placedFrom 0 pieces)[cut.fromAt]? = some ⟨(textOf cut.items).length, cut.fromWord⟩ := by
  obtain ⟨hpieces, -, hword⟩ := splitKeyword_eq_some_iff.mp h.split_from
  rw [hpieces, KeywordCut.fromAt,
    getElem?_placedFrom_append_cons 0 _ _ (Lexeme.isToken_of_isKeyword hword), Nat.zero_add]

/-- The token `AS`. -/
theorem getElem?_as :
    (placedFrom 0 pieces)[cut.asAt]? = some ⟨(textOf cut.beforeAs).length, cut.asWord⟩ := by
  have hpieces : pieces = cut.beforeAs ++ cut.asWord :: cut.afterAs := by
    simpa [KeywordCut.beforeAs] using (h.toIsOpened.isFoundBehind_as h.split_as).whole_eq
  obtain ⟨-, -, hword⟩ := splitKeyword_eq_some_iff.mp h.split_as
  rw [hpieces, KeywordCut.asAt,
    getElem?_placedFrom_append_cons 0 _ _ (Lexeme.isToken_of_isKeyword hword), Nat.zero_add]

/-- The token `WHERE`. -/
theorem getElem?_where :
    (placedFrom 0 pieces)[cut.whereAt]? = some ⟨(textOf cut.beforeWhere).length, cut.whereWord⟩ := by
  have hpieces : pieces = cut.beforeWhere ++ cut.whereWord :: cut.condition := by
    simpa using h.isFoundBehind_where.whole_eq
  obtain ⟨-, -, hword⟩ := splitKeyword_eq_some_iff.mp h.split_where
  rw [hpieces, KeywordCut.whereAt,
    getElem?_placedFrom_append_cons 0 _ _ (Lexeme.isToken_of_isKeyword hword), Nat.zero_add]

/-- The token right behind `AS` is the first one of the pieces behind it. -/
theorem getElem?_alias {token : Lexeme} (htoken : cut.aliasPieces.find? Lexeme.isToken = some token) :
    ∃ start, (placedFrom 0 pieces)[cut.asAt + 1]? = some ⟨start, token⟩ := by
  obtain ⟨hisToken, lead, gap, hpiecesEq, hlead⟩ := List.find?_eq_some_iff_append.mp htoken
  have hcountLead : tokenCount lead = 0 := by
    rw [tokenCount, List.countP_eq_zero]
    simpa using hlead
  have hcount : tokenCount (cut.beforeAs ++ [cut.asWord] ++ lead) = cut.asAt + 1 := by
    rw [tokenCount_append, hcountLead, h.count_as]
  have hpieces : pieces = (cut.beforeAs ++ [cut.asWord] ++ lead)
      ++ token :: (gap ++ cut.whereWord :: cut.condition) := by
    simpa [KeywordCut.beforeWhere, hpiecesEq] using h.isFoundBehind_where.whole_eq
  rw [hpieces, ← hcount, getElem?_placedFrom_append_cons 0 _ _ hisToken]
  exact ⟨_, rfl⟩

/-- The text between `FROM` and `AS` is that of the pieces between them. -/
theorem textBetween_eq {fromToken asToken : PlacedToken}
    (hfrom : (placedFrom 0 pieces)[cut.fromAt]? = some fromToken)
    (has : (placedFrom 0 pieces)[cut.asAt]? = some asToken) :
    textBetween (textOf pieces) fromToken asToken = textOf cut.table := by
  obtain rfl := Option.some.inj (h.getElem?_from.symm.trans hfrom)
  obtain rfl := Option.some.inj (h.getElem?_as.symm.trans has)
  have hpieces : pieces
      = cut.items ++ cut.fromWord :: (cut.table ++ cut.asWord :: cut.afterAs) := by
    simpa using (h.toIsOpened.isFoundBehind_as h.split_as).whole_eq
  have hbefore : cut.beforeAs = cut.items ++ cut.fromWord :: cut.table := by simp [KeywordCut.beforeAs]
  rw [hpieces, hbefore]
  exact textBetween_textOf _ _ _ _ _

/-- The text from `WHERE` on is that of its piece and those behind. -/
theorem textFrom_eq :
    textFrom (textOf pieces) ⟨(textOf cut.beforeWhere).length, cut.whereWord⟩
      = textOf (cut.whereWord :: cut.condition) := by
  have hpieces : pieces = cut.beforeWhere ++ cut.whereWord :: cut.condition := by
    simpa using h.isFoundBehind_where.whole_eq
  rw [hpieces]
  exact textFrom_textOf _ _ _

/-- `AS` is the only one before `WHERE` if none stands before `FROM` and none behind it. -/
theorem only_as (hitems : mentions .AS cut.items = false) (halias : mentions .AS cut.aliasPieces = false)
    (index : Nat) (hlt : index < cut.whereAt) (hindex : IsKeywordAt (placedFrom 0 pieces) .AS index) :
    index = cut.asAt := by
  rcases h.lt_or_gt (by decide) hindex with hbefore | hbehind
  · have hmentions := (h.mentions_items_iff .AS).mpr ⟨index, hbefore, hindex⟩
    exact absurd hmentions (Bool.eq_false_iff.mp hitems)
  · rcases Nat.lt_trichotomy index cut.asAt with hearlier | heq | hlater
    · exact absurd hindex (h.isFirstBehind_as.2.2 index hbehind hearlier)
    · exact heq
    · have hmentions := (h.mentions_aliasPieces_iff .AS).mpr ⟨index, hlater, hlt, hindex⟩
      exact absurd hmentions (Bool.eq_false_iff.mp halias)

/-- The text between `FROM` and `AS` is not blank if that of the pieces is not. -/
theorem trim_textBetween_ne_nil (hblank : (textOf cut.table).trim ≠ []) (fromToken asToken : PlacedToken)
    (hfrom : (placedFrom 0 pieces)[cut.fromAt]? = some fromToken)
    (has : (placedFrom 0 pieces)[cut.asAt]? = some asToken) :
    (textBetween (textOf pieces) fromToken asToken).trim ≠ [] := by
  rwa [h.textBetween_eq hfrom has]

/-- Pieces that pass all checks have the required shape. -/
theorem isShaped (hitems : mentions .AS cut.items = false) (halias : mentions .AS cut.aliasPieces = false)
    (hblank : (textOf cut.table).trim ≠ []) {token : Lexeme}
    (htoken : cut.aliasPieces.find? Lexeme.isToken = some token) :
    IsShaped (textOf pieces) (placedFrom 0 pieces) cut.fromAt cut.asAt cut.whereAt where
  isFrom := h.isFirstAt_from.1
  only_from := h.only_from
  isWhere := h.isFirstAt_where
  from_lt_where := h.from_lt_where h.isFirstAt_where.1
  isAs := h.isFirstBehind_as.2.1
  only_as := h.only_as hitems halias
  from_lt_as := h.isFirstBehind_as.1
  as_lt_where := h.as_lt_where
  table := h.trim_textBetween_ne_nil hblank
  tableAlias := by
    have hwhereAt := h.whereAt_eq
    have hcount : tokenCount cut.aliasPieces ≠ 0 := by
      rw [Ne, tokenCount_eq_zero_iff, htoken]
      exact Option.some_ne_none token
    omega

/-- What is taken from such pieces are the parts at these places. -/
theorem hasParts (preamble : Option Text) {token : Lexeme}
    (htoken : cut.aliasPieces.find? Lexeme.isToken = some token) :
    HasParts (textOf pieces) (placedFrom 0 pieces) cut.fromAt cut.asAt cut.whereAt
      ⟨preamble, (textOf cut.table).trim, token.text,
        (textOf (cut.whereWord :: cut.condition)).trimEnd⟩ := by
  obtain ⟨aliasStart, haliasToken⟩ := h.getElem?_alias htoken
  refine ⟨_, _, _, _, h.getElem?_from, h.getElem?_as, haliasToken, h.getElem?_where, ?_, rfl, ?_⟩
  · rw [h.textBetween_eq h.getElem?_from h.getElem?_as]
  · rw [h.textFrom_eq]

/-- No violation up to that of a second `AS` applies. -/
theorem noneHold :
    Violation.NoneHold (textOf pieces) (placedFrom 0 pieces)
      [.noFrom, .secondFrom, .noWhere, .whereBeforeFrom, .noAs, .asBeforeFrom, .asBehindWhere] :=
  (h.toIsOpened.noneHold_of_as h.split_as).concat
    (Violation.not_asBehindWhere h.isFirstAt_from h.isFirstBehind_as
      fun index hlt => h.isFirstAt_where.2 index (hlt.trans h.as_lt_where))

/-- What the checks behind those for the order of the keywords say. -/
theorem ofPieces_eq (preamble : Option Text) :
    SourceQuery.ofPieces preamble pieces
      = if mentions .AS cut.items || mentions .AS cut.aliasPieces then .error (.duplicateKeyword .AS)
        else if (textOf cut.table).trim.isEmpty then .error .emptyTableName
        else match cut.aliasPieces.find? Lexeme.isToken with
          | none => .error .missingAlias
          | some token =>
            .ok ⟨preamble, (textOf cut.table).trim, token.text,
              (textOf (cut.whereWord :: cut.condition)).trimEnd⟩ := by
  simp only [SourceQuery.ofPieces, h.split_from, h.no_from, h.some_where, h.no_where, h.split_as,
    h.split_where, h.no_where_table]
  rfl

end IsOrdered

/-- Whether pieces are accepted for their shape, and the query has its parts from it. -/
def IsAccepted (preamble : Option Text) (pieces : List Lexeme) : Prop :=
  ∃ fromAt asAt whereAt query, SourceQuery.ofPieces preamble pieces = .ok query
    ∧ IsShaped (textOf pieces) (placedFrom 0 pieces) fromAt asAt whereAt
    ∧ HasParts (textOf pieces) (placedFrom 0 pieces) fromAt asAt whereAt query
    ∧ query.preamble = preamble

/-- A query with its keywords in order is accepted or refused. -/
theorem IsOrdered.isAccepted_or_isRefused {pieces : List Lexeme} {cut : KeywordCut}
    (h : IsOrdered pieces cut) (preamble : Option Text) :
    IsAccepted preamble pieces ∨ IsRefused preamble pieces := by
  cases hsecond : mentions .AS cut.items || mentions .AS cut.aliasPieces with
  | true =>
    refine .inr ⟨.secondAs, ?_, [.noFrom, .secondFrom, .noWhere, .whereBeforeFrom, .noAs, .asBeforeFrom,
      .asBehindWhere], _, rfl, ?_, h.noneHold⟩
    · rw [h.ofPieces_eq, hsecond]
      rfl
    · rcases (Bool.or_eq_true _ _).mp hsecond with hitems | halias
      · obtain ⟨index, hlt, hindex⟩ := (h.mentions_items_iff .AS).mp hitems
        exact ⟨index, cut.asAt, cut.whereAt, hlt.trans h.isFirstBehind_as.1, h.as_lt_where, hindex,
          h.isFirstBehind_as.2.1, h.isFirstAt_where⟩
      · obtain ⟨index, hlower, hupper, hindex⟩ := (h.mentions_aliasPieces_iff .AS).mp halias
        exact ⟨cut.asAt, index, cut.whereAt, hlower, hupper, h.isFirstBehind_as.2.1, hindex,
          h.isFirstAt_where⟩
  | false =>
    obtain ⟨hitems, halias⟩ := (Bool.or_eq_false_iff).mp hsecond
    have hsecondAs := h.noneHold.concat
      (Violation.not_secondAs h.isFirstAt_where (h.only_as hitems halias))
    by_cases hblank : (textOf cut.table).trim = []
    · refine .inr ⟨.noTable, ?_, [.noFrom, .secondFrom, .noWhere, .whereBeforeFrom, .noAs, .asBeforeFrom,
        .asBehindWhere, .secondAs], _, rfl, ?_, hsecondAs⟩
      · rw [h.ofPieces_eq, hsecond, hblank]
        rfl
      · refine ⟨cut.fromAt, cut.asAt, _, _, h.isFirstAt_from, h.isFirstBehind_as, h.getElem?_from,
          h.getElem?_as, ?_⟩
        rw [h.textBetween_eq h.getElem?_from h.getElem?_as, hblank]
    · have hfilled : (textOf cut.table).trim.isEmpty = false := by simpa using hblank
      cases htoken : cut.aliasPieces.find? Lexeme.isToken with
      | none =>
        refine .inr ⟨.noAlias, ?_, [.noFrom, .secondFrom, .noWhere, .whereBeforeFrom, .noAs, .asBeforeFrom,
          .asBehindWhere, .secondAs, .noTable], _, rfl, ?_, hsecondAs.concat
            (Violation.not_noTable h.isFirstAt_from h.isFirstBehind_as (h.trim_textBetween_ne_nil hblank))⟩
        · rw [h.ofPieces_eq, hsecond, hfilled, htoken]
          rfl
        · have hwhereAt := h.whereAt_eq
          rw [tokenCount_eq_zero_iff.mpr htoken] at hwhereAt
          exact ⟨cut.fromAt, cut.asAt, cut.whereAt, h.isFirstAt_from, h.isFirstBehind_as,
            h.isFirstAt_where, hwhereAt.symm⟩
      | some token =>
        refine .inl ⟨cut.fromAt, cut.asAt, cut.whereAt, _, ?_, h.isShaped hitems halias hblank htoken,
          h.hasParts preamble htoken, rfl⟩
        rw [h.ofPieces_eq, hsecond, hfilled, htoken]
        rfl

/-- A query is accepted or refused. -/
theorem isAccepted_or_isRefused (preamble : Option Text) (pieces : List Lexeme) :
    IsAccepted preamble pieces ∨ IsRefused preamble pieces := by
  rcases isOpened_or_isRefused preamble pieces with ⟨items, fromWord, afterFrom, hopened⟩ | hrefused
  · rcases hopened.isOrdered_or_isRefused preamble with ⟨cut, hordered⟩ | hrefused
    · exact hordered.isAccepted_or_isRefused preamble
    · exact .inr hrefused
  · exact .inr hrefused

/-! ## The law -/

/-- A text has the required shape at one choice of places at most. -/
theorem IsShaped.unique {text : Text} {tokens : List PlacedToken}
    {fromAt asAt whereAt fromAt' asAt' whereAt' : Nat} (h : IsShaped text tokens fromAt asAt whereAt)
    (h' : IsShaped text tokens fromAt' asAt' whereAt') :
    fromAt' = fromAt ∧ asAt' = asAt ∧ whereAt' = whereAt := by
  have hwhere := h'.isWhere.unique h.isWhere
  refine ⟨h.only_from fromAt' h'.isFrom, h.only_as asAt' ?_ h'.isAs, hwhere⟩
  rw [← hwhere]
  exact h'.as_lt_where

/-- A query with its parts from given places is the only one but for the declarations. -/
theorem HasParts.unique {text : Text} {tokens : List PlacedToken} {fromAt asAt whereAt : Nat}
    {query query' : SourceQuery} (h : HasParts text tokens fromAt asAt whereAt query)
    (h' : HasParts text tokens fromAt asAt whereAt query') (hpreamble : query.preamble = query'.preamble) :
    query = query' := by
  obtain ⟨fromToken, asToken, aliasToken, whereToken, hfrom, has, halias, hwhere, htable, hname, hclause⟩ := h
  obtain ⟨_, _, _, _, hfrom', has', halias', hwhere', htable', hname', hclause'⟩ := h'
  obtain rfl := Option.some.inj (hfrom.symm.trans hfrom')
  obtain rfl := Option.some.inj (has.symm.trans has')
  obtain rfl := Option.some.inj (halias.symm.trans halias')
  obtain rfl := Option.some.inj (hwhere.symm.trans hwhere')
  cases query
  cases query'
  simp_all

/-- **A query is accepted exactly for its shape and refused exactly for its first violation.**  The places
of the keywords are told among the tokens of the body, which is the text without the declarations in front of
it; the table, the alias and the condition are read off the places of the only `FROM`, the only `AS` before
the first `WHERE`, and this `WHERE`. -/
theorem SourceQuery.parse_law (dialect : Dialect) (text : Text) :
    let body := (splitPreamble dialect text).2
    let tokens := tokensOf dialect body
    (∀ query, SourceQuery.parse dialect text = .ok query ↔
        ∃ fromAt asAt whereAt, IsShaped body tokens fromAt asAt whereAt
          ∧ HasParts body tokens fromAt asAt whereAt query
          ∧ query.preamble = (splitPreamble dialect text).1)
      ∧ ∀ cause, SourceQuery.parse dialect text = .error cause ↔
        ∃ violation, IsFirstViolation body tokens violation
          ∧ cause = .malformedQuery violation.cause := by
  intro body tokens
  have hbody : textOf (lex dialect body) = body := textOf_lex dialect body
  have hcases := isAccepted_or_isRefused (splitPreamble dialect text).1 (lex dialect body)
  rw [IsAccepted, IsRefused, hbody] at hcases
  change (∃ fromAt asAt whereAt query, _ ∧ IsShaped body tokens fromAt asAt whereAt ∧ _) ∨ _ at hcases
  rcases hcases with ⟨fromAt, asAt, whereAt, query, hquery, hshaped, hparts, hpreamble⟩
    | ⟨violation, herror, hfirst⟩
  · have hparse : SourceQuery.parse dialect text = .ok query := by
      simp only [SourceQuery.parse, body] at hquery ⊢
      rw [hquery]
    rw [hparse]
    constructor
    · intro other
      constructor
      · rintro hother
        cases hother
        exact ⟨fromAt, asAt, whereAt, hshaped, hparts, hpreamble⟩
      · rintro ⟨fromAt', asAt', whereAt', hshaped', hparts', hpreamble'⟩
        obtain ⟨rfl, rfl, rfl⟩ := hshaped.unique hshaped'
        rw [hparts.unique hparts' (hpreamble.trans hpreamble'.symm)]
    · intro cause
      constructor
      · intro hcause
        cases hcause
      · rintro ⟨violation, ⟨-, -, -, hholds, -⟩, -⟩
        exact absurd hholds (hshaped.not_holds violation)
  · have hparse : SourceQuery.parse dialect text = .error (.malformedQuery violation.cause) := by
      simp only [SourceQuery.parse, body] at herror ⊢
      rw [herror]
    rw [hparse]
    constructor
    · intro other
      constructor
      · intro hother
        cases hother
      · rintro ⟨fromAt, asAt, whereAt, hshaped, -, -⟩
        obtain ⟨-, -, -, hholds, -⟩ := hfirst
        exact absurd hholds (hshaped.not_holds violation)
    · intro cause
      constructor
      · intro hcause
        cases hcause
        exact ⟨violation, hfirst, rfl⟩
      · rintro ⟨other, hother, rfl⟩
        rw [hfirst.unique hother]

-- the order of `WHERE` and `AS` is wrong as well, but that of `FROM` and `WHERE` is looked at first
example :
    SourceQuery.parse .sqlServer "SELECT 1 WHERE 'FROM' AS a From [t] as b AS c".toList
      = .error (.malformedQuery (.outOfOrder .FROM .WHERE)) := by
  decide +kernel

end BulkDml
