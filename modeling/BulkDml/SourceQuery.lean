import BulkDml.Lexeme

/-! # Source queries

A source query is a SELECT that identifies the rows of a bulk statement, perhaps with declarations in
front of it:

```text
DECLARE @p0 int = 5;

SELECT [o].[Id]
FROM [Orders] AS [o]
WHERE [o].[CustomerId] = @p0
```

`SourceQuery.parse` takes the declarations, the table, its alias and the condition from it.  It reads no
more SQL than the keywords `FROM … AS … WHERE …`, each of which is a whole word outside literals, quoted
identifiers and comments, and it refuses a query in which they are missing, repeated or out of order.

* `splitPreamble` — the declarations and the query behind them;
* `SourceQuery.ofPieces` — table, alias and condition of a query cut into pieces;
* `SourceQuery.unaliasedWhere` — the condition without the qualifiers that name the alias.
-/

namespace BulkDml

/-! ## Declarations in front of a query -/

/-- The lines of a text, line breaks included. -/
def linesOf : Text → List Text
  | [] => []
  | c :: rest =>
    if c = '\n' then [c] :: linesOf rest
    else match linesOf rest with
      | [] => [[c]]
      | line :: lines => (c :: line) :: lines

/-- The lines of a text, one after the other, are the text. -/
@[simp] theorem flatten_linesOf (text : Text) : (linesOf text).flatten = text := by
  induction text with
  | nil => rfl
  | cons c rest ih =>
    unfold linesOf
    split
    · simp [ih]
    · split
      · next h => simp [h] at ih; simp [← ih]
      · next line lines h => simp [h] at ih; simp [← ih]

/-- The text before the first blank line after the first line, and the text from that line on. -/
def splitAtBlankLine (text : Text) : Option (Text × Text) :=
  match linesOf text with
  | [] => none
  | first :: lines =>
    let filled := lines.takeWhile fun line => !line.isAllBlank
    let behind := lines.dropWhile fun line => !line.isAllBlank
    if behind.isEmpty then none else some (first ++ filled.flatten, behind.flatten)

/-- Whether a text already holds part of the query: one of the words `SELECT` and `FROM`. -/
def startsQuery (dialect : Dialect) (text : Text) : Bool :=
  (lex dialect text).any fun piece => piece.isKeyword .FROM || piece.isKeyword .SELECT

/-- The declarations in front of a query, if there are any, and the query.  Declarations end at the
first blank line after the first line and hold no part of the query. -/
def splitPreamble (dialect : Dialect) (text : Text) : Option Text × Text :=
  match splitAtBlankLine text with
  | none => (none, text.trimStart)
  | some (head, behind) =>
    let declarations := head.trimEnd
    if declarations.isEmpty || startsQuery dialect declarations then (none, text.trimStart)
    else (some declarations, behind.trimStart)

/-! ## The query -/

/-- The parts of a source query that a bulk statement uses. -/
structure SourceQuery where
  /-- The declarations in front of the query, if there are any. -/
  preamble : Option Text
  /-- The table as written between `FROM` and `AS`. -/
  table : Text
  /-- The alias as written after `AS`. -/
  tableAlias : Text
  /-- Everything from `WHERE` on. -/
  whereClause : Text
deriving DecidableEq

/-- The pieces before the first one that is the given keyword, that piece, and the pieces behind it. -/
def splitKeyword (keyword : Keyword) : List Lexeme → Option (List Lexeme × Lexeme × List Lexeme)
  | [] => none
  | piece :: rest =>
    if piece.isKeyword keyword then some ([], piece, rest)
    else (splitKeyword keyword rest).map fun (before, found, behind) => (piece :: before, found, behind)

/-- Whether one of the pieces is the given keyword. -/
def mentions (keyword : Keyword) (pieces : List Lexeme) : Bool := pieces.any (·.isKeyword keyword)

/-- A keyword is split at exactly where it is mentioned. -/
theorem splitKeyword_eq_none_iff {keyword : Keyword} {pieces : List Lexeme} :
    splitKeyword keyword pieces = none ↔ mentions keyword pieces = false := by
  induction pieces with
  | nil => simp [splitKeyword, mentions]
  | cons piece rest ih =>
    unfold splitKeyword
    split
    · next h => simp [mentions, h]
    · next h => simp [mentions, h] at ih ⊢; exact ih

/-- Splitting at a keyword loses nothing. -/
theorem eq_append_of_splitKeyword {keyword : Keyword} {pieces before behind : List Lexeme}
    {found : Lexeme} (h : splitKeyword keyword pieces = some (before, found, behind)) :
    pieces = before ++ found :: behind := by
  induction pieces generalizing before with
  | nil => simp [splitKeyword] at h
  | cons piece rest ih =>
    unfold splitKeyword at h
    split at h
    · obtain ⟨rfl, rfl, rfl⟩ : [] = before ∧ piece = found ∧ rest = behind := by simpa using h
      rfl
    · obtain ⟨⟨a, f, b⟩, hsplit, hcons⟩ := Option.map_eq_some_iff.mp h
      obtain ⟨rfl, rfl, rfl⟩ : piece :: a = before ∧ f = found ∧ b = behind := by simpa using hcons
      simp [ih hsplit]

namespace SourceQuery

/-- Table, alias and condition of a query cut into pieces, or the first of the ways in which it is
misshapen. -/
def ofPieces (preamble : Option Text) (pieces : List Lexeme) : Except MalformedQuery SourceQuery :=
  match splitKeyword .FROM pieces with
  | none => .error (.missingKeyword .FROM)
  | some (beforeFrom, _, afterFrom) =>
    if mentions .FROM afterFrom then .error (.duplicateKeyword .FROM)
    else if !mentions .WHERE pieces then .error (.missingKeyword .WHERE)
    else if mentions .WHERE beforeFrom then .error (.outOfOrder .FROM .WHERE)
    else match splitKeyword .AS afterFrom with
      | none =>
        if mentions .AS beforeFrom then .error (.outOfOrder .FROM .AS)
        else .error (.missingKeyword .AS)
      | some (tablePieces, _, afterAs) =>
        match splitKeyword .WHERE afterAs with
        | none => .error (.outOfOrder .AS .WHERE)
        | some (aliasPieces, whereWord, condition) =>
          if mentions .WHERE tablePieces then .error (.outOfOrder .AS .WHERE)
          else if mentions .AS beforeFrom || mentions .AS aliasPieces then
            .error (.duplicateKeyword .AS)
          else
            let table := (textOf tablePieces).trim
            if table.isEmpty then .error .emptyTableName
            else match aliasPieces.find? Lexeme.isToken with
              | none => .error .missingAlias
              | some token =>
                .ok ⟨preamble, table, token.text, (textOf (whereWord :: condition)).trimEnd⟩

/-- The parts of a source query. -/
def parse (dialect : Dialect) (text : Text) : Except CompileError SourceQuery :=
  let (preamble, body) := splitPreamble dialect text
  match ofPieces preamble (lex dialect body) with
  | .ok query => .ok query
  | .error cause => .error (.malformedQuery cause)

end SourceQuery

/-! ## The condition without the alias -/

/-- The pieces without each token that spells the qualifier and stands directly before a point, and
without that point. -/
def dropQualifier (qualifier : Text) : List Lexeme → List Lexeme
  | [] => []
  | [piece] => [piece]
  | piece :: next :: rest =>
    if piece.isToken ∧ piece.text = qualifier ∧ next = .other '.' then dropQualifier qualifier rest
    else piece :: dropQualifier qualifier (next :: rest)

/-- The condition of a source query without the qualifiers that name the alias. -/
def SourceQuery.unaliasedWhere (dialect : Dialect) (query : SourceQuery) : Text :=
  textOf (dropQualifier query.tableAlias (lex dialect query.whereClause))

end BulkDml
