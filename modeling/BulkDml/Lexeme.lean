import BulkDml.Dialect

/-! # Lexical pieces of SQL text

`lex` cuts SQL text into words, quoted identifiers, string literals, line comments and single other
characters.  It knows just enough to keep keywords inside literals, identifiers and comments from being
taken for keywords, and it loses nothing: the pieces written one after the other are the text
(`textOf_lex`).

* `spanQuoted` — a run up to its closing mark, a doubled mark standing for the mark itself;
* `Lexeme`, `Lexeme.text` — a piece and its characters;
* `lex` — the pieces of a text under a dialect's identifier quotes;
* `textOf` — the text of a list of pieces.
-/

namespace BulkDml

/-! ## Delimited runs -/

/-- The run up to and including the first `close` that is not doubled, and the rest.  Without such a
`close`, everything belongs to the run. -/
def spanQuoted (close : Char) : Text → Text × Text
  | [] => ([], [])
  | [c] => ([c], [])
  | c :: d :: rest =>
    if c = close then
      if d = close then
        let (run, after) := spanQuoted close rest
        (c :: d :: run, after)
      else ([c], d :: rest)
    else
      let (run, after) := spanQuoted close (d :: rest)
      (c :: run, after)

/-- The run up to and including the first line break, and the rest. -/
def spanLine : Text → Text × Text
  | [] => ([], [])
  | c :: rest =>
    if c = '\n' then ([c], rest)
    else
      let (run, after) := spanLine rest
      (c :: run, after)

/-- A delimited run and what follows it are the text. -/
@[simp] theorem spanQuoted_append (close : Char) (text : Text) :
    (spanQuoted close text).1 ++ (spanQuoted close text).2 = text := by
  fun_induction spanQuoted close text <;> simp_all

/-- A line and what follows it are the text. -/
@[simp] theorem spanLine_append (text : Text) : (spanLine text).1 ++ (spanLine text).2 = text := by
  fun_induction spanLine text <;> simp_all

/-! ## Pieces -/

/-- The characters of a word: ASCII letters and digits, the underscore, the dollar and number signs. -/
def isWordChar (c : Char) : Bool := c.isAlphanum || c == '_' || c == '$' || c == '#'

/-- A lexical piece of SQL text, with all its characters. -/
inductive Lexeme where
  /-- A longest run of word characters. -/
  | word (text : Text)
  /-- A quoted identifier, quotes included. -/
  | quoted (text : Text)
  /-- A string literal, apostrophes included. -/
  | literal (text : Text)
  /-- A comment from two hyphens up to the end of its line, line break included. -/
  | comment (text : Text)
  /-- Any other character. -/
  | other (c : Char)
deriving DecidableEq

namespace Lexeme

/-- The characters of a piece. -/
def text : Lexeme → Text
  | word text | quoted text | literal text | comment text => text
  | other c => [c]

/-- Whether a piece is a token: a word or a quoted identifier. -/
def isToken : Lexeme → Bool
  | word _ | quoted _ => true
  | literal _ | comment _ | other _ => false

/-- Whether a piece is the given keyword: a word that spells it, in whatever ASCII case. -/
def isKeyword (keyword : Keyword) : Lexeme → Bool
  | word text => text.equalsIgnoringCase keyword.text
  | _ => false

/-- The piece that starts with `c`, and the text behind it. -/
def next (dialect : Dialect) (c : Char) (rest : Text) : Lexeme × Text :=
  if c = '\'' then
    let (run, after) := spanQuoted '\'' rest
    (literal (c :: run), after)
  else if c = dialect.openQuote then
    let (run, after) := spanQuoted dialect.closeQuote rest
    (quoted (c :: run), after)
  else if c = '-' ∧ rest.head? = some '-' then
    let (run, after) := spanLine rest
    (comment (c :: run), after)
  else if isWordChar c then (word (c :: rest.takeWhile isWordChar), rest.dropWhile isWordChar)
  else (other c, rest)

/-- A piece and the text behind it are the text that they were taken from. -/
@[simp] theorem text_next_append (dialect : Dialect) (c : Char) (rest : Text) :
    (next dialect c rest).1.text ++ (next dialect c rest).2 = c :: rest := by
  unfold next
  split
  · simp [text]
  · split
    · simp [text]
    · split
      · simp [text]
      · split <;> simp [text]

/-- Taking a piece shortens the text. -/
theorem length_next_lt (dialect : Dialect) (c : Char) (rest : Text) :
    (next dialect c rest).2.length < (c :: rest).length := by
  have happend := congrArg List.length (text_next_append dialect c rest)
  have hpositive : 0 < (next dialect c rest).1.text.length := by
    unfold next
    split
    · simp [text]
    · split
      · simp [text]
      · split
        · simp [text]
        · split <;> simp [text]
  simp only [List.length_append] at happend
  omega

end Lexeme

/-- The lexical pieces of a text, in order. -/
def lex (dialect : Dialect) : Text → List Lexeme
  | [] => []
  | c :: rest => (Lexeme.next dialect c rest).1 :: lex dialect (Lexeme.next dialect c rest).2
termination_by text => text.length
decreasing_by exact Lexeme.length_next_lt dialect c rest

/-- The text of a list of pieces. -/
def textOf (pieces : List Lexeme) : Text := pieces.flatMap Lexeme.text

@[simp] theorem lex_nil (dialect : Dialect) : lex dialect [] = [] := by rw [lex]

theorem lex_cons (dialect : Dialect) (c : Char) (rest : Text) :
    lex dialect (c :: rest)
      = (Lexeme.next dialect c rest).1 :: lex dialect (Lexeme.next dialect c rest).2 := by
  rw [lex]

@[simp] theorem textOf_nil : textOf [] = [] := rfl

@[simp] theorem textOf_cons (piece : Lexeme) (pieces : List Lexeme) :
    textOf (piece :: pieces) = piece.text ++ textOf pieces := rfl

@[simp] theorem textOf_append (left right : List Lexeme) :
    textOf (left ++ right) = textOf left ++ textOf right := by simp [textOf]

/-- Cutting a text into pieces loses nothing. -/
@[simp] theorem textOf_lex (dialect : Dialect) (text : Text) : textOf (lex dialect text) = text := by
  fun_induction lex dialect text with
  | case1 => rfl
  | case2 c rest ih => simp [ih]

end BulkDml
