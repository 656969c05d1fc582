import BulkDml.Text

/-! # The tokens of a database's SQL

The database reads SQL by rules of its own, whatever dialect a statement was written for: it takes quotes
of every kind around names, skips comments of two kinds, and numbers its parameters.

* `Database.Token` — a token; names and keywords are in lower case, since the case of ASCII letters does
  not tell them apart;
* `Database.tokens` — the tokens of a text;
* `Database.statements` — the tokens of each of its statements.
-/

namespace BulkDml

namespace Database

/-- A token of the database's SQL. -/
inductive Token where
  /-- A keyword, or a name without quotes. -/
  | word (text : Text)
  /-- The name between brackets or backticks. -/
  | name (text : Text)
  /-- The text between apostrophes or double quotes: a name where only a name can stand. -/
  | literal (text : Text)
  /-- A number, or bytes. -/
  | number
  /-- A parameter that a value can be bound to. -/
  | parameter
  /-- A punctuation mark, or a character of an operator. -/
  | mark (c : Char)
  /-- What no statement may hold: a quote that is not closed, a number that runs into letters, a parameter
  that is told by a name, or any other character. -/
  | refused
deriving DecidableEq

/-! ## Runs of characters -/

/-- The characters that separate tokens. -/
def isSeparator (c : Char) : Bool :=
  c == ' ' || c == '\t' || c == '\n' || c == '\x0c' || c == '\r' || c == '\ufeff'

/-- The characters of a name without quotes: ASCII letters and digits, the underscore, the dollar sign and
everything that is not ASCII. -/
def isNamePart (c : Char) : Bool := isNameChar c || c == '$' || 0x80 ≤ c.toNat

/-- The characters that punctuation and operators are made up of. -/
def markChars : List Char :=
  ['(', ')', ',', ';', '.', '+', '-', '*', '/', '%', '=', '<', '>', '|', '&', '~']

/-- The text up to the first `close` that is not doubled, a doubled one standing for the mark itself, and
the text behind it. -/
def untilQuote? (close : Char) : Text → Option (Text × Text)
  | [] => none
  | [c] => if c = close then some ([], []) else none
  | c :: d :: rest =>
    if c = close then
      if d = close then (untilQuote? close rest).map fun (value, after) => (c :: value, after)
      else some ([], d :: rest)
    else (untilQuote? close (d :: rest)).map fun (value, after) => (c :: value, after)

/-- The text behind the end of a block comment. -/
def afterComment : Text → Text
  | '*' :: '/' :: rest => rest
  | _ :: rest => afterComment rest
  | [] => []

/-- Whether a text is made up of digits; single underscores may stand between them. -/
def isDigitRun (text : Text) : Bool :=
  (text.splitAll '_').all fun group => !group.isEmpty && group.all Char.isDigit

/-- Whether a sign and a digit come next. -/
def startsSigned : Text → Bool
  | sign :: digit :: _ => (sign == '+' || sign == '-') && digit.isDigit
  | _ => false

/-- Whether a character is a hexadecimal digit. -/
def isHexDigit (c : Char) : Bool := c.isDigit || ('a' ≤ c.toLower && c.toLower ≤ 'f')

/-- Whether a run of name characters that starts with a digit writes a number.  An exponent with a sign
goes on `behind` the run. -/
def isNumber (run behind : Text) : Bool :=
  match run.asciiLower with
  | '0' :: 'x' :: digits => !digits.isEmpty && digits.all isHexDigit
  | digits =>
    match digits.splitFirst 'e' with
    | none => isDigitRun digits
    | some (whole, exponent) =>
      isDigitRun whole && (isDigitRun exponent || (exponent.isEmpty && startsSigned behind))

/-- A number that a parameter may have. -/
def isParameterNumber (digits : Text) : Bool := 0 < digits.toNat && digits.toNat ≤ 32766

/-! ## Tokens -/

/-- The text behind what separates tokens, if that starts with `c`: a run of separators, or a comment. -/
def afterSeparation? (c : Char) (rest : Text) : Option Text :=
  if isSeparator c then some (rest.dropWhile fun d => isSeparator d || d == '\x0b')
  else if c = '-' ∧ rest.head? = some '-' then some (rest.dropWhile (· != '\n'))
  else if c = '/' ∧ rest.head? = some '*' ∧ 1 < rest.length then some (afterComment rest.tail)
  else none

namespace Token

/-- The token whose text stands between a quote and its `close`, and the text behind it. -/
def readQuoted (token : Text → Token) (close : Char) (rest : Text) : Token × Text :=
  match untilQuote? close rest with
  | some (value, after) => (token value.asciiLower, after)
  | none => (refused, [])

/-- The token whose name stands between brackets, and the text behind it. -/
def readBracketed (rest : Text) : Token × Text :=
  match rest.splitFirst ']' with
  | some (value, after) => (name (Text.asciiLower value), after)
  | none => (refused, [])

/-- The token that a run of name characters makes, and the text behind it. -/
def readRun (c : Char) (rest : Text) : Token × Text :=
  let run : Text := c :: rest.takeWhile isNamePart
  let behind := rest.dropWhile isNamePart
  if c.isDigit then (if isNumber run behind then number else refused, behind)
  else (word run.asciiLower, behind)

/-- The token of bytes, written as pairs of hexadecimal digits up to an apostrophe, and the text behind
it. -/
def readBytes (rest : Text) : Token × Text :=
  match rest.splitFirst '\'' with
  | some (digits, after) =>
    (if digits.length % 2 = 0 && digits.all isHexDigit then number else refused, after)
  | none => (refused, [])

/-- The parameter that `c` introduces, and the text behind it. -/
def readParameter (c : Char) (rest : Text) : Token × Text :=
  let digits := rest.takeWhile Char.isDigit
  if c = '?' then
    (if digits.isEmpty || isParameterNumber digits then parameter else refused,
      rest.dropWhile Char.isDigit)
  else (if c = '$' ∧ isParameterNumber digits then parameter else refused, rest.dropWhile isNamePart)

/-- The token that starts with `c`, and the text behind it. -/
def read (c : Char) (rest : Text) : Token × Text :=
  if c = '\'' ∨ c = '"' then readQuoted literal c rest
  else if c = '\x60' then readQuoted name c rest
  else if c = '[' then readBracketed rest
  else if c.toLower = 'x' ∧ rest.head? = some '\'' then readBytes rest.tail
  else if c = '?' ∨ c = '$' ∨ c = '@' ∨ c = ':' ∨ c = '#' then readParameter c rest
  else if isNamePart c then readRun c rest
  else (if markChars.contains c ∨ (c = '!' ∧ rest.head? = some '=') then mark c else refused, rest)

/-- The token at the start of a text, unless something that separates tokens comes first, and the text
behind what was read. -/
def next (c : Char) (rest : Text) : Option Token × Text :=
  match afterSeparation? c rest with
  | some after => (none, after)
  | none => (some (read c rest).1, (read c rest).2)

end Token

/-- A quoted text is followed by no more text than it started in. -/
theorem length_le_of_untilQuote? {close : Char} {text value after : Text}
    (h : untilQuote? close text = some (value, after)) : after.length ≤ text.length := by
  fun_induction untilQuote? close text generalizing value with
  | case1 => cases h
  | case2 => cases h; simp
  | case3 => cases h
  | case4 rest ih =>
    obtain ⟨⟨inner, behind⟩, hinner, hdone⟩ := Option.map_eq_some_iff.mp h
    cases hdone
    have := ih hinner
    simp only [List.length_cons]
    omega
  | case5 => cases h; simp
  | case6 c d rest _ ih =>
    obtain ⟨⟨inner, behind⟩, hinner, hdone⟩ := Option.map_eq_some_iff.mp h
    cases hdone
    have := ih hinner
    simp only [List.length_cons] at *
    omega

/-- A comment is followed by no more text than it started in. -/
theorem length_afterComment_le (text : Text) : (afterComment text).length ≤ text.length := by
  fun_induction afterComment text with
  | case1 => simp only [List.length_cons]; omega
  | case2 _ _ _ ih => simp only [List.length_cons]; omega
  | case3 => exact Nat.le_refl _

/-- What is left of a text behind a run is no longer than the text. -/
theorem length_dropWhile_le (p : Char → Bool) (text : Text) :
    (text.dropWhile p).length ≤ text.length := (List.dropWhile_suffix p).length_le

/-- Taking what separates tokens shortens the text. -/
theorem length_le_of_afterSeparation? {c : Char} {rest after : Text}
    (h : afterSeparation? c rest = some after) : after.length ≤ rest.length := by
  unfold afterSeparation? at h
  split at h
  · cases h; exact length_dropWhile_le _ rest
  split at h
  · cases h; exact length_dropWhile_le _ rest
  split at h
  · cases h; exact Nat.le_trans (length_afterComment_le rest.tail) (by simp)
  · cases h

namespace Token

theorem length_readQuoted_le (token : Text → Token) (close : Char) (rest : Text) :
    (readQuoted token close rest).2.length ≤ rest.length := by
  unfold readQuoted
  split
  · next h => exact length_le_of_untilQuote? h
  · exact Nat.zero_le _

theorem length_readBracketed_le (rest : Text) : (readBracketed rest).2.length ≤ rest.length := by
  unfold readBracketed
  split
  · next h =>
    rw [Text.eq_append_of_splitFirst h]
    simp only [List.length_append, List.length_cons]
    omega
  · exact Nat.zero_le _

theorem length_readBytes_le (rest : Text) : (readBytes rest).2.length ≤ rest.length := by
  unfold readBytes
  split
  · next h =>
    rw [Text.eq_append_of_splitFirst h]
    simp only [List.length_append, List.length_cons]
    omega
  · exact Nat.zero_le _

theorem length_readRun_le (c : Char) (rest : Text) : (readRun c rest).2.length ≤ rest.length := by
  unfold readRun
  split <;> exact length_dropWhile_le _ rest

theorem length_readParameter_le (c : Char) (rest : Text) :
    (readParameter c rest).2.length ≤ rest.length := by
  unfold readParameter
  split <;> exact length_dropWhile_le _ rest

/-- Taking a token shortens the text. -/
theorem length_read_le (c : Char) (rest : Text) : (read c rest).2.length ≤ rest.length := by
  unfold read
  split
  · exact length_readQuoted_le _ _ rest
  split
  · exact length_readQuoted_le _ _ rest
  split
  · exact length_readBracketed_le rest
  split
  · exact Nat.le_trans (length_readBytes_le rest.tail) (by simp)
  split
  · exact length_readParameter_le c rest
  split
  · exact length_readRun_le c rest
  · exact Nat.le_refl _

/-- Taking a token or what separates tokens shortens the text. -/
theorem length_next_le (c : Char) (rest : Text) : (next c rest).2.length ≤ rest.length := by
  unfold next
  split
  · next h => exact length_le_of_afterSeparation? h
  · exact length_read_le c rest

end Token

/-- The tokens of a text, in order. -/
def tokens : Text → List Token
  | [] => []
  | c :: rest => (Token.next c rest).1.toList ++ tokens (Token.next c rest).2
termination_by text => text.length
decreasing_by exact Nat.lt_succ_of_le (Token.length_next_le c rest)

@[simp] theorem tokens_nil : tokens [] = [] := by rw [tokens]

theorem tokens_cons (c : Char) (rest : Text) :
    tokens (c :: rest) = (Token.next c rest).1.toList ++ tokens (Token.next c rest).2 := by
  rw [tokens]

/-! ## Statements -/

/-- Whether tokens start the declaration of a trigger. -/
def declaresTrigger : List Token → Bool
  | .word create :: .word second :: rest =>
    create == "create".toList &&
      (second == "trigger".toList ||
        ((second == "temp".toList || second == "temporary".toList) &&
          rest.head? == some (.word "trigger".toList)))
  | _ => false

/-- Whether tokens start the declaration of a trigger whose last step has not been read yet.  The steps of a
trigger end in semicolons of their own. -/
def isOpenTrigger (tokens : List Token) : Bool :=
  declaresTrigger tokens && tokens.reverse.take 2 != [.word "end".toList, .mark ';']

/-- The tokens of each statement, where `current` are those of the first one read so far. -/
def statementsAfter (current : List Token) : List Token → List (List Token)
  | [] => [current]
  | token :: rest =>
    if token = .mark ';' && !isOpenTrigger current then current :: statementsAfter [] rest
    else statementsAfter (current ++ [token]) rest

/-- The tokens of each statement of a text.  Semicolons end statements, and empty ones are skipped. -/
def statements (sql : Text) : List (List Token) :=
  (statementsAfter [] (tokens sql)).filter (!·.isEmpty)

/-- Every statement has a token. -/
theorem ne_nil_of_mem_statements {sql : Text} {statement : List Token}
    (h : statement ∈ statements sql) : statement ≠ [] := by
  simpa using (List.mem_filter.mp h).2

end Database

end BulkDml
