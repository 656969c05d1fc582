import BulkDml.Proofs.MergedBindings
import BulkDml.Proofs.OperandText
import BulkDml.Proofs.PieceCut
import BulkDml.Proofs.QueryLayout
import Mathlib.Data.List.Chain

/-! # What a SET clause consists of

Columns reach a SET clause between quotes, values as literals or as parameters, and nothing that they hold
gets out of there: cut into pieces like any SQL, the clause consists of the parts that it was put together
from.  The one way out are the names of parameters, which hold the column of the value as it is.

* `Lexeme.IsContained` — pieces that are closed and are neither keywords nor comments;
* `ClausePart` — what a SET clause may consist of, each part with its text;
* `ClausePart.Writes` — parts that make up a text, cut where lexing cuts it;
* `SetClause.IsContained` — clauses that consist of such parts, of their columns and of their parameters;
* `Assignment.isContained_compile_iff` — these are the clauses in which values are assigned to columns of
  ASCII letters, digits and underscores.
-/

namespace BulkDml

/-! ## Pieces of a clause -/

/-- What holds of every keyword holds of the four. -/
theorem Keyword.forall_iff {p : Keyword → Prop} :
    (∀ keyword, p keyword) ↔ p .SELECT ∧ p .FROM ∧ p .AS ∧ p .WHERE := by
  constructor
  · intro h
    exact ⟨h _, h _, h _, h _⟩
  · rintro ⟨hselect, hfrom, has, hwhere⟩ keyword
    cases keyword <;> assumption

instance {p : Keyword → Prop} [DecidablePred p] : Decidable (∀ keyword, p keyword) :=
  decidable_of_iff _ Keyword.forall_iff.symm

/-- The characters that end a part of a clause. -/
def separators : List Char := [' ', ')', ',']

/-- Whether a text is empty or starts with a separator. -/
def Text.startsSeparator (text : Text) : Bool := text.head?.all (separators.contains ·)

namespace Lexeme

/-- Whether a piece is closed and has no part in the shape of a statement. -/
structure IsContained (dialect : Dialect) (piece : Lexeme) : Prop where
  /-- The piece ends by itself. -/
  isComplete : piece.IsComplete dialect
  /-- It is no comment. -/
  not_comment : ∀ line, piece ≠ .comment line
  /-- It is no keyword. -/
  not_keyword : ∀ keyword, piece.isKeyword keyword = false

/-- No piece is prolonged by a separator. -/
theorem stopsAt_of_startsSeparator (dialect : Dialect) (piece : Lexeme) {after : Text}
    (h : after.startsSeparator = true) : piece.StopsAt dialect after := by
  cases after with
  | nil => cases piece <;> simp [StopsAt]
  | cons c tail =>
    have hc : c ∈ separators := List.contains_iff_mem.mp h
    have hne : ∀ mark, separators.contains mark = false → c ≠ mark := by
      rintro mark hmark rfl
      rw [List.contains_iff_mem.mpr hc] at hmark
      cases hmark
    cases piece with
    | word text =>
      have hall : (separators.all fun mark => !isWordChar mark) = true := by decide
      exact List.all_eq_true.mp hall c hc
    | quoted text => simpa [StopsAt] using hne _ (by cases dialect <;> decide)
    | literal text => simpa [StopsAt] using hne _ (by decide)
    | comment text => trivial
    | other d => simpa [StopsAt] using fun _ => hne _ (by decide)

/-- A quoted identifier is contained. -/
theorem IsContained.quoted (dialect : Dialect) (name : Text) :
    IsContained dialect (.quoted (dialect.quote name)) :=
  ⟨⟨name, rfl⟩, by simp, fun _ => rfl⟩

/-- A string literal is contained. -/
theorem IsContained.literal (dialect : Dialect) (content : Text) :
    IsContained dialect (.literal (Value.textLiteral content)) :=
  ⟨⟨content, rfl⟩, by simp, fun _ => rfl⟩

/-- A single other character is contained. -/
theorem IsContained.other (dialect : Dialect) (c : Char) : IsContained dialect (.other c) :=
  ⟨trivial, by simp, fun _ => rfl⟩

/-- A word is contained if it has a character that no keyword has. -/
theorem IsContained.word (dialect : Dialect) {run : Text} {c : Char} (hc : c ∈ run)
    (hforeign : ∀ keyword : Keyword, c.toLower ∉ keyword.text.asciiLower) :
    IsContained dialect (.word run) := by
  have hmem : c ∈ (Lexeme.word run).text := hc
  exact ⟨trivial, by simp, isKeyword_eq_false_of_mem hmem hforeign⟩

/-- A word of digits and exponent signs is contained. -/
theorem IsContained.digits (dialect : Dialect) {run : Text}
    (h : ∀ c ∈ run, c.isDigit = true ∨ c = 'e') : IsContained dialect (.word run) := by
  refine ⟨trivial, by simp, ?_⟩
  intro keyword
  rw [isKeyword, Bool.eq_false_iff]
  intro hsame
  have hlower : run.asciiLower = keyword.text.asciiLower := by
    simpa [Text.equalsIgnoringCase] using hsame
  -- the first letter of a keyword is neither a digit nor an `e`
  obtain ⟨first, hfirst, hletter⟩ :
      ∃ first ∈ keyword.text.asciiLower, first ∈ ['s', 'f', 'a', 'w'] := by
    cases keyword <;> exact ⟨_, List.mem_cons_self, by decide⟩
  rw [← hlower] at hfirst
  obtain ⟨c, hc, rfl⟩ := List.mem_map.mp hfirst
  rcases h c hc with hdigit | rfl
  · rw [toLower_of_isDigit hdigit] at hletter
    have hletters : ['s', 'f', 'a', 'w'].all (!·.isDigit) = true := rfl
    have hnone := List.all_eq_true.mp hletters c hletter
    rw [hdigit] at hnone
    cases hnone
  · exact absurd hletter (by decide)

end Lexeme

/-! ## Numbers -/

/-- Whether no two hyphens stand side by side in a text. -/
def Text.HasSingleHyphens (text : Text) : Prop :=
  text.IsChain fun c d => ¬(c = '-' ∧ d = '-')

namespace Text.HasSingleHyphens

/-- A hyphen stands by itself in front of a text that starts with another character. -/
theorem hyphen_cons {text : Text} (h : text.HasSingleHyphens) (hhead : text.head? ≠ some '-') :
    Text.HasSingleHyphens ('-' :: text) := by
  refine List.isChain_cons.mpr ⟨?_, h⟩
  rintro d hd ⟨-, rfl⟩
  exact hhead hd

/-- Characters other than hyphens bring no hyphens together. -/
theorem append {chars text : Text} (hchars : '-' ∉ chars) (h : text.HasSingleHyphens) :
    Text.HasSingleHyphens (chars ++ text) := by
  induction chars with
  | nil => exact h
  | cons c rest ih =>
    rw [List.mem_cons, not_or] at hchars
    refine List.isChain_cons.mpr ⟨?_, ih hchars.2⟩
    rintro d - ⟨rfl, -⟩
    exact hchars.1 rfl

/-- The empty text holds no hyphens. -/
theorem nil : Text.HasSingleHyphens [] := List.isChain_nil

end Text.HasSingleHyphens

/-- Digits are no hyphens. -/
theorem hyphen_notMem_of_isDigit {digits : Text} (h : ∀ c ∈ digits, c.isDigit = true) : '-' ∉ digits :=
  fun hmem => absurd (h '-' hmem) (by decide)

/-- The decimal form of an integer has one hyphen at most, and that in front. -/
theorem hasSingleHyphens_ofInt (n : Int) : Text.HasSingleHyphens (Text.ofInt n) := by
  have hdigits : ∀ m : Nat, '-' ∉ Text.ofNat m :=
    fun m => hyphen_notMem_of_isDigit fun c hc => Text.isDigit_of_mem_ofNat hc
  have hnat : ∀ m : Nat, Text.HasSingleHyphens (Text.ofNat m) := by
    intro m
    rw [← List.append_nil (Text.ofNat m)]
    exact .append (hdigits m) .nil
  cases n with
  | ofNat m => exact hnat m
  | negSucc m => exact (hnat (m + 1)).hyphen_cons fun hhead => hdigits _ (List.mem_of_head? hhead)

/-- No two hyphens stand side by side in a number. -/
theorem Numeral.IsDigits.hasSingleHyphens {numeral : Numeral} (h : numeral.IsDigits)
    (hne : numeral.whole ≠ []) : Text.HasSingleHyphens (numeral.text false) := by
  -- only the sign and the exponent have a hyphen, and digits stand between them
  obtain ⟨suffix, hsuffix, htext⟩ : ∃ suffix, Text.HasSingleHyphens suffix
      ∧ numeral.text false = (if numeral.negative then ['-'] else []) ++ (numeral.whole
        ++ ((if numeral.fraction.isEmpty then [] else '.' :: numeral.fraction) ++ suffix)) := by
    cases hexponent : numeral.exponent with
    | none => exact ⟨[], .nil, by simp [text, hexponent]⟩
    | some exponent =>
      have hmark : '-' ∉ ['e'] := by decide
      refine ⟨exponentText false exponent, .append hmark (hasSingleHyphens_ofInt exponent), ?_⟩
      simp [text, hexponent]
  have hfraction : '-' ∉ (if numeral.fraction.isEmpty then [] else '.' :: numeral.fraction) := by
    split
    · exact List.not_mem_nil
    · rw [List.mem_cons, not_or]
      exact ⟨by decide, hyphen_notMem_of_isDigit h.fraction⟩
  have hwhole := hyphen_notMem_of_isDigit h.whole
  have hbehind := Text.HasSingleHyphens.append hwhole (.append hfraction hsuffix)
  rw [htext]
  cases numeral.negative with
  | false => exact hbehind
  | true =>
    refine hbehind.hyphen_cons ?_
    obtain ⟨c, rest, hcons⟩ := List.exists_cons_of_ne_nil hne
    rw [hcons, List.cons_append, List.head?_cons, Ne, Option.some_inj]
    rintro rfl
    exact hwhole (by simp [hcons])

/-- Digits, exponent signs, points and single hyphens are cut into contained pieces. -/
theorem isContained_of_mem_lex_numeral {dialect : Dialect} {text : Text}
    (hchars : ∀ c ∈ text, c.isDigit = true ∨ c ∈ ['e', '-', '.']) (h : text.HasSingleHyphens) :
    ∀ piece ∈ lex dialect text, piece.IsContained dialect := by
  fun_induction lex dialect text with
  | case1 => simp
  | case2 c rest ih =>
    have hne : ∀ d : Char, (d.isDigit || ['e', '-', '.'].contains d) = false → c ≠ d := by
      rintro d hd rfl
      rcases hchars c List.mem_cons_self with hc | hc
      · rw [hc] at hd
        cases hd
      · rw [List.contains_iff_mem.mpr hc, Bool.or_true] at hd
        cases hd
    have hcomment : ¬(c = '-' ∧ rest.head? = some '-') := by
      rintro ⟨hc, hrest⟩
      exact (List.isChain_cons.mp h).1 '-' hrest ⟨hc, rfl⟩
    have hquoted : c ≠ dialect.openQuote := hne _ (by cases dialect <;> decide)
    have hliteral : c ≠ '\'' := hne _ (by decide)
    by_cases hword : isWordChar c = true
    · have hnext : Lexeme.next dialect c rest
          = (.word (c :: rest.takeWhile isWordChar), rest.dropWhile isWordChar) := by
        rw [Lexeme.next, if_neg hliteral, if_neg hquoted, if_neg hcomment, if_pos hword]
      have hsuffix : rest.dropWhile isWordChar <:+ c :: rest :=
        (List.dropWhile_suffix _).trans (List.suffix_cons c rest)
      rw [hnext] at ih
      rw [hnext, List.forall_mem_cons]
      refine ⟨.digits dialect ?_, ih (fun d hd => hchars d (hsuffix.subset hd)) (h.suffix hsuffix)⟩
      -- of the characters of a number, digits and exponent signs are those of words
      intro d hd
      have hdword : isWordChar d = true := by
        rcases List.mem_cons.mp hd with rfl | hd
        · exact hword
        · exact List.mem_takeWhile_imp hd
      have hdmem : d ∈ c :: rest := by
        rcases List.mem_cons.mp hd with rfl | hd
        · exact List.mem_cons_self
        · exact List.mem_cons_of_mem _ ((List.takeWhile_sublist _).subset hd)
      rcases hchars d hdmem with hdigit | hother
      · exact .inl hdigit
      · simp only [List.mem_cons, List.not_mem_nil, or_false] at hother
        rcases hother with rfl | rfl | rfl
        · exact .inr rfl
        · exact absurd hdword (by decide)
        · exact absurd hdword (by decide)
    · have hnext : Lexeme.next dialect c rest = (.other c, rest) :=
        Lexeme.next_other dialect hliteral hquoted hcomment (by simpa using hword)
      rw [hnext] at ih
      rw [hnext, List.forall_mem_cons]
      exact ⟨.other dialect c,
        ih (fun d hd => hchars d (List.mem_cons_of_mem c hd)) (h.suffix (List.suffix_cons c rest))⟩

/-- Numbers are written with digits, exponent signs, hyphens and points. -/
theorem Numeral.IsDigits.isDigit_or_mem {numeral : Numeral} (h : numeral.IsDigits) {c : Char}
    (hc : c ∈ numeral.text false) : c.isDigit = true ∨ c ∈ ['e', '-', '.'] := by
  simp only [text, List.mem_append] at hc
  rcases hc with ((hsign | hwhole) | hfraction) | hexponent
  · split at hsign
    · rw [List.mem_singleton.mp hsign]
      exact .inr (by decide)
    · cases hsign
  · exact .inl (h.whole c hwhole)
  · split at hfraction
    · cases hfraction
    · rcases List.mem_cons.mp hfraction with rfl | hdigit
      · exact .inr (by decide)
      · exact .inl (h.fraction c hdigit)
  · split at hexponent
    · cases hexponent
    · next exponent _ =>
      simp only [exponentText, Bool.false_and, Bool.false_eq_true, if_false, List.nil_append]
        at hexponent
      rcases List.mem_cons.mp hexponent with rfl | hint
      · exact .inr (by decide)
      cases exponent with
      | ofNat n => exact .inl (Text.isDigit_of_mem_ofNat hint)
      | negSucc n =>
        rcases List.mem_cons.mp hint with rfl | hdigit
        · exact .inr (by decide)
        · exact .inl (Text.isDigit_of_mem_ofNat hdigit)

/-- A number is cut into contained pieces. -/
theorem Numeral.IsDigits.isContained_of_mem_lex (dialect : Dialect) {numeral : Numeral}
    (h : numeral.IsDigits) (hne : numeral.whole ≠ []) :
    ∀ piece ∈ lex dialect (numeral.text false), piece.IsContained dialect := by
  exact isContained_of_mem_lex_numeral (fun c hc => h.isDigit_or_mem hc) (h.hasSingleHyphens hne)

/-! ## Operands -/

/-- A quoted name is one piece. -/
theorem lex_quote (dialect : Dialect) (name : Text) :
    lex dialect (dialect.quote name) = [.quoted (dialect.quote name)] := by
  have hends : (Lexeme.quoted (dialect.quote name)).EndsBefore dialect [] := ⟨name, .inl ⟨rfl, by simp⟩⟩
  exact Lexeme.lex_text hends

/-- A text literal is one piece. -/
theorem lex_textLiteral (dialect : Dialect) (content : Text) :
    lex dialect (Value.textLiteral content) = [.literal (Value.textLiteral content)] := by
  have hends : (Lexeme.literal (Value.textLiteral content)).EndsBefore dialect [] :=
    ⟨content, .inl ⟨rfl, by simp⟩⟩
  exact Lexeme.lex_text hends

/-- Operands are cut into contained pieces. -/
theorem OperandText.isContained_of_mem_lex {dialect : Dialect} {text : Text}
    (h : OperandText dialect text) : ∀ piece ∈ lex dialect text, piece.IsContained dialect := by
  cases h with
  | name name =>
    rw [← Dialect.quote, lex_quote]
    simpa using Lexeme.IsContained.quoted dialect name
  | text content =>
    rw [← Value.textLiteral, lex_textLiteral]
    simpa using Lexeme.IsContained.literal dialect content
  | @blob digits hdigits =>
    -- the `X` is a word by itself, and no apostrophe is among the digits
    have happostrophe : '\'' ∉ digits := fun hmem => absurd (hdigits _ hmem) (by decide)
    have hliteral : 'X' :: '\'' :: digits ++ ['\''] = 'X' :: Value.textLiteral digits := by
      rw [Value.textLiteral, Text.doubling_eq_self happostrophe]
      rfl
    have hends : (Lexeme.word ['X']).EndsBefore dialect (Value.textLiteral digits) :=
      ⟨List.cons_ne_nil _ _, List.forall_mem_singleton.mpr rfl, rfl⟩
    have hword : lex dialect ('X' :: Value.textLiteral digits)
        = .word ['X'] :: lex dialect (Value.textLiteral digits) :=
      Lexeme.lex_text_append hends
    rw [hliteral, hword, lex_textLiteral]
    simp only [List.forall_mem_cons, List.not_mem_nil, false_imp_iff, implies_true, and_true]
    exact ⟨.word dialect List.mem_cons_self (by decide), .literal dialect digits⟩
  | number hdigits hne => exact hdigits.isContained_of_mem_lex dialect hne
  | null =>
    have hlex : lex dialect "NULL".toList = [.word "NULL".toList] := by
      cases dialect <;> decide +kernel
    rw [hlex]
    simpa using Lexeme.IsContained.word dialect (c := 'N') (by decide) (by decide)
  | bool value =>
    have hlex : lex dialect (dialect.booleanLiteral value) = [.word (dialect.booleanLiteral value)] := by
      cases dialect <;> cases value <;> decide +kernel
    rw [hlex, List.forall_mem_singleton]
    refine ⟨trivial, by simp, ?_⟩
    cases dialect <;> cases value <;> decide

/-- The pieces of a text whose pieces are contained come first in front of every separator. -/
theorem lex_append_of_isContained {dialect : Dialect} {text : Text}
    (h : ∀ piece ∈ lex dialect text, piece.IsContained dialect) {after : Text}
    (hafter : after.startsSeparator = true) :
    lex dialect (text ++ after) = lex dialect text ++ lex dialect after := by
  have hstop : ∀ piece ∈ (lex dialect text).getLast?, piece.StopsAt dialect after :=
    fun piece _ => piece.stopsAt_of_startsSeparator dialect hafter
  have hlex := lex_textOf_append (fun piece hpiece => (h piece hpiece).isComplete)
    (by rw [textOf_lex]) hstop
  rwa [textOf_lex] at hlex

/-! ## Parts of a clause -/

/-- A part of a SET clause. -/
inductive ClausePart (dialect : Dialect) where
  /-- The word that starts the clause. -/
  | set
  /-- A space, a comma or a parenthesis. -/
  | mark (c : Char) (h : c ∈ [' ', ',', '(', ')'])
  /-- An operator that can be written. -/
  | operator (op : Operator) (h : op.isSupported = true)
  /-- The name of a column, between the dialect's quotes. -/
  | column (name : Text)
  /-- A literal: a text or a blob between apostrophes, a number, `NULL` or a boolean. -/
  | constant (text : Text) (h : OperandText dialect text) (hname : text.head? ≠ some dialect.openQuote)
  /-- The name of a parameter whose column consists of ASCII letters, digits and underscores. -/
  | placeholder (column : Text) (ordinal : Nat) (h : column.all isNameChar = true)

namespace ClausePart

variable {dialect : Dialect}

/-- The text of a part. -/
def text : ClausePart dialect → Text
  | set => "SET".toList
  | mark c _ => [c]
  | operator op _ => op.sql
  | column name => dialect.quote name
  | constant text _ _ => text
  | placeholder target ordinal _ => dialect.parameterName target ordinal

/-- The column that a part names. -/
def column? : ClausePart dialect → Option Text
  | column name => some name
  | set | mark _ _ | operator _ _ | constant _ _ _ | placeholder _ _ _ => none

/-- The parameter that a part names. -/
def parameter? : ClausePart dialect → Option Text
  | placeholder target ordinal _ => some (dialect.parameterName target ordinal)
  | set | mark _ _ | operator _ _ | column _ | constant _ _ _ => none

/-- The pieces of the name of a parameter. -/
theorem lex_parameterName (dialect : Dialect) {column : Text} (ordinal : Nat)
    (h : column.all isNameChar = true) :
    lex dialect (dialect.parameterName column ordinal)
      = [.other dialect.marker, .word (column ++ "_P".toList ++ Text.ofNat ordinal)] := by
  have hrun : ∀ c ∈ column ++ "_P".toList ++ Text.ofNat ordinal, isWordChar c = true := by
    intro c hc
    simp only [List.mem_append] at hc
    rcases hc with (hc | hc) | hc
    · have hname : (c.isAlphanum || c == '_') = true := List.all_eq_true.mp h c hc
      simp only [isWordChar, hname, Bool.true_or]
    · exact List.all_eq_true.mp (by decide : "_P".toList.all isWordChar = true) c hc
    · simp [isWordChar, Char.isAlphanum, Text.isDigit_of_mem_ofNat hc]
  have hends : (Lexeme.word (column ++ "_P".toList ++ Text.ofNat ordinal)).EndsBefore dialect [] :=
    ⟨by simp, hrun, rfl⟩
  have hword : lex dialect (column ++ "_P".toList ++ Text.ofNat ordinal)
      = [.word (column ++ "_P".toList ++ Text.ofNat ordinal)] :=
    Lexeme.lex_text hends
  have hmarker : Lexeme.next dialect dialect.marker (column ++ "_P".toList ++ Text.ofNat ordinal)
      = (.other dialect.marker, column ++ "_P".toList ++ Text.ofNat ordinal) := by
    refine Lexeme.next_other dialect ?_ ?_ ?_ ?_
    · cases dialect <;> decide
    · cases dialect <;> decide
    · rintro ⟨hdash, -⟩
      cases dialect <;> exact absurd hdash (by decide)
    · cases dialect <;> decide
  rw [Dialect.parameterName, List.cons_append, List.cons_append, lex_cons, hmarker, hword]

/-- A mark or the character of an operator is a piece of its own, unless it starts a comment. -/
theorem next_symbol (dialect : Dialect) {c : Char} (h : c ∈ " ,()=+-*/%".toList) {rest : Text}
    (hcomment : ¬(c = '-' ∧ rest.head? = some '-')) :
    Lexeme.next dialect c rest = (.other c, rest) := by
  have hne : ∀ d, " ,()=+-*/%".toList.contains d = false → c ≠ d := by
    rintro d hd rfl
    rw [List.contains_iff_mem.mpr h] at hd
    cases hd
  have hword : (" ,()=+-*/%".toList.all fun d => !isWordChar d) = true := by decide
  exact Lexeme.next_other dialect (hne _ (by decide)) (hne _ (by cases dialect <;> decide)) hcomment
    (by simpa using List.all_eq_true.mp hword c h)

/-- A mark or the character of an operator is one piece. -/
theorem lex_symbol (dialect : Dialect) {c : Char} (h : c ∈ " ,()=+-*/%".toList) :
    lex dialect [c] = [.other c] := by
  rw [lex_cons, next_symbol dialect h (by simp), lex_nil]

/-- The marks are no operators. -/
theorem mem_symbols_of_mem_marks {c : Char} (h : c ∈ [' ', ',', '(', ')']) :
    c ∈ " ,()=+-*/%".toList ∧ c ≠ '-' := by
  have hall : ([' ', ',', '(', ')'].all fun d => " ,()=+-*/%".toList.contains d && d != '-') = true := by
    decide
  have hc := List.all_eq_true.mp hall c h
  simpa only [Bool.and_eq_true, List.contains_iff_mem, bne_iff_ne] using hc

/-- An operator that can be written is one character. -/
theorem exists_sql_eq_singleton {op : Operator} (h : op.isSupported = true) :
    ∃ c ∈ " ,()=+-*/%".toList, op.sql = [c] := by
  cases op
  case eq => exact ⟨'=', by decide, rfl⟩
  case add => exact ⟨'+', by decide, rfl⟩
  case sub => exact ⟨'-', by decide, rfl⟩
  case mul => exact ⟨'*', by decide, rfl⟩
  case div => exact ⟨'/', by decide, rfl⟩
  case mod => exact ⟨'%', by decide, rfl⟩
  all_goals cases h

/-- **Every part is cut into contained pieces**, whatever its column or its value. -/
theorem isContained_of_mem_lex (part : ClausePart dialect) :
    ∀ piece ∈ lex dialect part.text, piece.IsContained dialect := by
  cases part with
  | set =>
    have hlex : lex dialect "SET".toList = [.word "SET".toList] := by
      cases dialect <;> decide +kernel
    rw [text, hlex, List.forall_mem_singleton]
    exact ⟨trivial, by simp, by decide⟩
  | mark c h =>
    rw [text, lex_symbol dialect (mem_symbols_of_mem_marks h).1, List.forall_mem_singleton]
    exact .other dialect c
  | operator op h =>
    obtain ⟨c, hc, hsql⟩ := exists_sql_eq_singleton h
    rw [text, hsql, lex_symbol dialect hc, List.forall_mem_singleton]
    exact .other dialect c
  | column name =>
    rw [text, lex_quote, List.forall_mem_singleton]
    exact .quoted dialect name
  | constant literal h hname => exact h.isContained_of_mem_lex
  | placeholder target ordinal h =>
    rw [text, lex_parameterName dialect ordinal h, List.forall_mem_cons, List.forall_mem_singleton]
    exact ⟨.other dialect _, .word dialect (c := '_') (by simp) (by decide)⟩

/-- Whether parts make up a text, cut where lexing cuts it, and name the given columns and parameters, both in
order. -/
structure Writes (parts : List (ClausePart dialect)) (written : Text) (columns parameters : List Text) :
    Prop where
  /-- The parts one after the other are the text. -/
  flatMap_text : parts.flatMap text = written
  /-- The pieces of the parts come first in front of every separator. -/
  lex_append : ∀ after, Text.startsSeparator after = true →
    lex dialect (written ++ after) = parts.flatMap (lex dialect ·.text) ++ lex dialect after
  /-- The columns are those between quotes. -/
  filterMap_column? : parts.filterMap column? = columns
  /-- The parameters are those that are named. -/
  filterMap_parameter? : parts.filterMap parameter? = parameters

namespace Writes

variable {left right : List (ClausePart dialect)} {first second : Text}
  {columns others parameters names : List Text}

/-- No part writes nothing. -/
theorem nil : Writes ([] : List (ClausePart dialect)) [] [] [] :=
  ⟨rfl, fun _ _ => rfl, rfl, rfl⟩

/-- A single part writes its text. -/
theorem singleton (part : ClausePart dialect) :
    Writes [part] part.text part.column?.toList part.parameter?.toList := by
  refine ⟨List.flatMap_singleton _ _, ?_, ?_, ?_⟩
  · intro after hafter
    rw [List.flatMap_singleton, lex_append_of_isContained part.isContained_of_mem_lex hafter]
  · cases part <;> rfl
  · cases part <;> rfl

/-- A mark may stand in front of any text. -/
theorem mark_cons {c : Char} (h : c ∈ [' ', ',', '(', ')']) (hright : Writes right second others names) :
    Writes (.mark c h :: right) (c :: second) others names := by
  obtain ⟨hsymbol, hdash⟩ := mem_symbols_of_mem_marks h
  refine ⟨congrArg (c :: ·) hright.flatMap_text, ?_, hright.filterMap_column?,
    hright.filterMap_parameter?⟩
  intro after hafter
  rw [List.cons_append, lex_cons, next_symbol dialect hsymbol (fun hcomment => hdash hcomment.1),
    hright.lex_append after hafter, List.flatMap_cons, text, lex_symbol dialect hsymbol]
  rfl

/-- Behind a text, a separator starts another. -/
theorem append_mark (hleft : Writes left first columns parameters) {c : Char} (hc : c ∈ separators)
    (h : c ∈ [' ', ',', '(', ')']) (hright : Writes right second others names) :
    Writes (left ++ .mark c h :: right) (first ++ c :: second) (columns ++ others)
      (parameters ++ names) := by
  have hbehind := hright.mark_cons h
  refine ⟨?_, ?_, ?_, ?_⟩
  · rw [List.flatMap_append, hleft.flatMap_text, hbehind.flatMap_text]
  · intro after hafter
    have hseparator : Text.startsSeparator (c :: second ++ after) = true := List.contains_iff_mem.mpr hc
    rw [List.append_assoc, hleft.lex_append _ hseparator, hbehind.lex_append after hafter,
      List.flatMap_append, List.append_assoc]
  · rw [List.filterMap_append, hleft.filterMap_column?, hbehind.filterMap_column?]
  · rw [List.filterMap_append, hleft.filterMap_parameter?, hbehind.filterMap_parameter?]

/-- An operator stands between two texts with a space on either side. -/
theorem append_operator (hleft : Writes left first columns parameters) {op : Operator}
    (h : op.isSupported = true) (hright : Writes right second others names) :
    ∃ parts : List (ClausePart dialect),
      Writes parts (first ++ ' ' :: op.sql ++ ' ' :: second) (columns ++ others) (parameters ++ names) := by
  have hop : Writes [(.operator op h : ClausePart dialect)] op.sql [] [] := singleton _
  have hbehind := hop.append_mark (c := ' ') (by decide) (by decide) hright
  have hwhole := hleft.append_mark (c := ' ') (by decide) (by decide) hbehind
  exact ⟨_, by simpa using hwhole⟩

/-- Texts in a list have a comma and a space between them. -/
theorem append_comma (hleft : Writes left first columns parameters)
    (hright : Writes right second others names) :
    ∃ parts : List (ClausePart dialect),
      Writes parts (first ++ ", ".toList ++ second) (columns ++ others) (parameters ++ names) := by
  have hwhole := hleft.append_mark (c := ',') (by decide) (by decide)
    (hright.mark_cons (c := ' ') (by decide))
  exact ⟨_, by simpa using hwhole⟩

/-- A text may stand in parentheses. -/
theorem exists_enclose (hleft : Writes left first columns parameters) (parens : Bool) :
    ∃ parts : List (ClausePart dialect), Writes parts (Expr.enclose parens first) columns parameters := by
  cases parens with
  | false => exact ⟨left, hleft⟩
  | true =>
    have hwhole := (hleft.append_mark (c := ')') (by decide) (by decide) nil).mark_cons
      (c := '(') (by decide)
    rw [List.append_nil, List.append_nil] at hwhole
    exact ⟨_, hwhole⟩

end Writes

end ClausePart

/-! ## What an assignment writes -/

/-- The columns of an expression, in order. -/
def Expr.columns : Expr → List Text
  | column name => [name]
  | captured _ _ | constant _ => []
  | converted operand => operand.columns
  | binary _ left right => left.columns ++ right.columns

/-- The columns of an assignment, in order: that which is assigned, and those of its new value. -/
def Assignment.Entry.columns (entry : Assignment.Entry) : List Text := entry.column :: entry.value.columns

/-- Values have no columns. -/
theorem Expr.columns_of_isLiteral {expr : Expr} (h : expr.isLiteral = true) : expr.columns = [] := by
  induction expr with
  | captured name value => rfl
  | constant value => rfl
  | column name => cases h
  | binary op left right => cases h
  | converted operand ih => exact ih h

/-- Literals are constants. -/
theorem Rendered.exists_writes {dialect : Dialect} {value : Value} {text : Text}
    (h : (Rendered.literal value).toSql dialect = .ok text) :
    ∃ parts : List (ClausePart dialect), ClausePart.Writes parts text [] [] := by
  have hname : text.head? ≠ some dialect.openQuote := by
    cases literalText_of_toSql h with
    | bare hbare =>
      intro hhead
      have hquote := hbare _ (List.mem_of_head? hhead)
      cases dialect <;> exact absurd hquote (by decide)
    | text content => cases dialect <;> simp [Value.textLiteral, Dialect.openQuote]
    | blob content => cases dialect <;> simp [Dialect.openQuote]
  exact ⟨[.constant text (operandText_of_toSql h) hname], .singleton _⟩

/-- **An expression writes its columns and nothing else that has a name.** -/
theorem Expr.exists_writes {dialect : Dialect} {expr : Expr} {text : Text}
    (h : expr.sql dialect = .ok text) :
    ∃ parts : List (ClausePart dialect), ClausePart.Writes parts text expr.columns [] := by
  induction expr generalizing text with
  | captured name value => exact Rendered.exists_writes h
  | constant value => exact Rendered.exists_writes h
  | column name =>
    cases h
    exact ⟨[.column name], .singleton _⟩
  | converted operand ih => exact ih h
  | binary op left right ihLeft ihRight =>
    obtain ⟨hop, leftText, rightText, hleft, hright, rfl⟩ := sql_binary_eq_ok_iff.mp h
    obtain ⟨_, hleftParts⟩ := ihLeft hleft
    obtain ⟨_, hrightParts⟩ := ihRight hright
    obtain ⟨_, hleftParts⟩ := hleftParts.exists_enclose (needsParens op false left)
    obtain ⟨_, hrightParts⟩ := hrightParts.exists_enclose (needsParens op true right)
    have hwhole := hleftParts.append_operator hop hrightParts
    rwa [List.append_nil] at hwhole

namespace Assignment

/-- A column is set to a text. -/
theorem exists_writes_fragment {dialect : Dialect} (column : Text) {parts : List (ClausePart dialect)}
    {value : Text} {columns parameters : List Text}
    (h : ClausePart.Writes parts value columns parameters) :
    ∃ all : List (ClausePart dialect),
      ClausePart.Writes all (dialect.quote column ++ " = ".toList ++ value) (column :: columns)
        parameters := by
  have htarget : ClausePart.Writes [(.column column : ClausePart dialect)] (dialect.quote column)
      [column] [] := .singleton _
  have heq : Operator.eq.isSupported = true := rfl
  obtain ⟨all, hall⟩ := htarget.append_operator heq h
  have htext : dialect.quote column ++ " = ".toList ++ value
      = dialect.quote column ++ ' ' :: Operator.eq.sql ++ ' ' :: value := by
    rw [List.append_assoc, List.append_assoc]
    rfl
  exact ⟨all, by rw [htext]; exact hall⟩

/-- The fragments of an assignment write its columns and its parameters, if the columns that are assigned
values consist of name characters. -/
theorem exists_writes_joinWith {dialect : Dialect} {ordinal : Nat} {entries : Assignment}
    {fragments : List SetFragment} (h : fragmentsFrom dialect ordinal entries = .ok fragments)
    (hcolumns : ∀ entry ∈ entries, entry.value.isLiteral = true →
      entry.column.all isNameChar = true) :
    ∃ parts : List (ClausePart dialect),
      ClausePart.Writes parts (Text.joinWith ", ".toList (fragments.map (·.text dialect)))
        (entries.flatMap Entry.columns) ((fragments.filterMap (·.parameter? dialect)).map (·.name)) := by
  induction entries generalizing ordinal fragments with
  | nil =>
    cases h
    exact ⟨[], .nil⟩
  | cons entry rest ih =>
    rw [List.forall_mem_cons] at hcolumns
    -- the first fragment by itself, and the others by the induction
    obtain ⟨fragment, more, position, hmore, rfl, parts, hfirst⟩ :
        ∃ fragment more position, fragmentsFrom dialect position rest = .ok more
          ∧ fragments = fragment :: more
          ∧ ∃ parts : List (ClausePart dialect), ClausePart.Writes parts (fragment.text dialect)
            entry.columns ((fragment.parameter? dialect).map (·.name)).toList := by
      rcases fragmentsFrom_cons h with
        ⟨hliteral, value, more, hmore, rfl⟩ | ⟨-, text, more, htext, hmore, rfl⟩
      · have hname : ClausePart.Writes
            [(.placeholder entry.column ordinal (hcolumns.1 hliteral) : ClausePart dialect)]
            (dialect.parameterName entry.column ordinal) []
            [dialect.parameterName entry.column ordinal] := .singleton _
        refine ⟨_, more, _, hmore, rfl, ?_⟩
        rw [Entry.columns, Expr.columns_of_isLiteral hliteral]
        exact exists_writes_fragment entry.column hname
      · obtain ⟨parts, hparts⟩ := Expr.exists_writes htext
        exact ⟨_, more, _, hmore, rfl, exists_writes_fragment entry.column hparts⟩
    obtain ⟨others, hothers⟩ := ih hmore hcolumns.2
    have hnames : ((fragment :: more).filterMap (·.parameter? dialect)).map (·.name)
        = ((fragment.parameter? dialect).map (·.name)).toList
          ++ (more.filterMap (·.parameter? dialect)).map (·.name) := by
      cases fragment <;> rfl
    rw [hnames, List.flatMap_cons]
    cases more with
    | nil =>
      -- no assignment is left without a fragment
      obtain rfl := eq_nil_of_fragmentsFrom hmore
      rw [List.flatMap_nil, List.filterMap_nil, List.map_nil, List.append_nil, List.append_nil,
        List.map_singleton, Text.joinWith_singleton]
      exact ⟨parts, hfirst⟩
    | cons second more =>
      rw [List.map_cons, List.map_cons, Text.joinWith_cons_cons]
      exact hfirst.append_comma hothers

end Assignment

/-! ## Contained clauses -/

/-- Whether nothing gets out of a SET clause: it consists of closed parts, the columns in it are those of the
assignment, between quotes, and the parameters in it are its own. -/
structure SetClause.IsContained (dialect : Dialect) (entries : Assignment) (clause : SetClause) : Prop where
  /-- The clause holds no comment. -/
  no_comment : ∀ line, .comment line ∉ lex dialect clause.text
  /-- The clause holds no keyword of a query. -/
  no_keyword : ∀ keyword, mentions keyword (lex dialect clause.text) = false
  /-- The clause consists of parts, cut where lexing cuts it. -/
  exists_parts : ∃ parts : List (ClausePart dialect),
    parts.flatMap ClausePart.text = clause.text
      ∧ lex dialect clause.text = parts.flatMap (lex dialect ·.text)
      ∧ parts.filterMap ClausePart.column? = entries.flatMap Assignment.Entry.columns
      ∧ parts.filterMap ClausePart.parameter? = clause.parameters.map (·.name)

/-- What parts write is contained. -/
theorem ClausePart.Writes.isContained {dialect : Dialect} {entries : Assignment} {clause : SetClause}
    {parts : List (ClausePart dialect)}
    (h : ClausePart.Writes parts clause.text (entries.flatMap Assignment.Entry.columns)
      (clause.parameters.map (·.name))) : clause.IsContained dialect entries := by
  have hlex := h.lex_append [] rfl
  rw [List.append_nil, lex_nil, List.append_nil] at hlex
  have hpieces : ∀ piece ∈ lex dialect clause.text, piece.IsContained dialect := by
    intro piece hpiece
    rw [hlex] at hpiece
    obtain ⟨part, -, hpart⟩ := List.mem_flatMap.mp hpiece
    exact part.isContained_of_mem_lex piece hpart
  refine ⟨?_, ?_, parts, h.flatMap_text, hlex, h.filterMap_column?, h.filterMap_parameter?⟩
  · intro line hline
    exact (hpieces _ hline).not_comment line rfl
  · intro keyword
    rw [mentions, List.any_eq_false]
    intro piece hpiece
    rw [(hpieces piece hpiece).not_keyword keyword]
    exact Bool.false_ne_true

namespace Assignment

/-- **Nothing gets out of a compiled SET clause** exactly if the columns that are assigned values consist of
ASCII letters, digits and underscores.  All other columns, and all values, may be anything. -/
theorem isContained_compile_iff {dialect : Dialect} {ignored : IgnoreSet} {entries : Assignment}
    {clause : SetClause} (h : entries.compile dialect ignored = .ok clause) :
    clause.IsContained dialect (entries.keep ignored)
      ↔ ∀ entry ∈ entries.keep ignored, entry.value.isLiteral = true →
          entry.column.all isNameChar = true := by
  obtain ⟨fragments, hfragments, hne, rfl⟩ := exists_fragmentsFrom_of_compile h
  constructor
  · rintro ⟨-, -, parts, -, -, -, hparameters⟩ entry hentry hliteral
    -- the parameter of the column is a part, and the column of a part consists of name characters
    obtain ⟨position, hname⟩ := exists_parameterName_mem hfragments hentry hliteral
    rw [← hparameters] at hname
    obtain ⟨part, -, hpart⟩ := List.mem_filterMap.mp hname
    cases part with
    | placeholder target ordinal hcolumn =>
      have hsame : dialect.parameterName target ordinal = dialect.parameterName entry.column position :=
        Option.some_inj.mp hpart
      obtain rfl := Dialect.parameterName_injective hsame
      have htarget : target = entry.column := by
        simpa [Dialect.parameterName] using hsame
      rwa [← htarget]
    | set | mark | operator | column | constant => cases hpart
  · intro hcolumns
    obtain ⟨parts, hparts⟩ := exists_writes_joinWith hfragments hcolumns
    have hset : ClausePart.Writes [(.set : ClausePart dialect)] "SET".toList [] [] := .singleton _
    have hwhole := hset.append_mark (c := ' ') (by decide) (by decide) hparts
    exact hwhole.isContained

/-- An assignment whose columns and values try to get out of the statement. -/
def hostileOrders : Assignment :=
  [⟨"Note] = NULL -- FROM".toList,
      .binary .add (.column "x'; DROP TABLE [Orders".toList) (.constant (.text "'; --".toList))⟩,
    ⟨"Owner_2".toList, .captured "owner".toList (.text "' WHERE 1 = 1 --".toList)⟩]

/-- Nothing gets out of the clause of `hostileOrders`. -/
theorem isContained_hostileOrders :
    ∃ clause, hostileOrders.compile .sqlServer .empty = .ok clause
      ∧ clause.text
        = "SET [Note]] = NULL -- FROM] = [x'; DROP TABLE [Orders] + '''; --', [Owner_2] = @Owner_2_P0".toList
      ∧ clause.IsContained .sqlServer (hostileOrders.keep .empty) := by
  refine ⟨_, rfl, rfl, ?_⟩
  have hcolumns : ∀ entry ∈ hostileOrders.keep .empty, entry.value.isLiteral = true →
      entry.column.all isNameChar = true := by
    decide
  exact (isContained_compile_iff rfl).mpr hcolumns

/-- A column that is assigned a value gets out of its quotes in the name of the parameter: the clause ends in
a condition of its own and in a comment. -/
theorem condition_in_parameter_name :
    ∃ clause,
      compile .sqlServer .empty [⟨"Id WHERE 1=1 --".toList, .constant (.int 5)⟩] = .ok clause
      ∧ clause.text = "SET [Id WHERE 1=1 --] = @Id WHERE 1=1 --_P0".toList
      ∧ mentions .WHERE (lex .sqlServer clause.text) = true
      ∧ .comment "--_P0".toList ∈ lex .sqlServer clause.text
      ∧ ¬clause.IsContained .sqlServer
          (keep .empty [⟨"Id WHERE 1=1 --".toList, .constant (.int 5)⟩]) := by
  refine ⟨_, rfl, rfl, ?_⟩
  have hwhere : mentions .WHERE (lex .sqlServer "SET [Id WHERE 1=1 --] = @Id WHERE 1=1 --_P0".toList)
      = true := by
    decide +kernel
  refine ⟨hwhere, by decide +kernel, ?_⟩
  intro h
  have hnone : mentions .WHERE (lex .sqlServer "SET [Id WHERE 1=1 --] = @Id WHERE 1=1 --_P0".toList)
      = false :=
    h.no_keyword .WHERE
  rw [hwhere] at hnone
  cases hnone

end Assignment

end BulkDml
