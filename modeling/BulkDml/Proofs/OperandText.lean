import BulkDml.Proofs.TermReader

/-! # The texts of operands

An operand is a quoted name, a literal between apostrophes, a blob, a signed number, or one of the words for
the absent value and the booleans.  Whatever stands behind it, a reader takes it off a text as a whole, if
only that starts with a space, a closing parenthesis or an operator.

* `OperandText` — the texts of operands in a dialect;
* `Rendered.operandText_of_toSql` — every literal that is written is an operand;
* `IsBareRun`, `IsTaken` — a run, and an operand, that is taken off a text whatever mark stands behind it;
* `OperandText.exists_isTaken` — every operand is taken off a text as a whole.
-/

namespace BulkDml

/-- The upper-case hexadecimal digits. -/
def hexDigits : List Char := "0123456789ABCDEF".toList

/-- The texts of operands. -/
inductive OperandText (dialect : Dialect) : Text → Prop
  /-- A name between the dialect's quotes, with every closing quote inside it doubled. -/
  | name (name : Text) : OperandText dialect
    (dialect.openQuote :: name.doubling dialect.closeQuote ++ [dialect.closeQuote])
  /-- A text between apostrophes, with every apostrophe inside it doubled. -/
  | text (content : Text) : OperandText dialect ('\'' :: content.doubling '\'' ++ ['\''])
  /-- Hexadecimal digits between apostrophes behind an `X`. -/
  | blob {digits : Text} (h : ∀ c ∈ digits, c ∈ hexDigits) :
    OperandText dialect ('X' :: '\'' :: digits ++ ['\''])
  /-- A number: digits, with a minus sign, a fraction and an exponent or without. -/
  | number {numeral : Numeral} (hdigits : numeral.IsDigits) (hne : numeral.whole ≠ []) :
    OperandText dialect (numeral.text false)
  /-- The word for the absent value. -/
  | null : OperandText dialect "NULL".toList
  /-- A boolean, as the dialect spells it. -/
  | bool (value : Bool) : OperandText dialect (dialect.booleanLiteral value)

/-! ## Numbers start with a digit -/

/-- Zeros write nothing but the number zero. -/
theorem Text.toNat_replicate_zero (n : Nat) : Text.toNat (List.replicate n '0') = 0 := by
  induction n with
  | zero => rfl
  | succ n ih => exact ih

namespace BinaryFormat

variable (format : BinaryFormat)

/-- A positive finite magnitude has a positive numerator. -/
theorem numerator_ne_zero {code : Nat} (h : code ≠ 0) : format.numerator code ≠ 0 := by
  have hspan : 0 < format.span := by
    rw [span, Nat.shiftLeft_eq, Nat.one_mul]
    exact Nat.two_pow_pos _
  have hsignificand : format.significand code ≠ 0 := by
    unfold significand
    split
    · exact h
    · omega
  rw [numerator, Nat.shiftLeft_eq]
  exact Nat.mul_ne_zero hsignificand (Nat.two_pow_pos _).ne'

/-- The shortest decimal of a positive magnitude is positive. -/
theorem digits_shortest_ne_zero (tie : Tie) {code : Nat} (h : code ≠ 0) :
    (format.shortest tie code).digits ≠ 0 := by
  rw [shortest]
  cases hfound : (List.range 17).findSome? fun (finer : Nat) =>
      format.shortestOn tie code
        (floorLog10 (format.numerator code) (format.denominator code) - finer) with
  | none =>
    -- the exact decimal has the digits of the numerator times a power of five
    rw [Option.getD_none]
    exact Nat.mul_ne_zero (format.numerator_ne_zero h) (Nat.pow_pos (by decide)).ne'
  | some decimal =>
    -- a decimal without digits reads back to zero
    obtain ⟨finer, -, hon⟩ := List.exists_of_findSome?_eq_some hfound
    have hback := format.readsBack_of_shortestOn hon
    rw [Option.getD_some]
    intro hzero
    rw [readsBack, hzero, nearestDecimal, if_pos rfl, beq_iff_eq] at hback
    exact h hback.symm

end BinaryFormat

namespace FloatLayout

/-- The digits of a positive number do not all drop out. -/
theorem dropTrailingZeros_ofNat_ne_nil {n : Nat} (h : n ≠ 0) :
    dropTrailingZeros (Text.ofNat n) ≠ [] := by
  intro hnil
  rw [dropTrailingZeros, List.reverse_eq_nil_iff, List.dropWhile_eq_nil_iff] at hnil
  -- nothing but zeros would write the number zero
  have hzeros : Text.ofNat n = List.replicate (Text.ofNat n).length '0' := by
    refine List.eq_replicate_iff.mpr ⟨rfl, ?_⟩
    intro c hc
    simpa using hnil c (List.mem_reverse.mpr hc)
  have hvalue := Text.toNat_ofNat n
  rw [hzeros, Text.toNat_replicate_zero] at hvalue
  exact h hvalue.symm

/-- Digits that are placed around a point start in front of it. -/
theorem whole_place_ne_nil (layout : FloatLayout) (negative : Bool) {digits : Text} (leading : Int)
    (h : digits ≠ []) : (layout.place negative digits leading).whole ≠ [] := by
  have htake : ∀ n : Nat, digits.take (n + 1) ≠ [] := by
    intro n hnil
    rw [List.take_eq_nil_iff] at hnil
    exact hnil.elim (Nat.succ_ne_zero n) h
  unfold place
  split
  · split
    · exact List.cons_ne_nil _ _
    · dsimp only
      split
      · exact List.append_ne_nil_of_left_ne_nil h _
      · exact htake _
  · exact htake 0

/-- The numeral of a number starts with a digit. -/
theorem whole_numeral_ne_nil (layout : FloatLayout) (x : Binary64) : (layout.numeral x).whole ≠ [] := by
  unfold numeral
  split
  · exact List.cons_ne_nil _ _
  · next hcode =>
    refine whole_place_ne_nil layout _ _ ?_
    exact dropTrailingZeros_ofNat_ne_nil (BinaryFormat.binary64.digits_shortest_ne_zero _ hcode)

end FloatLayout

/-! ## Literals are operands -/

/-- An integer is written as an operand. -/
theorem OperandText.int (dialect : Dialect) (n : Int) : OperandText dialect (Text.ofInt n) := by
  rw [← Numeral.text_ofInt false n]
  have hdigits : ∀ (negative : Bool) (n : Nat), (⟨negative, Text.ofNat n, [], none⟩ : Numeral).IsDigits :=
    fun _ _ => ⟨fun _ => Text.isDigit_of_mem_ofNat, by simp⟩
  cases n with
  | ofNat n => exact .number (hdigits false n) (Text.ofNat_ne_nil n)
  | negSucc n => exact .number (hdigits true (n + 1)) (Text.ofNat_ne_nil (n + 1))

/-- A finite number is written as an operand. -/
theorem OperandText.float (dialect : Dialect) {x : Binary64} (h : x.isFinite = true) :
    OperandText dialect x.text := by
  have hcode : x.code < BinaryFormat.binary64.infinity := by simpa [Binary64.isFinite] using h
  have hnan : x.isNaN = false := by
    rw [Binary64.isNaN, decide_eq_false_iff_not]
    omega
  have hinfinite : x.isInfinite = false := by
    rw [Binary64.isInfinite, beq_eq_false_iff_ne]
    omega
  rw [Binary64.text, hnan, hinfinite]
  exact .number (FloatLayout.isDigits_numeral _ x) (FloatLayout.whole_numeral_ne_nil _ x)

/-- Bytes are written with hexadecimal digits. -/
theorem mem_hexDigits_of_mem_hexByte {c : Char} {byte : UInt8} (h : c ∈ Value.hexByte byte) :
    c ∈ hexDigits := by
  have hdigit : ∀ n < 16, Value.hexDigit n ∈ hexDigits := by decide
  have hlt := byte.toNat_lt
  simp only [Value.hexByte, List.mem_cons, List.not_mem_nil, or_false] at h
  rcases h with rfl | rfl
  · exact hdigit _ (by omega)
  · exact hdigit _ (by omega)

/-- A blob is written as an operand. -/
theorem OperandText.bytes (dialect : Dialect) (bytes : List UInt8) :
    OperandText dialect (Value.blob bytes).literal := by
  refine .blob ?_
  intro c hc
  obtain ⟨byte, -, hbyte⟩ := List.mem_flatMap.mp hc
  exact mem_hexDigits_of_mem_hexByte hbyte

/-- Every literal that is written is an operand. -/
theorem Rendered.operandText_of_toSql {dialect : Dialect} {value : Value} {text : Text}
    (h : (Rendered.literal value).toSql dialect = .ok text) : OperandText dialect text := by
  cases value with
  | null =>
    cases h
    exact .null
  | bool value =>
    cases h
    exact .bool value
  | int n =>
    cases h
    exact .int dialect n.toInt
  | float x =>
    simp only [Rendered.toSql] at h
    split at h
    · next hfinite =>
      cases h
      exact .float dialect hfinite
    · cases h
  | text content =>
    cases h
    exact .text content
  | blob bytes =>
    cases h
    exact .bytes dialect bytes

/-! ## Where an operand ends -/

/-- The characters that end an operand: a space, a closing parenthesis and the operators. -/
def marks : List Char := [' ', ')', '=', '+', '-', '*', '/', '%']

/-- Whether a text is empty or starts with a mark. -/
def Text.startsMark (text : Text) : Bool := text.head?.all (marks.contains ·)

/-- A character that is no mark does not start such a text. -/
theorem Text.head?_ne_of_startsMark {c : Char} {text : Text} (h : text.startsMark = true)
    (hc : c ∉ marks) : text.head? ≠ some c := by
  intro hhead
  rw [startsMark, hhead, Option.all_some, List.contains_iff_mem] at h
  exact hc h

/-- Whether a text, behind a character, is taken off as a bare run in front of every mark. -/
def IsBareRun (previous : Char) (text : Text) : Prop :=
  ∀ rest, Text.startsMark rest = true → spanBare previous (text ++ rest) = (text, rest)

namespace IsBareRun

/-- A bare run ends in front of a mark, even in front of a minus sign if that is not in an exponent. -/
theorem nil {previous : Char} (h : previous ≠ 'e') : IsBareRun previous [] := by
  intro rest hrest
  cases rest with
  | nil => rfl
  | cons c tail =>
    have hmem : c ∈ marks := List.contains_iff_mem.mp hrest
    have hmarks : (marks.all fun mark => !(mark.isAlphanum || mark == '.')) = true := rfl
    have hmark : (c.isAlphanum || c == '.') = false := by
      simpa using List.all_eq_true.mp hmarks c hmem
    have hstop : (c.isAlphanum || c == '.' || (c == '-' && previous == 'e')) = false := by
      rw [hmark, beq_eq_false_iff_ne.mpr h, Bool.and_false, Bool.or_false]
    rw [List.nil_append, spanBare, hstop]
    rfl

/-- A letter, a digit or a point in front of a bare run makes a bare run. -/
theorem cons {c : Char} {tail : Text} (hc : (c.isAlphanum || c == '.') = true) (h : IsBareRun c tail)
    (previous : Char) : IsBareRun previous (c :: tail) := by
  intro rest hrest
  rw [List.cons_append, spanBare, hc, Bool.true_or, if_pos rfl, h rest hrest]

/-- A minus sign goes on with an exponent. -/
theorem minus {tail : Text} (h : IsBareRun '-' tail) : IsBareRun 'e' ('-' :: tail) := by
  intro rest hrest
  rw [List.cons_append, spanBare, if_pos (by decide), h rest hrest]

/-- Letters and digits, none of which starts an exponent, make a bare run with one behind them. -/
theorem append {chars tail : Text} (hchars : ∀ c ∈ chars, c.isAlphanum = true ∧ c ≠ 'e')
    (htail : ∀ last, last ≠ 'e' → IsBareRun last tail) {previous : Char} (hprevious : previous ≠ 'e') :
    IsBareRun previous (chars ++ tail) := by
  induction chars generalizing previous with
  | nil => exact htail previous hprevious
  | cons c rest ih =>
    rw [List.forall_mem_cons] at hchars
    have hc : (c.isAlphanum || c == '.') = true := by rw [hchars.1.1, Bool.true_or]
    exact cons hc (ih hchars.2 hchars.1.2) previous

/-- Letters and digits, none of which starts an exponent, are a bare run. -/
theorem word {chars : Text} (hchars : ∀ c ∈ chars, c.isAlphanum = true ∧ c ≠ 'e') {previous : Char}
    (hprevious : previous ≠ 'e') : IsBareRun previous chars := by
  rw [← List.append_nil chars]
  exact append hchars (fun _ => nil) hprevious

end IsBareRun

/-- A digit is a letter or digit, and starts no exponent. -/
theorem isAlphanum_of_isDigit {c : Char} (h : c.isDigit = true) : c.isAlphanum = true ∧ c ≠ 'e' := by
  refine ⟨by simp [Char.isAlphanum, h], ?_⟩
  rintro rfl
  cases h

/-- The decimal form of an integer goes on with an exponent. -/
theorem isBareRun_ofInt (n : Int) : IsBareRun 'e' (Text.ofInt n) := by
  cases n with
  | negSucc n =>
    refine .minus (.word ?_ (by decide))
    exact fun c hc => isAlphanum_of_isDigit (Text.isDigit_of_mem_ofNat hc)
  | ofNat n =>
    obtain ⟨c, tail, hdigits⟩ := List.exists_cons_of_ne_nil (Text.ofNat_ne_nil n)
    have hall : ∀ d ∈ c :: tail, d.isAlphanum = true ∧ d ≠ 'e' := by
      intro d hd
      rw [← hdigits] at hd
      exact isAlphanum_of_isDigit (Text.isDigit_of_mem_ofNat hd)
    rw [List.forall_mem_cons] at hall
    rw [Text.ofInt, hdigits]
    exact .cons (by rw [hall.1.1]; rfl) (.word hall.2 hall.1.2) _

/-- What stands behind the sign of a numeral is a bare run. -/
theorem Numeral.IsDigits.isBareRun {numeral : Numeral} (h : numeral.IsDigits) {digits : Text}
    (hdigits : ∀ c ∈ digits, c.isDigit = true) {previous : Char} (hprevious : previous ≠ 'e') :
    IsBareRun previous
      (digits ++ ((if numeral.fraction.isEmpty then [] else '.' :: numeral.fraction)
        ++ (match numeral.exponent with
          | none => []
          | some exponent => exponentText false exponent))) := by
  have hexponent : ∀ last, last ≠ 'e' → IsBareRun last
      (match numeral.exponent with
        | none => []
        | some exponent => exponentText false exponent) := by
    intro last hlast
    cases numeral.exponent with
    | none => exact .nil hlast
    | some exponent => exact .cons (by decide) (isBareRun_ofInt exponent) last
  refine .append (fun c hc => isAlphanum_of_isDigit (hdigits c hc)) ?_ hprevious
  intro last hlast
  cases numeral.fraction.isEmpty with
  | true => exact hexponent last hlast
  | false =>
    refine .cons (by decide) ?_ last
    exact .append (fun c hc => isAlphanum_of_isDigit (h.fraction c hc)) hexponent (by decide)

/-! ## Operands are taken off as a whole -/

/-- Whether a text is taken off as one operand in front of every mark. -/
structure IsTaken (dialect : Dialect) (c : Char) (tail : Text) : Prop where
  /-- It does not start with a space. -/
  ne_space : c ≠ ' '
  /-- It does not start with an opening parenthesis. -/
  ne_opening : c ≠ '('
  /-- It is taken off as a whole. -/
  next_append : ∀ rest, Text.startsMark rest = true →
    nextOperand? dialect c (tail ++ rest) = some (c :: tail, rest)

namespace IsTaken

variable {dialect : Dialect}

/-- A quoted name is taken off as a whole. -/
theorem quote (dialect : Dialect) (name : Text) :
    IsTaken dialect dialect.openQuote
      (name.doubling dialect.closeQuote ++ [dialect.closeQuote]) := by
  refine ⟨by cases dialect <;> decide, by cases dialect <;> decide, ?_⟩
  intro rest hrest
  have hclose : rest.head? ≠ some dialect.closeQuote :=
    Text.head?_ne_of_startsMark hrest (by cases dialect <;> decide)
  rw [nextOperand?, if_pos rfl, List.append_assoc]
  simp only [List.cons_append, List.nil_append, spanQuoted_doubling _ _ _ hclose]

/-- A text between apostrophes is taken off as a whole. -/
theorem textLiteral (dialect : Dialect) (content : Text) :
    IsTaken dialect '\'' (content.doubling '\'' ++ ['\'']) := by
  refine ⟨by decide, by decide, ?_⟩
  intro rest hrest
  have hclose : rest.head? ≠ some '\'' := Text.head?_ne_of_startsMark hrest (by decide)
  rw [nextOperand?, if_neg (by cases dialect <;> decide), if_pos rfl, List.append_assoc]
  simp only [List.cons_append, List.nil_append, spanQuoted_doubling _ _ _ hclose]

/-- A text between apostrophes is taken off together with an `X` in front of it. -/
theorem blob (dialect : Dialect) (content : Text) : IsTaken dialect 'X' (Value.textLiteral content) := by
  refine ⟨by decide, by decide, ?_⟩
  intro rest hrest
  have hclose : rest.head? ≠ some '\'' := Text.head?_ne_of_startsMark hrest (by decide)
  rw [nextOperand?, if_neg (by cases dialect <;> decide), if_neg (by decide), if_pos ⟨rfl, rfl⟩,
    Value.textLiteral]
  simp only [List.cons_append, List.append_assoc, List.nil_append, List.tail_cons,
    spanQuoted_doubling _ _ _ hclose]

/-- A bare run is taken off as a whole with a letter, a digit or a minus sign in front. -/
theorem bare (dialect : Dialect) {c : Char} {tail : Text} (hc : (c.isAlphanum || c == '-') = true)
    (hblob : c ≠ 'X') (htail : IsBareRun c tail) : IsTaken dialect c tail := by
  have hne : ∀ d, (d.isAlphanum || d == '-') = false → c ≠ d := by
    rintro d hd rfl
    rw [hc] at hd
    cases hd
  have hopen : c ≠ dialect.openQuote := hne _ (by cases dialect <;> decide)
  refine ⟨hne ' ' (by decide), hne '(' (by decide), ?_⟩
  intro rest hrest
  simp only [nextOperand?, if_neg hopen, if_neg (hne '\'' (by decide)), hblob, false_and, if_false, hc,
    if_true, htail rest hrest]

end IsTaken

/-- A word of letters and digits is taken off as a whole. -/
theorem exists_isTaken_of_word (dialect : Dialect) {word : Text} (hne : word ≠ [])
    (hword : ∀ c ∈ word, c.isAlphanum = true ∧ c ≠ 'e') (hblob : 'X' ∉ word) :
    ∃ c tail, word = c :: tail ∧ IsTaken dialect c tail := by
  obtain ⟨c, tail, rfl⟩ := List.exists_cons_of_ne_nil hne
  rw [List.forall_mem_cons] at hword
  have hc : (c.isAlphanum || c == '-') = true := by rw [hword.1.1, Bool.true_or]
  have hfirst : c ≠ 'X' := by
    rintro rfl
    exact hblob List.mem_cons_self
  exact ⟨c, tail, rfl, .bare dialect hc hfirst (.word hword.2 hword.1.2)⟩

/-- A number is taken off as a whole. -/
theorem Numeral.IsDigits.exists_isTaken (dialect : Dialect) {numeral : Numeral} (h : numeral.IsDigits)
    (hne : numeral.whole ≠ []) :
    ∃ c tail, numeral.text false = c :: tail ∧ IsTaken dialect c tail := by
  rw [text, List.append_assoc, List.append_assoc]
  cases numeral.negative with
  | true => exact ⟨'-', _, rfl, .bare dialect rfl (by decide) (h.isBareRun h.whole (by decide))⟩
  | false =>
    -- without a sign, the first digit is in front
    have hwhole := h.whole
    obtain ⟨d, more, hdigits⟩ := List.exists_cons_of_ne_nil hne
    rw [hdigits, List.forall_mem_cons] at hwhole
    obtain ⟨halphanum, hexponent⟩ := isAlphanum_of_isDigit hwhole.1
    have hblob : d ≠ 'X' := by
      rintro rfl
      cases hwhole.1
    have hd : (d.isAlphanum || d == '-') = true := by rw [halphanum, Bool.true_or]
    rw [hdigits]
    exact ⟨d, _, rfl, .bare dialect hd hblob (h.isBareRun hwhole.2 hexponent)⟩

/-- **Every operand is taken off a text as a whole**, whatever mark stands behind it. -/
theorem OperandText.exists_isTaken {dialect : Dialect} {text : Text} (h : OperandText dialect text) :
    ∃ c tail, text = c :: tail ∧ IsTaken dialect c tail := by
  have hword : ∀ word : Text, word ≠ [] →
      (word.all fun c => c.isAlphanum && c != 'e' && c != 'X') = true →
        ∃ c tail, word = c :: tail ∧ IsTaken dialect c tail := by
    intro word hne hall
    simp only [List.all_eq_true, Bool.and_eq_true, bne_iff_ne, ne_eq] at hall
    refine exists_isTaken_of_word dialect hne (fun c hc => (hall c hc).1) ?_
    intro hblob
    exact (hall 'X' hblob).2 rfl
  cases h with
  | name name => exact ⟨_, _, rfl, .quote dialect name⟩
  | text content => exact ⟨_, _, rfl, .textLiteral dialect content⟩
  | @blob digits hdigits =>
    -- no apostrophe is among the digits that would have to be doubled
    have happostrophe : '\'' ∉ digits := fun hmem => absurd (hdigits _ hmem) (by decide)
    have hblob := IsTaken.blob dialect digits
    rw [Value.textLiteral, Text.doubling_eq_self happostrophe] at hblob
    exact ⟨_, _, rfl, hblob⟩
  | number hdigits hne => exact hdigits.exists_isTaken dialect hne
  | null => exact hword _ (by decide) (by decide)
  | bool value =>
    refine hword _ ?_ ?_
    · cases dialect <;> cases value <;> decide
    · cases dialect <;> cases value <;> decide

end BulkDml
