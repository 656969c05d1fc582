import BulkDml.Proofs.ArithmeticReading
import BulkDml.Proofs.FloatNumeral
import BulkDml.Proofs.JsonScalars
import BulkDml.Proofs.QuotedRuns

/-! # Reading literals

One reader gives back the value of every literal.  How a literal starts says what it is the literal of: words and
quotes are told apart by their first characters, and numbers, which start with a digit or a minus sign, by their
point or exponent.  All words for what is no number are read as one such value, since there is one word for them.

* `Value.bytes?`, `Value.ofNumeral?`, `Value.ofLiteral?` — the reader, built on the content of quoted runs;
* `Binary64.ofText?_text` — the text of a number is read as the number;
* `Value.ofLiteral?_literal` — the literal of a value is read as the value;
* `Value.literal_law` — literals are read back, and so no two values share one.
-/

namespace BulkDml

/-! ## The reader -/

namespace Value

/-- The bytes that pairs of upper-case hexadecimal digits write. -/
def bytes? : Text → Option (List UInt8)
  | [] => some []
  | [_] => none
  | high :: low :: rest => do
    let high ← hexDigits.idxOf? high
    let low ← hexDigits.idxOf? low
    let bytes ← bytes? rest
    return UInt8.ofNat (16 * high + low) :: bytes

/-- The number that a text writes: the integer of 64 bits, or the floating-point number that is nearest. -/
def ofNumeral? (text : Text) : Option Value :=
  match Text.toInt? text with
  | some n => if (Int64.ofInt n).toInt = n then some (int (Int64.ofInt n)) else none
  | none => (Binary64.ofText? text).map float

/-- The value of a literal. -/
def ofLiteral? : Text → Option Value
  | '\'' :: rest => (Text.unquote? '\'' '\'' ('\'' :: rest)).map text
  | 'X' :: run => ((Text.unquote? '\'' '\'' run).bind bytes?).map blob
  | literal =>
    if literal = "NULL".toList then some null
    else if literal = "TRUE".toList then some (bool true)
    else if literal = "FALSE".toList then some (bool false)
    else ofNumeral? literal

/-- Whether the value is a floating-point number that is no number. -/
def isNaN : Value → Bool
  | float x => x.isNaN
  | _ => false

/-! ## Bytes -/

/-- A digit stands at its own value among the digits. -/
theorem idxOf?_hexDigit {n : Nat} (h : n < 16) : hexDigits.idxOf? (hexDigit n) = some n := by
  decide +revert

/-- Bytes are read back from their digits. -/
theorem bytes?_flatMap_hexByte (bytes : List UInt8) : bytes? (bytes.flatMap hexByte) = some bytes := by
  induction bytes with
  | nil => rfl
  | cons byte rest ih =>
    have hlt := byte.toNat_lt
    have hhigh : hexDigits.idxOf? (hexDigit (byte.toNat / 16)) = some (byte.toNat / 16) :=
      idxOf?_hexDigit (by omega)
    have hlow : hexDigits.idxOf? (hexDigit (byte.toNat % 16)) = some (byte.toNat % 16) :=
      idxOf?_hexDigit (by omega)
    have hbyte : UInt8.ofNat (16 * (byte.toNat / 16) + byte.toNat % 16) = byte := by
      rw [Nat.div_add_mod, UInt8.ofNat_toNat]
    rw [List.flatMap_cons, hexByte, List.cons_append, List.singleton_append, bytes?, hhigh, hlow, ih]
    exact congrArg (fun first => some (first :: rest)) hbyte

end Value

/-! ## Integers -/

/-- A text with a character that is neither a digit nor a sign writes no integer. -/
theorem Text.toInt?_eq_none_of_mem {text : Text} {c : Char} (hc : c ∈ text) (hdigit : c.isDigit = false)
    (hminus : c ≠ '-') (hplus : c ≠ '+') : toInt? text = none := by
  have hrun : ∀ digits : Text, c ∈ digits → ¬(digits ≠ [] ∧ digits.all Char.isDigit = true) := by
    rintro digits hmem ⟨-, hall⟩
    rw [List.all_eq_true.mp hall c hmem] at hdigit
    cases hdigit
  unfold toInt?
  split
  · exact if_neg (hrun _ ((List.mem_cons.mp hc).resolve_left hminus))
  · exact if_neg (hrun _ ((List.mem_cons.mp hc).resolve_left hplus))
  · exact if_neg (hrun _ hc)

/-- A numeral with a point or an exponent writes no integer. -/
theorem Numeral.toInt?_text {numeral : Numeral} (h : numeral.isWhole = false) :
    Text.toInt? (numeral.text false) = none := by
  rw [isWhole, Bool.and_eq_false_iff] at h
  rcases h with hfraction | hexponent
  · refine Text.toInt?_eq_none_of_mem (c := '.') ?_ rfl (by decide) (by decide)
    simp [text, hfraction]
  · obtain ⟨exponent, hsome⟩ := Option.isSome_iff_exists.mp (by simpa using hexponent)
    refine Text.toInt?_eq_none_of_mem (c := 'e') ?_ rfl (by decide) (by decide)
    simp [text, exponentText, hsome]

/-! ## Floating-point numbers -/

/-- A text that starts with a digit is no word. -/
theorem Text.equalsIgnoringCase_cons_eq_false {d : Char} (hd : d.isDigit = true) (rest : Text) {word : Text}
    (hword : word.all (!·.toLower.isDigit) = true) : equalsIgnoringCase (d :: rest) word = false := by
  apply Bool.eq_false_iff.mpr
  intro heq
  have hmem : d ∈ asciiLower word := by
    rw [← beq_iff_eq.mp heq, asciiLower, List.map_cons, toLower_of_isDigit hd]
    exact List.mem_cons_self
  obtain ⟨c, hc, rfl⟩ := List.mem_map.mp hmem
  have hother := List.all_eq_true.mp hword c hc
  rw [hd] at hother
  cases hother

namespace WrittenFloat

/-- An exponent that is written is read. -/
theorem exponent?_exponentText (exponent : Int) :
    exponent? (Numeral.exponentText false exponent) = some exponent := by
  have htext : Numeral.exponentText false exponent = 'e' :: Text.ofInt exponent := rfl
  rw [htext, exponent?, if_pos (Or.inl rfl), Text.toInt?_ofInt]

/-- A fraction is read in front of an exponent. -/
theorem fraction?_append {fraction tail : Text} {exponent : Int}
    (hfraction : ∀ c ∈ fraction, c.isDigit = true) (htail : exponent? tail = some exponent)
    (hdigit : tail.head?.all (!·.isDigit) = true) (hpoint : tail.head? ≠ some '.') :
    fraction? ((if fraction.isEmpty then [] else '.' :: fraction) ++ tail) = some (fraction, exponent) := by
  cases fraction with
  | nil =>
    have hplain : fraction? tail = (exponent? tail).map ([], ·) := by
      unfold fraction?
      split
      · exact absurd rfl hpoint
      · rfl
    rw [List.isEmpty_nil, if_pos rfl, List.nil_append, hplain, htail]
    rfl
  | cons d more =>
    obtain ⟨htake, hdrop⟩ := Text.takeWhile_dropWhile_run hfraction hdigit
    rw [List.isEmpty_cons, if_neg Bool.false_ne_true, List.cons_append, fraction?, htake, hdrop, htail]
    rfl

/-- Digits are read in front of a fraction. -/
theorem unsigned?_append (negative : Bool) {whole tail fraction : Text} {exponent : Int}
    (hwhole : ∀ c ∈ whole, c.isDigit = true) (hne : whole ≠ [])
    (htail : fraction? tail = some (fraction, exponent)) (hdigit : tail.head?.all (!·.isDigit) = true) :
    unsigned? negative (whole ++ tail) = some (decimal ⟨negative, whole, fraction, some exponent⟩) := by
  obtain ⟨htake, hdrop⟩ := Text.takeWhile_dropWhile_run hwhole hdigit
  have hword : ∀ word : Text, word.all (!·.toLower.isDigit) = true →
      (whole ++ tail).equalsIgnoringCase word = false := by
    obtain ⟨d, more, rfl⟩ := List.exists_cons_of_ne_nil hne
    intro word
    exact Text.equalsIgnoringCase_cons_eq_false (hwhole d List.mem_cons_self) (more ++ tail)
  rw [unsigned?, hword _ (by decide), hword _ (by decide), hword _ (by decide)]
  simp [htake, hdrop, htail, hne]

/-- **A numeral is read as it was written**, with the exponent zero if there is none. -/
theorem read?_text {numeral : Numeral} (h : numeral.IsDigits) (hne : numeral.whole ≠ []) :
    read? (numeral.text false)
      = some (decimal { numeral with exponent := some (numeral.exponent.getD 0) }) := by
  obtain ⟨negative, whole, fraction, exponent⟩ := numeral
  obtain ⟨hwhole, hfraction⟩ := h
  obtain ⟨tail, htext, htail, hdigit, hpoint⟩ : ∃ tail : Text,
      (∀ fraction, (⟨negative, whole, fraction, exponent⟩ : Numeral).text false
        = (if negative then ['-'] else [])
          ++ (whole ++ ((if fraction.isEmpty then [] else '.' :: fraction) ++ tail)))
      ∧ exponent? tail = some (exponent.getD 0)
      ∧ tail.head?.all (!·.isDigit) = true ∧ tail.head? ≠ some '.' := by
    cases exponent with
    | none => exact ⟨[], by simp [Numeral.text], rfl, rfl, by simp⟩
    | some exponent =>
      exact ⟨Numeral.exponentText false exponent, by simp [Numeral.text], exponent?_exponentText exponent, rfl,
        by simp [Numeral.exponentText]⟩
  have hbehind : ((if fraction.isEmpty then [] else '.' :: fraction) ++ tail).head?.all (!·.isDigit)
      = true := by
    cases fraction with
    | nil => exact hdigit
    | cons d more => rfl
  have hunsigned := unsigned?_append negative hwhole hne
    (fraction?_append hfraction htail hdigit hpoint) hbehind
  rw [htext]
  cases negative with
  | true => exact hunsigned
  | false =>
    -- a digit, and so no sign, starts the numeral
    obtain ⟨d, more, rfl⟩ := List.exists_cons_of_ne_nil hne
    have hd := hwhole d List.mem_cons_self
    rw [← hunsigned]
    simp only [Bool.false_eq_true, if_false, List.nil_append, List.cons_append]
    unfold read?
    split
    · next hsign =>
      cases hsign
      cases hd
    · next hsign =>
      cases hsign
      cases hd
    · rfl

end WrittenFloat

namespace Binary64

/-- **The text of a number is read as the number**, and that of what is no number as one such. -/
theorem ofText?_text (x : Binary64) : ofText? x.text = some (if x.isNaN then nan else x) := by
  rw [text]
  by_cases hnan : x.isNaN = true
  · rw [if_pos hnan, if_pos hnan]
    rfl
  · rw [if_neg hnan, if_neg hnan]
    by_cases hinfinite : x.isInfinite = true
    · have hcode : x.code = BinaryFormat.binary64.infinity := beq_iff_eq.mp hinfinite
      have hback : infinite x.isNegative = x := by rw [infinite, ← hcode, ofCode_code]
      rw [if_pos hinfinite, ← hback]
      cases x.isNegative with
      | true => rfl
      | false => rfl
    · have hfinite : x.isFinite = true := by
        simp only [isNaN, isInfinite, isFinite, decide_eq_true_eq, beq_iff_eq] at *
        omega
      rw [if_neg hinfinite, ofText?,
        WrittenFloat.read?_text (FloatLayout.isDigits_numeral _ x) (FloatLayout.whole_numeral_ne_nil _ x)]
      exact congrArg some (FloatLayout.ofDecimal_numeral .sql hfinite)

/-- The text of a floating-point number writes no integer. -/
theorem toInt?_text (x : Binary64) : Text.toInt? x.text = none := by
  rw [text]
  split
  · rfl
  · split
    · split
      · rfl
      · rfl
    · exact Numeral.toInt?_text (FloatLayout.isWhole_numeral _ x)

end Binary64

/-! ## Values -/

/-- A numeral starts with a minus sign or a digit. -/
theorem Numeral.IsDigits.exists_text_eq_cons {numeral : Numeral} (h : numeral.IsDigits)
    (hne : numeral.whole ≠ []) :
    ∃ c rest, numeral.text false = c :: rest ∧ (c = '-' ∨ c.isDigit = true) := by
  obtain ⟨negative, whole, fraction, exponent⟩ := numeral
  obtain ⟨d, more, rfl⟩ := List.exists_cons_of_ne_nil hne
  cases negative with
  | true => exact ⟨'-', _, rfl, .inl rfl⟩
  | false => exact ⟨d, _, rfl, .inr (h.whole d List.mem_cons_self)⟩

namespace Value

/-- A text that starts with a minus sign or a digit is read as a number. -/
theorem ofLiteral?_cons {c : Char} (hc : c = '-' ∨ c.isDigit = true) (rest : Text) :
    ofLiteral? (c :: rest) = ofNumeral? (c :: rest) := by
  have hstart : ∀ (d : Char) (more : Text), d ≠ '-' → d.isDigit = false → c :: rest ≠ d :: more := by
    intro d more hminus hdigit heq
    cases heq
    rcases hc with hsign | hc
    · exact hminus hsign
    · rw [hdigit] at hc
      cases hc
  have hnull : c :: rest ≠ "NULL".toList := hstart _ _ (by decide) rfl
  have htrue : c :: rest ≠ "TRUE".toList := hstart _ _ (by decide) rfl
  have hfalse : c :: rest ≠ "FALSE".toList := hstart _ _ (by decide) rfl
  unfold ofLiteral?
  split
  · next hquote => exact absurd hquote (hstart _ _ (by decide) rfl)
  · next hblob => exact absurd hblob (hstart _ _ (by decide) rfl)
  · rw [if_neg hnull, if_neg htrue, if_neg hfalse]

/-- The content of the literal of a text is the text. -/
theorem unquote?_textLiteral (content : Text) :
    Text.unquote? '\'' '\'' (textLiteral content) = some content := Text.unquote?_eq_some_iff.mpr rfl

/-- The literal of a text is read as the text. -/
theorem ofLiteral?_text (content : Text) : ofLiteral? (text content).literal = some (text content) := by
  show (Text.unquote? '\'' '\'' (textLiteral content)).map text = _
  rw [unquote?_textLiteral]
  rfl

/-- The literal of bytes is read as the bytes. -/
theorem ofLiteral?_blob (bytes : List UInt8) : ofLiteral? (blob bytes).literal = some (blob bytes) := by
  rw [literal_blob]
  show ((Text.unquote? '\'' '\'' (textLiteral (bytes.flatMap hexByte))).bind bytes?).map blob = _
  rw [unquote?_textLiteral, Option.bind_some, bytes?_flatMap_hexByte]
  rfl

/-- The literal of an integer is read as the integer. -/
theorem ofLiteral?_int (n : Int64) : ofLiteral? (int n).literal = some (int n) := by
  have hstandard := Numeral.isStandard_ofInt n.toInt
  obtain ⟨c, rest, htext, hc⟩ := hstandard.exists_text_eq_cons hstandard.whole_ne_nil
  rw [Numeral.text_ofInt] at htext
  have hback : (Int64.ofInt n.toInt).toInt = n.toInt := congrArg Int64.toInt (Int64.ofInt_toInt n)
  rw [literal, htext, ofLiteral?_cons hc, ← htext, ofNumeral?, Text.toInt?_ofInt]
  dsimp only
  rw [if_pos hback, Int64.ofInt_toInt]

/-- The literal of a floating-point number is read as the number. -/
theorem ofLiteral?_float (x : Binary64) :
    ofLiteral? (float x).literal = some (float (if x.isNaN then .nan else x)) := by
  have hread : ofNumeral? x.text = some (float (if x.isNaN then .nan else x)) := by
    rw [ofNumeral?, x.toInt?_text, x.ofText?_text]
    rfl
  rw [literal, ← hread, Binary64.text]
  split
  · rfl
  · split
    · split
      · rfl
      · rfl
    · obtain ⟨c, rest, htext, hc⟩ := (FloatLayout.isDigits_numeral .sql x).exists_text_eq_cons
        (FloatLayout.whole_numeral_ne_nil _ x)
      rw [htext, ofLiteral?_cons hc]

/-- **The literal of a value is read as the value**, if that is not one of those that are no number. -/
theorem ofLiteral?_literal (value : Value) :
    ofLiteral? value.literal = some (if value.isNaN then float .nan else value) := by
  cases value with
  | null => rfl
  | bool value => cases value <;> rfl
  | int n => exact ofLiteral?_int n
  | float x =>
    rw [ofLiteral?_float, isNaN]
    cases x.isNaN <;> rfl
  | text content => exact ofLiteral?_text content
  | blob bytes => exact ofLiteral?_blob bytes

/-- One literal is that of all values that are no number, and of no other. -/
theorem isNaN_iff {value : Value} : value.isNaN = true ↔ value.literal = "NaN".toList := by
  constructor
  · intro h
    cases value with
    | float x => exact if_pos h
    | _ => cases h
  · intro h
    have hread : ofLiteral? value.literal = some (float .nan) := by
      rw [h]
      rfl
    rw [ofLiteral?_literal, Option.some_inj] at hread
    by_contra hnumber
    rw [if_neg hnumber] at hread
    rw [hread] at hnumber
    exact hnumber rfl

/-- **The law of literals.**  One reader gives back every value from its literal, where the values that are no
number count as one.  Hence two values have the same literal exactly if they are equal or both no number, and no
floating-point number has the literal of an integer. -/
theorem literal_law :
    (∀ value : Value, ofLiteral? value.literal = some (if value.isNaN then float .nan else value))
    ∧ (∀ one other : Value,
      one.literal = other.literal ↔ one = other ∨ one.isNaN = true ∧ other.isNaN = true)
    ∧ ∀ x : Binary64, Text.toInt? (float x).literal = none := by
  refine ⟨ofLiteral?_literal, ?_, Binary64.toInt?_text⟩
  intro one other
  constructor
  · intro h
    by_cases hone : one.isNaN = true
    · exact .inr ⟨hone, isNaN_iff.mpr (h.symm.trans (isNaN_iff.mp hone))⟩
    · have hother : ¬other.isNaN = true := by
        intro hother
        exact hone (isNaN_iff.mpr (h.trans (isNaN_iff.mp hother)))
      have hread := congrArg ofLiteral? h
      rw [ofLiteral?_literal, ofLiteral?_literal, if_neg hone, if_neg hother] at hread
      exact .inl (Option.some_inj.mp hread)
  · rintro (rfl | ⟨hone, hother⟩)
    · rfl
    · rw [isNaN_iff.mp hone, isNaN_iff.mp hother]

example : ofLiteral? "X'00FF'".toList = some (blob [0, 255]) := by decide +kernel

-- an integer beyond 64 bits is the literal of no value
example : ofLiteral? "9223372036854775808".toList = none := by decide +kernel

end Value

end BulkDml
