import BulkDml.Json.Token
import BulkDml.Proofs.OperandText
import Mathlib.Data.List.Basic
import Mathlib.Data.List.DropRight

/-! # Scalars of JSON documents

Strings and numbers are taken off a document as they were written.  A string ends with its closing quote,
whatever stands behind it; a number ends where a comma, a bracket or nothing follows.

* `Json.stringUnits?_flatMap_escape`, `Json.joinUnits_map_toNat` — a string that was written is read back;
* `Numeral.IsStandard` — numerals as JSON has them: digits in front of the point, and no needless zero;
* `Json.number?_text_append` — such a numeral is read back;
* `FloatLayout.isStandard_numeral` — every floating-point number is written as one.
-/

namespace BulkDml

/-! ## Strings -/

namespace Json

/-- Two zeros and two digits write a control character. -/
theorem hexUnit?_control {n : Nat} (h : n < 32) :
    hexUnit? '0' '0' (hexDigit (n / 16)) (hexDigit (n % 16)) = some n := by
  decide +revert

/-- A character is read as its code point, escaped or not. -/
theorem stringUnits?_escape_append (c : Char) (rest : Text) :
    stringUnits? (escape c ++ rest)
      = (stringUnits? rest).map fun (units, after) => (c.toNat :: units, after) := by
  have hletter : ∀ letter d : Char, letter ≠ 'u' → unescape? letter = some d →
      stringUnits? ('\\' :: letter :: rest)
        = (stringUnits? rest).map fun (units, after) => (d.toNat :: units, after) := by
    intro letter d hletter hd
    rw [stringUnits?]
    · rw [hd]
      cases stringUnits? rest <;> rfl
    · intro a b c d rest' hu
      cases hu
      exact absurd rfl hletter
  unfold escape
  split_ifs with hquote hbackslash hbackspace hfeed hnewline hreturn htab hcontrol
  · rw [hquote]
    exact hletter '"' '"' (by decide) rfl
  · rw [hbackslash]
    exact hletter '\\' '\\' (by decide) rfl
  · rw [hbackspace]
    exact hletter 'b' '\x08' (by decide) rfl
  · rw [hfeed]
    exact hletter 'f' '\x0c' (by decide) rfl
  · rw [hnewline]
    exact hletter 'n' '\n' (by decide) rfl
  · rw [hreturn]
    exact hletter 'r' '\r' (by decide) rfl
  · rw [htab]
    exact hletter 't' '\t' (by decide) rfl
  · -- any other control character is written by its number
    simp only [List.cons_append, List.nil_append]
    rw [stringUnits?, hexUnit?_control hcontrol]
    cases stringUnits? rest <;> rfl
  · -- every other character is written as it is
    rw [List.singleton_append, stringUnits?]
    · rw [if_neg hcontrol]
      cases stringUnits? rest <;> rfl
    all_goals simp_all

/-- A string is read up to its closing quote. -/
theorem stringUnits?_flatMap_escape (text rest : Text) :
    stringUnits? (text.flatMap escape ++ '"' :: rest) = some (text.map Char.toNat, rest) := by
  induction text with
  | nil => rfl
  | cons c tail ih =>
    rw [List.flatMap_cons, List.append_assoc, stringUnits?_escape_append, ih]
    rfl

/-- The code points of a text make up the text. -/
theorem joinUnits_map_toNat (text : Text) : joinUnits (text.map Char.toNat) = some text := by
  -- no code point of a character is half of a surrogate pair
  have hwhole : ∀ c : Char, isHighSurrogate c.toNat = false ∧ isLowSurrogate c.toNat = false := by
    intro c
    have hvalid : c.toNat < 0xD800 ∨ 0xDFFF < c.toNat ∧ c.toNat < 0x110000 := c.valid
    simp only [isHighSurrogate, isLowSurrogate, Bool.and_eq_false_iff, decide_eq_false_iff_not]
    omega
  induction text with
  | nil => rfl
  | cons c tail ih =>
    cases tail with
    | nil => simp [joinUnits, hwhole c]
    | cons d more =>
      rw [List.map_cons] at ih
      simp only [List.map_cons, joinUnits, hwhole c, ih]
      simp

end Json

/-! ## Numbers -/

/-- Whether nothing or a mark between values stands behind a value: a comma or a closing bracket. -/
def Text.startsJsonMark (text : Text) : Bool :=
  text.head?.all fun c => c == ',' || c == ']' || c == '\x7d'

namespace Numeral

/-- Whether a numeral is one that JSON has: digits stand in front of the point, only digits stand around it,
and a zero in front is the only digit there. -/
structure IsStandard (numeral : Numeral) : Prop extends numeral.IsDigits where
  /-- A digit stands in front of the point. -/
  whole_ne_nil : numeral.whole ≠ []
  /-- No other digit stands behind a zero in front of the point. -/
  length_whole : numeral.whole.head? = some '0' → numeral.whole.length = 1

end Numeral

namespace Json

/-- A run of digits is read if no digit follows it. -/
theorem digits?_append {run rest : Text} (hne : run ≠ []) (hrun : ∀ c ∈ run, c.isDigit = true)
    (hrest : rest.head?.all (!·.isDigit) = true) : digits? (run ++ rest) = some (run, rest) := by
  have hcut := Text.takeWhile_dropWhile_run hrun hrest
  rw [digits?, hcut.1, hcut.2, if_neg (by simpa using hne)]

/-- The value of an exponent is read if no digit follows it. -/
theorem exponentValue?_append (negative : Bool) (n : Nat) {rest : Text}
    (hrest : rest.head?.all (!·.isDigit) = true) :
    exponentValue? negative (Text.ofNat n ++ rest)
      = some (some (if negative then -(n : Int) else n), rest) := by
  have hdigits := digits?_append (Text.ofNat_ne_nil n) (fun _ => Text.isDigit_of_mem_ofNat) hrest
  rw [exponentValue?, hdigits]
  simp

/-- An exponent that is written with its sign is read. -/
theorem exponentPart?_exponentText_append (exponent : Int) {rest : Text}
    (hrest : rest.head?.all (!·.isDigit) = true) :
    exponentPart? (Numeral.exponentText true exponent ++ rest) = some (some exponent, rest) := by
  cases exponent with
  | ofNat n =>
    have htext : Numeral.exponentText true (.ofNat n) ++ rest = 'e' :: '+' :: (Text.ofNat n ++ rest) := by
      simp [Numeral.exponentText, Text.ofInt]
    rw [htext, exponentPart?, if_pos (Or.inl rfl)]
    exact exponentValue?_append false n hrest
  | negSucc n =>
    have htext : Numeral.exponentText true (.negSucc n) ++ rest
        = 'e' :: '-' :: (Text.ofNat (n + 1) ++ rest) := by
      simp [Numeral.exponentText, Text.ofInt]
    rw [htext, exponentPart?, if_pos (Or.inl rfl)]
    exact exponentValue?_append true (n + 1) hrest

/-- Without an exponent, none is read in front of a mark. -/
theorem exponentPart?_of_startsJsonMark {rest : Text} (h : Text.startsJsonMark rest = true) :
    exponentPart? rest = some (none, rest) := by
  cases rest with
  | nil => rfl
  | cons c tail =>
    have hc : ¬(c = 'e' ∨ c = 'E') := by
      rintro (rfl | rfl)
      · exact absurd h (by simp [Text.startsJsonMark])
      · exact absurd h (by simp [Text.startsJsonMark])
    simp only [exponentPart?, if_neg hc]

/-- No digit stands at a mark. -/
theorem head?_all_of_startsJsonMark {rest : Text} (h : Text.startsJsonMark rest = true) :
    rest.head?.all (!·.isDigit) = true := by
  cases rest with
  | nil => rfl
  | cons c tail =>
    simp only [Text.startsJsonMark, List.head?_cons, Option.all_some, Bool.or_eq_true, beq_iff_eq] at h
    rcases h with (rfl | rfl) | rfl <;> rfl

/-- The fraction and exponent of a standard numeral. -/
theorem fractionDigits?_append {fraction after : Text} (hfraction : ∀ c ∈ fraction, c.isDigit = true)
    (hdigit : after.head?.all (!·.isDigit) = true) (hpoint : after.head? ≠ some '.') :
    fractionDigits? ((if fraction.isEmpty then [] else '.' :: fraction) ++ after)
      = some (fraction, after) := by
  cases fraction with
  | nil =>
    cases after with
    | nil => rfl
    | cons c tail =>
      have hc : c ≠ '.' := by simpa using hpoint
      simp [fractionDigits?, hc]
  | cons d more => exact digits?_append (List.cons_ne_nil d more) hfraction hdigit

/-- The exponent of a numeral as it is written, if there is one. -/
def exponentSuffix : Option Int → Text
  | none => []
  | some exponent => Numeral.exponentText true exponent

/-- The exponent of a numeral is read in front of a mark. -/
theorem exponentPart?_append (exponent : Option Int) {rest : Text}
    (hrest : Text.startsJsonMark rest = true) :
    exponentPart? (exponentSuffix exponent ++ rest) = some (exponent, rest) := by
  cases exponent with
  | none => exact exponentPart?_of_startsJsonMark hrest
  | some exponent =>
    exact exponentPart?_exponentText_append exponent (head?_all_of_startsJsonMark hrest)

/-- Neither a digit nor a point stands where the exponent of a numeral may. -/
theorem head?_exponentSuffix_append (exponent : Option Int) {rest : Text}
    (hrest : Text.startsJsonMark rest = true) :
    (exponentSuffix exponent ++ rest).head?.all (!·.isDigit) = true
      ∧ (exponentSuffix exponent ++ rest).head? ≠ some '.' := by
  cases exponent with
  | some exponent => exact ⟨rfl, by simp [exponentSuffix, Numeral.exponentText]⟩
  | none =>
    refine ⟨head?_all_of_startsJsonMark hrest, ?_⟩
    intro hpoint
    rw [exponentSuffix, List.nil_append] at hpoint
    rw [Text.startsJsonMark, hpoint] at hrest
    exact absurd hrest (by decide)

/-- **A standard numeral is read back**, if nothing or a mark stands behind it. -/
theorem number?_text_append {numeral : Numeral} (h : numeral.IsStandard) {rest : Text}
    (hrest : Text.startsJsonMark rest = true) :
    number? (numeral.text true ++ rest) = some (numeral, rest) := by
  obtain ⟨negative, whole, fraction, exponent⟩ := numeral
  obtain ⟨⟨hwhole, hfraction⟩, hne, hzero⟩ := h
  obtain ⟨hdigit, hpoint⟩ := head?_exponentSuffix_append exponent hrest
  have hbehind : ((if fraction.isEmpty then [] else '.' :: fraction)
      ++ (exponentSuffix exponent ++ rest)).head?.all (!·.isDigit) = true := by
    cases fraction with
    | nil => exact hdigit
    | cons d more => rfl
  have hunsigned : unsignedNumber? negative (whole ++ ((if fraction.isEmpty then [] else '.' :: fraction)
      ++ (exponentSuffix exponent ++ rest))) = some (⟨negative, whole, fraction, exponent⟩, rest) := by
    have hleading : ¬(whole.head? = some '0' ∧ whole.length ≠ 1) := by
      rintro ⟨hhead, hlength⟩
      exact hlength (hzero hhead)
    simp only [unsignedNumber?, wholeDigits?, digits?_append hne hwhole hbehind, if_neg hleading,
      fractionDigits?_append hfraction hdigit hpoint, exponentPart?_append exponent hrest,
      Option.bind_eq_bind, Option.bind_some, Option.pure_def]
  have htext : (⟨negative, whole, fraction, exponent⟩ : Numeral).text true ++ rest
      = (if negative then ['-'] else []) ++ (whole ++ ((if fraction.isEmpty then [] else '.' :: fraction)
        ++ (exponentSuffix exponent ++ rest))) := by
    cases exponent <;> simp [Numeral.text, exponentSuffix]
  rw [htext]
  cases negative with
  | true => exact hunsigned
  | false =>
    -- a digit, and so no minus sign, starts the numeral
    obtain ⟨d, more, rfl⟩ := List.exists_cons_of_ne_nil hne
    have hd : d ≠ '-' := by
      rintro rfl
      exact absurd (hwhole '-' List.mem_cons_self) (by decide)
    rw [← hunsigned]
    simp [number?, hd]

end Json

/-! ## Numerals that are written -/

/-- The decimal form of a positive number starts with no zero. -/
theorem Text.head?_ofNat_ne_zero {n : Nat} (h : n ≠ 0) : (ofNat n).head? ≠ some '0' := by
  induction n using Nat.strongRecOn with
  | ind n ih =>
    by_cases hlt : n < 10
    · rw [ofNat, Nat.toDigits_of_lt_base hlt]
      have hdigit : ∀ d < 10, d ≠ 0 → Nat.digitChar d ≠ '0' := by decide
      simpa using hdigit n hlt h
    · -- the first digits are those of a tenth
      have hsplit : ofNat n = ofNat (n / 10) ++ [Nat.digitChar (n % 10)] :=
        Nat.toDigits_of_base_le (by decide) (by omega)
      rw [hsplit, List.head?_append_of_ne_nil _ (ofNat_ne_nil _)]
      exact ih (n / 10) (by omega) (by omega)

/-- A numeral of nothing but the decimal form of a number is standard. -/
theorem Numeral.isStandard_ofNat (negative : Bool) (n : Nat) :
    (⟨negative, Text.ofNat n, [], none⟩ : Numeral).IsStandard where
  whole := fun _ => Text.isDigit_of_mem_ofNat
  fraction := by simp
  whole_ne_nil := Text.ofNat_ne_nil n
  length_whole := by
    intro hhead
    by_cases h : n = 0
    · rw [h]
      rfl
    · exact absurd hhead (Text.head?_ofNat_ne_zero h)

/-- The numeral of an integer is standard. -/
theorem Numeral.isStandard_ofInt (n : Int) : (ofInt n).IsStandard := by
  cases n with
  | ofNat n => exact isStandard_ofNat false n
  | negSucc n => exact isStandard_ofNat true (n + 1)

namespace FloatLayout

/-- Digits that start with no zero are placed in a standard numeral. -/
theorem isStandard_place (layout : FloatLayout) (negative : Bool) {digits : Text} (leading : Int)
    (hdigits : ∀ c ∈ digits, c.isDigit = true) (hne : digits ≠ []) (hzero : digits.head? ≠ some '0') :
    (layout.place negative digits leading).IsStandard := by
  refine ⟨isDigits_place layout negative leading hdigits, whole_place_ne_nil layout negative leading hne,
    ?_⟩
  obtain ⟨d, more, rfl⟩ := List.exists_cons_of_ne_nil hne
  have hd : d ≠ '0' := by simpa using hzero
  unfold place
  split
  · split
    · intro _
      rfl
    · dsimp only
      split
      · simp [hd]
      · simp [hd]
  · simp [hd]

/-- The digits of a positive number start with no zero, also without the zeros that they end in. -/
theorem head?_dropTrailingZeros_ofNat_ne_zero {n : Nat} (h : n ≠ 0) :
    (dropTrailingZeros (Text.ofNat n)).head? ≠ some '0' := by
  obtain ⟨zeros, hzeros⟩ : dropTrailingZeros (Text.ofNat n) <+: Text.ofNat n :=
    List.rdropWhile_prefix _ _
  have hhead := Text.head?_ofNat_ne_zero h
  rwa [← hzeros, List.head?_append_of_ne_nil _ (dropTrailingZeros_ofNat_ne_nil h)] at hhead

/-- The numeral of every number is standard. -/
theorem isStandard_numeral (layout : FloatLayout) (x : Binary64) : (layout.numeral x).IsStandard := by
  unfold numeral
  split
  · exact ⟨⟨by simp, by simp⟩, by simp, by simp⟩
  · next hcode =>
    have hdigits := BinaryFormat.binary64.digits_shortest_ne_zero layout.tie hcode
    refine isStandard_place layout _ _ ?_ (dropTrailingZeros_ofNat_ne_nil hdigits)
      (head?_dropTrailingZeros_ofNat_ne_zero hdigits)
    intro c hc
    exact Text.isDigit_of_mem_ofNat (mem_of_mem_dropTrailingZeros hc)

/-- Digits that are placed around a point have the point or an exponent. -/
theorem isWhole_place (layout : FloatLayout) (negative : Bool) {digits : Text} (leading : Int)
    (hne : digits ≠ []) : (layout.place negative digits leading).isWhole = false := by
  unfold place
  split
  · split
    · simp [Numeral.isWhole, hne]
    · dsimp only
      split
      · rfl
      · next hlong =>
        have hdrop : digits.drop (leading.toNat + 1) ≠ [] := by
          rw [Ne, List.drop_eq_nil_iff]
          exact hlong
        simp [Numeral.isWhole, hdrop]
  · simp [Numeral.isWhole]

/-- **The numeral of a floating-point number is never that of an integer**, since it has a point or an
exponent. -/
theorem isWhole_numeral (layout : FloatLayout) (x : Binary64) : (layout.numeral x).isWhole = false := by
  unfold numeral
  split
  · rfl
  · next hcode =>
    have hdigits := BinaryFormat.binary64.digits_shortest_ne_zero layout.tie hcode
    exact isWhole_place layout _ _ (dropTrailingZeros_ofNat_ne_nil hdigits)

end FloatLayout

end BulkDml
