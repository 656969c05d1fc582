import BulkDml.Json

/-! # The tokens of a JSON document

`Json.tokens?` cuts a text into brackets, commas, colons, words, numbers and strings, dropping the blanks
between them.  It refuses a text that is not made up of these: an unknown word, a number with a leading
zero or without digits where digits belong, a string that does not end or holds a bare control character
or an unknown escape.
-/

namespace BulkDml

namespace Json

/-- A token of a document. -/
inductive Token where
  /-- An opening bracket. -/
  | openArray
  /-- A closing bracket. -/
  | closeArray
  /-- An opening brace. -/
  | openObject
  /-- A closing brace. -/
  | closeObject
  /-- A comma. -/
  | comma
  /-- A colon. -/
  | colon
  /-- One of the words `null`, `true` and `false`, or a number. -/
  | scalar (document : Json)
  /-- A string. -/
  | string (value : JsonString)

/-! ## Strings -/

/-- The value of a hexadecimal digit. -/
def hexValue? (c : Char) : Option Nat :=
  if '0' ≤ c ∧ c ≤ '9' then some (c.toNat - 48)
  else if 'a' ≤ c ∧ c ≤ 'f' then some (c.toNat - 87)
  else if 'A' ≤ c ∧ c ≤ 'F' then some (c.toNat - 55)
  else none

/-- The value of four hexadecimal digits. -/
def hexUnit? (a b c d : Char) : Option Nat := do
  return (((← hexValue? a) * 16 + (← hexValue? b)) * 16 + (← hexValue? c)) * 16 + (← hexValue? d)

/-- The character that the letter of an escape writes. -/
def unescape? (letter : Char) : Option Char :=
  if letter = '"' then some '"'
  else if letter = '\\' then some '\\'
  else if letter = '/' then some '/'
  else if letter = 'b' then some '\x08'
  else if letter = 'f' then some '\x0c'
  else if letter = 'n' then some '\n'
  else if letter = 'r' then some '\r'
  else if letter = 't' then some '\t'
  else none

/-- What a string is made up of, up to its closing quote, and the text behind it.  A character stands for
its code point; an escape of four digits stands for the number that they write. -/
def stringUnits? : Text → Option (List Nat × Text)
  | [] => none
  | '"' :: rest => some ([], rest)
  | ['\\'] => none
  | '\\' :: 'u' :: a :: b :: c :: d :: rest => do
    let unit ← hexUnit? a b c d
    let (units, after) ← stringUnits? rest
    return (unit :: units, after)
  | '\\' :: letter :: rest => do
    let c ← unescape? letter
    let (units, after) ← stringUnits? rest
    return (c.toNat :: units, after)
  | c :: rest =>
    if c.toNat < 32 then none
    else do
      let (units, after) ← stringUnits? rest
      return (c.toNat :: units, after)

/-- Whether a number is the first half of a surrogate pair. -/
def isHighSurrogate (unit : Nat) : Bool := 0xD800 ≤ unit && unit < 0xDC00

/-- Whether a number is the second half of a surrogate pair. -/
def isLowSurrogate (unit : Nat) : Bool := 0xDC00 ≤ unit && unit < 0xE000

/-- The text that code points and surrogate pairs make up, unless half of a pair stands alone. -/
def joinUnits : List Nat → JsonString
  | [] => some []
  | [unit] => if isHighSurrogate unit || isLowSurrogate unit then none else some [Char.ofNat unit]
  | unit :: next :: rest =>
    if isHighSurrogate unit then
      if isLowSurrogate next then
        (joinUnits rest).map
          (Char.ofNat (0x10000 + (unit - 0xD800) * 0x400 + (next - 0xDC00)) :: ·)
      else none
    else if isLowSurrogate unit then none
    else (joinUnits (next :: rest)).map (Char.ofNat unit :: ·)

/-- A string is followed by no more text than it started in. -/
theorem length_le_of_stringUnits? {text after : Text} {units : List Nat}
    (h : stringUnits? text = some (units, after)) : after.length ≤ text.length := by
  fun_induction stringUnits? text generalizing units after with
  | case1 => cases h
  | case2 rest => cases h; simp
  | case3 => cases h
  | case4 a b c d rest ih =>
    simp only [Option.bind_eq_bind, Option.bind_eq_some_iff] at h
    obtain ⟨unit, -, ⟨inner, behind⟩, hinner, hdone⟩ := h
    cases hdone
    have := ih hinner
    simp only [List.length_cons]
    omega
  | case5 letter rest _ ih =>
    simp only [Option.bind_eq_bind, Option.bind_eq_some_iff] at h
    obtain ⟨c, -, ⟨inner, behind⟩, hinner, hdone⟩ := h
    cases hdone
    have := ih hinner
    simp only [List.length_cons]
    omega
  | case6 => cases h
  | case7 c rest _ _ _ _ _ ih =>
    simp only [Option.bind_eq_bind, Option.bind_eq_some_iff] at h
    obtain ⟨⟨inner, behind⟩, hinner, hdone⟩ := h
    cases hdone
    have := ih hinner
    simp only [List.length_cons]
    omega

/-! ## Numbers -/

/-- A run of digits and the text behind it; there must be a digit. -/
def digits? (text : Text) : Option (Text × Text) :=
  let run := text.takeWhile Char.isDigit
  if run.isEmpty then none else some (run, text.dropWhile Char.isDigit)

/-- The digits before the point: a zero, or a run that does not start with one. -/
def wholeDigits? (text : Text) : Option (Text × Text) := do
  let (run, after) ← digits? text
  if run.head? = some '0' ∧ run.length ≠ 1 then none else some (run, after)

/-- The digits after the point, none without a point. -/
def fractionDigits? : Text → Option (Text × Text)
  | '.' :: rest => digits? rest
  | text => some ([], text)

/-- The value of an exponent's digits. -/
def exponentValue? (negative : Bool) (text : Text) : Option (Option Int × Text) := do
  let (run, after) ← digits? text
  let magnitude : Int := Text.toNat run
  return (some (if negative then -magnitude else magnitude), after)

/-- The exponent, if there is one. -/
def exponentPart? : Text → Option (Option Int × Text)
  | [] => some (none, [])
  | c :: rest =>
    if c = 'e' ∨ c = 'E' then
      match rest with
      | '+' :: digits => exponentValue? false digits
      | '-' :: digits => exponentValue? true digits
      | digits => exponentValue? false digits
    else some (none, c :: rest)

/-- A number without its sign, and the text behind it. -/
def unsignedNumber? (negative : Bool) (text : Text) : Option (Numeral × Text) := do
  let (whole, afterWhole) ← wholeDigits? text
  let (fraction, afterFraction) ← fractionDigits? afterWhole
  let (exponent, after) ← exponentPart? afterFraction
  return (⟨negative, whole, fraction, exponent⟩, after)

/-- A number and the text behind it. -/
def number? : Text → Option (Numeral × Text)
  | '-' :: rest => unsignedNumber? true rest
  | text => unsignedNumber? false text

/-! ## Tokens -/

/-- The characters between tokens. -/
def isBlankJson (c : Char) : Bool := c == ' ' || c == '\t' || c == '\n' || c == '\r'

/-- The words of documents and what they stand for. -/
def words : List (Text × Json) :=
  [("null".toList, null), ("true".toList, bool true), ("false".toList, bool false)]

/-- The word that a text starts with, and the text behind it. -/
def word? (text : Text) : Option (Json × Text) :=
  words.findSome? fun (word, document) => (word.after? text).map (document, ·)

/-- The token that starts with `c`, and the text behind it. -/
def token? (c : Char) (rest : Text) : Option (Token × Text) :=
  match c with
  | '[' => some (.openArray, rest)
  | ']' => some (.closeArray, rest)
  | '{' => some (.openObject, rest)
  | '}' => some (.closeObject, rest)
  | ',' => some (.comma, rest)
  | ':' => some (.colon, rest)
  | '"' => (stringUnits? rest).map fun (units, after) => (.string (joinUnits units), after)
  | _ =>
    match word? (c :: rest) with
    | some (document, after) => some (.scalar document, after)
    | none => (number? (c :: rest)).map fun (numeral, after) => (.scalar (.number numeral), after)

/-- A run of digits is followed by less text. -/
theorem length_lt_of_digits? {text run after : Text} (h : digits? text = some (run, after)) :
    after.length < text.length := by
  simp only [digits?] at h
  split at h
  · cases h
  · next hrun =>
    cases h
    have happend := congrArg List.length (List.takeWhile_append_dropWhile (p := Char.isDigit) (l := text))
    have hpositive : 0 < (text.takeWhile Char.isDigit).length := by
      simpa [List.length_pos_iff] using hrun
    simp only [List.length_append] at happend
    omega

/-- The digits before the point are followed by less text. -/
theorem length_lt_of_wholeDigits? {text run after : Text} (h : wholeDigits? text = some (run, after)) :
    after.length < text.length := by
  simp only [wholeDigits?, Option.bind_eq_bind, Option.bind_eq_some_iff] at h
  obtain ⟨⟨digits, behind⟩, hdigits, hdone⟩ := h
  split at hdone
  · cases hdone
  · cases hdone
    exact length_lt_of_digits? hdigits

/-- The digits after the point are followed by no more text than they start in. -/
theorem length_le_of_fractionDigits? {text run after : Text}
    (h : fractionDigits? text = some (run, after)) : after.length ≤ text.length := by
  fun_cases fractionDigits? text with
  | case1 rest =>
    have : after.length < rest.length := length_lt_of_digits? h
    simp only [List.length_cons]
    omega
  | case2 text hpoint =>
    simp only [fractionDigits?, Option.some.injEq, Prod.mk.injEq] at h
    exact Nat.le_of_eq (congrArg List.length h.2.symm)

/-- The value of an exponent is followed by less text. -/
theorem length_lt_of_exponentValue? {negative : Bool} {text after : Text} {exponent : Option Int}
    (h : exponentValue? negative text = some (exponent, after)) : after.length < text.length := by
  simp only [exponentValue?, Option.bind_eq_bind, Option.bind_eq_some_iff] at h
  obtain ⟨⟨run, behind⟩, hrun, hdone⟩ := h
  cases hdone
  exact length_lt_of_digits? hrun

/-- An exponent is followed by no more text than it starts in. -/
theorem length_le_of_exponentPart? {text after : Text} {exponent : Option Int}
    (h : exponentPart? text = some (exponent, after)) : after.length ≤ text.length := by
  cases text with
  | nil => cases h; exact Nat.le_refl _
  | cons c rest =>
    simp only [exponentPart?] at h
    split at h
    · split at h
      iterate 3
        have := length_lt_of_exponentValue? h
        simp only [List.length_cons]
        omega
    · cases h
      exact Nat.le_refl _

/-- A number is followed by less text. -/
theorem length_lt_of_unsignedNumber? {negative : Bool} {text after : Text} {numeral : Numeral}
    (h : unsignedNumber? negative text = some (numeral, after)) : after.length < text.length := by
  simp only [unsignedNumber?, Option.bind_eq_bind, Option.bind_eq_some_iff] at h
  obtain ⟨⟨whole, afterWhole⟩, hwhole, ⟨fraction, afterFraction⟩, hfraction, ⟨exponent, behind⟩,
    hexponent, hdone⟩ := h
  cases hdone
  have hfirst := length_lt_of_wholeDigits? hwhole
  have hsecond := length_le_of_fractionDigits? hfraction
  have hthird := length_le_of_exponentPart? hexponent
  simp only at hfirst hsecond hthird ⊢
  omega

/-- A token is followed by less text. -/
theorem length_lt_of_token? {c : Char} {rest after : Text} {token : Token}
    (h : token? c rest = some (token, after)) : after.length < (c :: rest).length := by
  unfold token? at h
  split at h
  iterate 6 (cases h; simp)
  · obtain ⟨⟨units, behind⟩, hunits, hdone⟩ := Option.map_eq_some_iff.mp h
    cases hdone
    have := length_le_of_stringUnits? hunits
    simp only [List.length_cons]
    omega
  · split at h
    · next document behind hword =>
      cases h
      obtain ⟨⟨word, meaning⟩, hmem, hfound⟩ := List.exists_of_findSome?_eq_some hword
      obtain ⟨behind, hbehind, hdone⟩ := Option.map_eq_some_iff.mp hfound
      cases hdone
      have hpositive : 0 < word.length := by
        simp only [words, List.mem_cons, Prod.mk.injEq, List.not_mem_nil, or_false] at hmem
        rcases hmem with ⟨rfl, -⟩ | ⟨rfl, -⟩ | ⟨rfl, -⟩ <;> decide
      rw [Text.eq_append_of_after? hbehind, List.length_append]
      omega
    · obtain ⟨⟨numeral, behind⟩, hnumber, hdone⟩ := Option.map_eq_some_iff.mp h
      cases hdone
      unfold number? at hnumber
      split at hnumber
      · next heq =>
        have := length_lt_of_unsignedNumber? hnumber
        cases heq
        simp only [List.length_cons]
        omega
      · exact length_lt_of_unsignedNumber? hnumber

/-- The tokens of a document. -/
def tokens? : Text → Option (List Token)
  | [] => some []
  | c :: rest =>
    if isBlankJson c then tokens? rest
    else
      match _h : token? c rest with
      | none => none
      | some (token, after) => (tokens? after).map (token :: ·)
termination_by text => text.length
decreasing_by
  · simp
  · exact length_lt_of_token? _h

end Json

end BulkDml
