/-! # Texts

SQL, identifiers and messages are *texts*: lists of Unicode characters in reading order.  This module
holds the operations that every other module shares.

* `isNameChar` — the characters of an unquoted name as placeholders and table names use them;
* `Text.after?` — what follows a given beginning;
* `Text.splitFirst`, `Text.splitAll` — the text around the first, or around every, occurrence of a mark;
* `Text.joinWith` — pieces written one after the other with a separator between them;
* `Text.equalsIgnoringCase` — equality up to the case of ASCII letters.
-/

namespace BulkDml

/-- A **text**: its characters, in reading order. -/
abbrev Text : Type := List Char

/-- The characters of an unquoted name: ASCII letters, digits and the underscore. -/
def isNameChar (c : Char) : Bool := c.isAlphanum || c == '_'

namespace Text

/-- A run of characters is cut off a text that does not go on with them. -/
theorem takeWhile_dropWhile_run {p : Char → Bool} {run rest : Text} (hrun : ∀ c ∈ run, p c = true)
    (hrest : rest.head?.all (!p ·) = true) :
    (run ++ rest).takeWhile p = run ∧ (run ++ rest).dropWhile p = rest := by
  have hstop : rest.takeWhile p = [] ∧ rest.dropWhile p = rest := by
    cases rest with
    | nil => exact ⟨rfl, rfl⟩
    | cons c tail =>
      have hc : p c = false := by simpa using hrest
      simp [hc]
  rw [List.takeWhile_append_of_pos hrun, List.dropWhile_append_of_pos hrun, hstop.1, hstop.2,
    List.append_nil]
  exact ⟨rfl, rfl⟩

/-- The text with its ASCII letters in lower case and everything else kept. -/
def asciiLower (text : Text) : Text := text.map Char.toLower

/-- Equality up to the case of ASCII letters. -/
def equalsIgnoringCase (left right : Text) : Bool := asciiLower left == asciiLower right

/-- What follows `lead` in a text that starts with it. -/
def after? : (lead text : Text) → Option Text
  | [], text => some text
  | _ :: _, [] => none
  | l :: lead, c :: rest => if l = c then after? lead rest else none

@[simp] theorem after?_append (lead rest : Text) : after? lead (lead ++ rest) = some rest := by
  induction lead with
  | nil => rfl
  | cons l lead ih => simpa [after?] using ih

/-- A text that has something after `lead` starts with `lead`. -/
theorem eq_append_of_after? {lead text rest : Text} (h : after? lead text = some rest) :
    text = lead ++ rest := by
  fun_induction after? lead text <;> simp_all

/-- The text before the first `mark` and the text after it, if the mark occurs. -/
def splitFirst (mark : Char) : Text → Option (Text × Text)
  | [] => none
  | c :: rest =>
    if c = mark then some ([], rest)
    else (splitFirst mark rest).map fun (before, after) => (c :: before, after)

@[simp] theorem splitFirst_nil (mark : Char) : splitFirst mark [] = none := rfl

/-- Splitting loses only the mark itself. -/
theorem eq_append_of_splitFirst {mark : Char} {text before after : Text}
    (h : splitFirst mark text = some (before, after)) : text = before ++ mark :: after := by
  induction text generalizing before with
  | nil => simp at h
  | cons c rest ih =>
    unfold splitFirst at h
    split at h
    · next hc =>
      obtain ⟨rfl, rfl⟩ : [] = before ∧ rest = after := by simpa using h
      simp [hc]
    · next hc =>
      obtain ⟨⟨a, b⟩, hab, hcons⟩ := Option.map_eq_some_iff.mp h
      obtain ⟨rfl, rfl⟩ : c :: a = before ∧ b = after := by simpa using hcons
      simp [ih hab]

/-- A mark that does not occur splits nothing, and only such a mark. -/
theorem splitFirst_eq_none_iff {mark : Char} {text : Text} :
    splitFirst mark text = none ↔ mark ∉ text := by
  induction text with
  | nil => simp
  | cons c rest ih =>
    unfold splitFirst
    split
    · next hc => simp [hc]
    · next hc => simp [ih, Ne.symm hc]

/-- The texts between neighbouring occurrences of `mark`; without any, the text itself. -/
def splitAll (mark : Char) : Text → List Text
  | [] => [[]]
  | c :: rest =>
    if c = mark then [] :: splitAll mark rest
    else match splitAll mark rest with
      | [] => [[c]]
      | part :: parts => (c :: part) :: parts

/-- The pieces one after the other with `separator` between neighbours. -/
def joinWith (separator : Text) : List Text → Text
  | [] => []
  | [piece] => piece
  | piece :: next :: rest => piece ++ separator ++ joinWith separator (next :: rest)

@[simp] theorem joinWith_nil (separator : Text) : joinWith separator [] = [] := rfl

@[simp] theorem joinWith_singleton (separator piece : Text) :
    joinWith separator [piece] = piece := rfl

@[simp] theorem joinWith_cons_cons (separator piece next : Text) (rest : List Text) :
    joinWith separator (piece :: next :: rest)
      = piece ++ separator ++ joinWith separator (next :: rest) := rfl

/-- The decimal digits of a natural number, most significant first. -/
def ofNat (n : Nat) : Text := Nat.toDigits 10 n

/-- The decimal form of an integer: a minus sign in front of the digits of a negative one. -/
def ofInt : Int → Text
  | .ofNat n => ofNat n
  | .negSucc n => '-' :: ofNat (n + 1)

/-- The natural number that a run of decimal digits writes. -/
def toNat (digits : Text) : Nat := Nat.ofDigitChars 10 digits 0

/-- Reading back the digits of a number gives the number. -/
@[simp] theorem toNat_ofNat (n : Nat) : toNat (ofNat n) = n :=
  Nat.ofDigitChars_toDigits (by decide) (by decide)

/-- The integer that an optional sign and a non-empty run of decimal digits write. -/
def toInt? : Text → Option Int
  | '-' :: digits => if digits ≠ [] ∧ digits.all Char.isDigit then some (-(toNat digits : Int)) else none
  | '+' :: digits => if digits ≠ [] ∧ digits.all Char.isDigit then some (toNat digits) else none
  | digits => if digits ≠ [] ∧ digits.all Char.isDigit then some (toNat digits) else none

end Text

end BulkDml
