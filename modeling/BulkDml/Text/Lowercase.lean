import BulkDml.Text.LetterCase

/-! # Lower case

The full lower-case form of a text.  Two rules make it more than a map over characters: a dotted
capital `İ` becomes two characters, and a capital sigma becomes `ς` at the end of a word and `σ`
elsewhere, where a word ends if a letter stands before the sigma and none after it, marks on the way
stepped over.
-/

namespace BulkDml

/-- The lower-case form of a character by itself; every form but that of `İ` is one character. -/
def lowercaseChar (c : Char) : Text :=
  if c = 'İ' then ['i', '\u0307']
  else match lowercaseRuns.find? (·.holds c.toNat) with
    | some run => [Char.ofNat ((c.toNat : Int) + run.shift).toNat]
    | none => [c]

/-- Whether a text, case-ignorable characters aside, starts with a cased character. -/
def startsCased (text : Text) : Bool :=
  match text.dropWhile isCaseIgnorable with
  | [] => false
  | c :: _ => isCased c

@[simp] theorem startsCased_nil : startsCased [] = false := rfl

/-- The lower-case form of a capital sigma between the text `before`, nearest character first, and the
text `after`. -/
def lowercaseSigma (before after : Text) : Char :=
  if startsCased before && !startsCased after then 'ς' else 'σ'

namespace Text

/-- The lower-case form of a text that follows `before`, whose characters come nearest first. -/
def lowercaseAfter (before : Text) : Text → Text
  | [] => []
  | c :: rest =>
    (if c = 'Σ' then [lowercaseSigma before rest] else lowercaseChar c)
      ++ lowercaseAfter (c :: before) rest

/-- The full lower-case form of a text. -/
def lowercase (text : Text) : Text := lowercaseAfter [] text

@[simp] theorem lowercase_nil : lowercase [] = [] := rfl

example : lowercase ['Ο', 'Δ', 'Ο', 'Σ'] = ['ο', 'δ', 'ο', 'ς'] := by decide +kernel
example : lowercase ['Σ'] = ['σ'] := by decide +kernel
example : lowercase ['İ', 'd'] = ['i', '\u0307', 'd'] := by decide +kernel

end Text

end BulkDml
