import BulkDml.Expr.Rendering
import BulkDml.Proofs.Trimming

/-! # The characters of literals

Literals of absent values, booleans and numbers are bare: letters, digits, minus signs and points, and
nothing that quotes.  Those of texts and blobs stand between apostrophes.

* `isBareChar` — the characters of bare literals;
* `LiteralText` — how the literal of a value is put together;
* `Rendered.literalText_of_toSql` — every literal that is written is put together in one of these ways.
-/

namespace BulkDml

/-- The characters of a literal that stands between no quotes. -/
def isBareChar (c : Char) : Bool := c.isAlphanum || c == '-' || c == '.'

/-- Digits are bare. -/
theorem isBareChar_of_isDigit {c : Char} (h : c.isDigit = true) : isBareChar c = true := by
  simp [isBareChar, Char.isAlphanum, h]

/-- Digits have no lower case. -/
theorem toLower_of_isDigit {c : Char} (h : c.isDigit = true) : c.toLower = c := by
  have hrange := Char.isDigit_iff_toNat.mp h
  unfold Char.toLower
  split
  · next hupper =>
    have hletter : 65 ≤ c.toNat := by simpa [UInt32.le_iff_toNat_le] using hupper.1
    have hdigit : c.toNat ≤ 57 := hrange.2
    omega
  · rfl

/-- The digits of a number are digits. -/
theorem Text.isDigit_of_mem_ofNat {c : Char} {n : Nat} (h : c ∈ Text.ofNat n) : c.isDigit = true :=
  Nat.isDigit_of_mem_toDigits (by decide) (by decide) h

/-- The decimal form of a number is not empty. -/
theorem Text.ofNat_ne_nil (n : Nat) : Text.ofNat n ≠ [] := Nat.toDigits_ne_nil

/-- The decimal form of an integer is bare. -/
theorem Text.isBareChar_of_mem_ofInt {c : Char} {n : Int} (h : c ∈ Text.ofInt n) :
    isBareChar c = true := by
  cases n with
  | ofNat n => exact isBareChar_of_isDigit (Text.isDigit_of_mem_ofNat h)
  | negSucc n =>
    rcases List.mem_cons.mp h with rfl | hdigit
    · decide
    · exact isBareChar_of_isDigit (Text.isDigit_of_mem_ofNat hdigit)

/-! ## Numbers -/

namespace Numeral

/-- Whether only digits stand around the point. -/
structure IsDigits (numeral : Numeral) : Prop where
  /-- Only digits stand in front of the point. -/
  whole : ∀ c ∈ numeral.whole, c.isDigit = true
  /-- Only digits stand behind the point. -/
  fraction : ∀ c ∈ numeral.fraction, c.isDigit = true

/-- The text of a numeral without a plus sign in its exponent is bare. -/
theorem IsDigits.isBareChar_of_mem {numeral : Numeral} (h : numeral.IsDigits) {c : Char}
    (hc : c ∈ numeral.text false) : isBareChar c = true := by
  simp only [text, List.mem_append] at hc
  rcases hc with ((hsign | hwhole) | hfraction) | hexponent
  · -- a minus sign in front, if any
    split at hsign
    · rw [List.mem_singleton] at hsign
      rw [hsign]
      decide
    · cases hsign
  · exact isBareChar_of_isDigit (h.whole c hwhole)
  · -- the point and what stands behind it
    split at hfraction
    · cases hfraction
    · rcases List.mem_cons.mp hfraction with rfl | hdigit
      · decide
      · exact isBareChar_of_isDigit (h.fraction c hdigit)
  · -- the exponent, which has a minus sign at most
    split at hexponent
    · cases hexponent
    · simp only [exponentText, Bool.false_and, Bool.false_eq_true, if_false, List.nil_append]
        at hexponent
      rcases List.mem_cons.mp hexponent with rfl | hdigit
      · decide
      · exact Text.isBareChar_of_mem_ofInt hdigit

end Numeral

namespace FloatLayout

/-- Digits without the zeros that they end in are digits. -/
theorem mem_of_mem_dropTrailingZeros {c : Char} {digits : Text} (h : c ∈ dropTrailingZeros digits) :
    c ∈ digits := by
  rw [dropTrailingZeros, List.mem_reverse] at h
  exact List.mem_reverse.mp ((List.dropWhile_sublist _).subset h)

/-- Digits that are placed around a point stay digits. -/
theorem isDigits_place (layout : FloatLayout) (negative : Bool) {digits : Text} (leading : Int)
    (hdigits : ∀ c ∈ digits, c.isDigit = true) :
    (layout.place negative digits leading).IsDigits := by
  have hzeros : ∀ (n : Nat), ∀ c ∈ List.replicate n '0', c.isDigit = true := by
    intro n c hc
    rw [(List.mem_replicate.mp hc).2]
    decide
  have htake : ∀ (n : Nat), ∀ c ∈ digits.take n, c.isDigit = true := by
    intro n c hc
    exact hdigits c (List.mem_of_mem_take hc)
  have hdrop : ∀ (n : Nat), ∀ c ∈ digits.drop n, c.isDigit = true := by
    intro n c hc
    exact hdigits c (List.mem_of_mem_drop hc)
  unfold place
  split
  · split
    · -- the point stands before all digits, with zeros between
      refine ⟨by simp, ?_⟩
      intro c hc
      rcases List.mem_append.mp hc with hc | hc
      · exact hzeros _ c hc
      · exact hdigits c hc
    · dsimp only
      split
      · -- the point stands behind all digits, with zeros between
        refine ⟨?_, by simp⟩
        intro c hc
        rcases List.mem_append.mp hc with hc | hc
        · exact hdigits c hc
        · exact hzeros _ c hc
      · -- the point stands among the digits
        exact ⟨htake _, hdrop _⟩
  · -- one digit stands before the point, and an exponent behind the others
    exact ⟨htake _, hdrop _⟩

/-- Only digits stand around the point of a number. -/
theorem isDigits_numeral (layout : FloatLayout) (x : Binary64) : (layout.numeral x).IsDigits := by
  unfold numeral
  split
  · exact ⟨by simp, by simp⟩
  · refine isDigits_place layout _ _ ?_
    intro c hc
    exact Text.isDigit_of_mem_ofNat (mem_of_mem_dropTrailingZeros hc)

end FloatLayout

/-- The text of a floating-point number is bare, also of what is not finite. -/
theorem Binary64.isBareChar_of_mem_text {c : Char} {x : Binary64} (h : c ∈ x.text) :
    isBareChar c = true := by
  have hword : ∀ word : Text, word.all isBareChar = true → c ∈ word → isBareChar c = true :=
    fun _ hall => List.all_eq_true.mp hall c
  unfold Binary64.text at h
  split at h
  · exact hword _ (by decide) h
  · split at h
    · split at h
      · exact hword _ (by decide) h
      · exact hword _ (by decide) h
    · exact (FloatLayout.isDigits_numeral _ x).isBareChar_of_mem h

/-- The spelling of a boolean is bare. -/
theorem Dialect.isBareChar_of_mem_booleanLiteral {c : Char} {dialect : Dialect} {value : Bool}
    (h : c ∈ dialect.booleanLiteral value) : isBareChar c = true := by
  have hall : (dialect.booleanLiteral value).all isBareChar = true := by
    cases dialect <;> cases value <;> decide
  exact List.all_eq_true.mp hall c h

/-! ## Literals between apostrophes -/

/-- Doubling a mark changes no text without it. -/
theorem Text.doubling_eq_self {mark : Char} {text : Text} (h : mark ∉ text) :
    Text.doubling mark text = text := by
  induction text with
  | nil => rfl
  | cons c tail ih =>
    rw [List.mem_cons, not_or] at h
    rw [Text.doubling_cons, if_neg (Ne.symm h.1), ih h.2]
    rfl

/-- Marks are doubled in either part of a text. -/
theorem Text.doubling_append (mark : Char) (left right : Text) :
    Text.doubling mark (left ++ right) = Text.doubling mark left ++ Text.doubling mark right :=
  List.flatMap_append

namespace Value

/-- A hexadecimal digit is no apostrophe. -/
theorem hexDigit_ne_apostrophe {n : Nat} (h : n < 16) : hexDigit n ≠ '\'' := by
  decide +revert

/-- The hexadecimal form of bytes has no apostrophe in it. -/
theorem apostrophe_notMem_flatMap_hexByte (bytes : List UInt8) : '\'' ∉ bytes.flatMap hexByte := by
  intro hmem
  obtain ⟨byte, -, hbyte⟩ := List.mem_flatMap.mp hmem
  -- a byte has two digits, either of them below sixteen
  have hlt := byte.toNat_lt
  simp only [hexByte, List.mem_cons, List.not_mem_nil, or_false] at hbyte
  rcases hbyte with hhigh | hlow
  · exact hexDigit_ne_apostrophe (by omega) hhigh.symm
  · exact hexDigit_ne_apostrophe (by omega) hlow.symm

/-- The literal of a blob is that of its hexadecimal form behind an `X`. -/
theorem literal_blob (bytes : List UInt8) :
    (blob bytes).literal = 'X' :: textLiteral (bytes.flatMap hexByte) := by
  rw [textLiteral, Text.doubling_eq_self (apostrophe_notMem_flatMap_hexByte bytes)]
  rfl

end Value

/-- The texts that literals are written as. -/
inductive LiteralText : Text → Prop
  /-- A text of bare characters only. -/
  | bare {text : Text} (h : ∀ c ∈ text, isBareChar c = true) : LiteralText text
  /-- A content between apostrophes. -/
  | text (content : Text) : LiteralText (Value.textLiteral content)
  /-- A content between apostrophes behind an `X`. -/
  | blob (content : Text) : LiteralText ('X' :: Value.textLiteral content)

/-- The literal of a value is bare or stands between apostrophes. -/
theorem Value.literalText_literal (value : Value) : LiteralText value.literal := by
  cases value with
  | null => exact .bare (List.all_eq_true.mp (by decide))
  | bool value => cases value <;> exact .bare (List.all_eq_true.mp (by decide))
  | int n => exact .bare fun _ => Text.isBareChar_of_mem_ofInt
  | float x => exact .bare fun _ => Binary64.isBareChar_of_mem_text
  | text content => exact .text content
  | blob bytes =>
    rw [literal_blob]
    exact .blob _

/-- So is what is written of a value in place. -/
theorem Rendered.literalText_of_toSql {dialect : Dialect} {value : Value} {text : Text}
    (h : (Rendered.literal value).toSql dialect = .ok text) : LiteralText text := by
  cases value with
  | bool value =>
    cases h
    exact .bare fun _ => Dialect.isBareChar_of_mem_booleanLiteral
  | _ =>
    simp only [Rendered.toSql] at h
    split at h
    · cases h
      exact Value.literalText_literal _
    · -- a value without a literal is refused
      cases h

end BulkDml
