import BulkDml.Proofs.RegroupedProduct
import BulkDml.Proofs.TermReader

/-! # Written arithmetic and its value

The text of an arithmetic expression over the columns of a row is read back by the rules of SQL and its
value compared with that of the expression.  The two agree for every row exactly if no product has a
division or remainder in the part of its right operand that stands in no parentheses of its own.

* `Expr.value?` — the value of an expression for a row;
* `readValue?` — the value of a text for a row;
* `Expr.exists_sql_of_isArithmetic` — arithmetic is always written, and read as the term grouped to the
  left;
* `Expr.readValue?_sql_iff` — the arrangements of operators that keep their value for every row.
-/

namespace BulkDml

/-! ## Reading leaves -/

/-- The name between quotes: everything up to the first closing quote that is not doubled. -/
def Text.unquote (close : Char) : Text → Text
  | [] => []
  | [c] => if c = close then [] else [c]
  | c :: d :: rest =>
    if c = close then
      if d = close then c :: Text.unquote close rest else []
    else c :: Text.unquote close (d :: rest)

/-- Unquoting undoes quoting. -/
theorem Text.unquote_doubling (close : Char) (name : Text) :
    Text.unquote close (Text.doubling close name ++ [close]) = name := by
  induction name with
  | nil => simp [Text.unquote]
  | cons c tail ih =>
    rw [Text.doubling_cons]
    by_cases hc : c = close
    · subst hc
      simp only [if_true, List.cons_append, List.nil_append]
      rw [Text.unquote, if_pos rfl, if_pos rfl, ih]
    · -- the closing quote follows `c` if nothing else does
      simp only [if_neg hc, List.cons_append, List.nil_append]
      obtain ⟨d, more, hmore⟩ := List.exists_cons_of_ne_nil
        (List.append_ne_nil_of_right_ne_nil (Text.doubling close tail) (List.cons_ne_nil close []))
      rw [hmore, Text.unquote, if_neg hc, ← hmore, ih]

/-- The decimal form of an integer is read as the integer. -/
@[simp] theorem Text.toInt?_ofInt (n : Int) : Text.toInt? (Text.ofInt n) = some n := by
  have hall : ∀ m : Nat, (Text.ofNat m).all Char.isDigit = true := by
    intro m
    exact List.all_eq_true.mpr fun c hc => Text.isDigit_of_mem_ofNat hc
  cases n with
  | negSucc m =>
    rw [Text.ofInt, Text.toInt?, if_pos ⟨Text.ofNat_ne_nil _, hall _⟩, Text.toNat_ofNat]
    rfl
  | ofNat m =>
    rw [Text.ofInt]
    unfold Text.toInt?
    -- digits start with no sign
    split
    · next digits hdigits =>
      have hsign := hall m
      rw [hdigits] at hsign
      cases hsign
    · next digits hdigits =>
      have hsign := hall m
      rw [hdigits] at hsign
      cases hsign
    · rw [if_pos ⟨Text.ofNat_ne_nil m, hall m⟩, Text.toNat_ofNat]
      rfl

/-- The value of an operand for a row: that of the column whose name stands between quotes, or else that of
the number that is written. -/
def operandValue? (dialect : Dialect) (row : Text → Int) : Text → Option Int
  | [] => none
  | c :: rest =>
    if c = dialect.openQuote then some (row (Text.unquote dialect.closeQuote rest))
    else Text.toInt? (c :: rest)

/-- A quoted name has the value of the column. -/
theorem operandValue?_quote (dialect : Dialect) (row : Text → Int) (name : Text) :
    operandValue? dialect row (dialect.quote name) = some (row name) := by
  rw [Dialect.quote, List.cons_append, operandValue?, if_pos rfl, Text.unquote_doubling]

/-- A written number has its own value. -/
theorem operandValue?_ofInt (dialect : Dialect) (row : Text → Int) (n : Int) :
    operandValue? dialect row (Text.ofInt n) = some n := by
  obtain ⟨c, tail, hdigits, -⟩ := Term.exists_isOperand_ofInt dialect n
  have hbare : isBareChar c = true := by
    refine Text.isBareChar_of_mem_ofInt (n := n) ?_
    rw [hdigits]
    exact List.mem_cons_self
  have hopen : c ≠ dialect.openQuote := by
    rintro rfl
    cases dialect <;> exact absurd hbare (by decide)
  rw [hdigits, operandValue?, if_neg hopen, ← hdigits, Text.toInt?_ofInt]

/-- The value of a text for a row. -/
def readValue? (dialect : Dialect) (row : Text → Int) (text : Text) : Option Int :=
  (Term.read? dialect text).bind fun term => term.value? (operandValue? dialect row)

/-! ## Arithmetic expressions -/

namespace Expr

/-- Whether an expression computes a number from columns and integers. -/
def isArithmetic : Expr → Bool
  | binary op left right => op.isArithmetic && left.isArithmetic && right.isArithmetic
  | column _ => true
  | captured _ (.int _) | constant (.int _) => true
  | captured _ _ | constant _ => false
  | converted operand => operand.isArithmetic

@[simp] theorem isArithmetic_binary (op : Operator) (left right : Expr) :
    (binary op left right).isArithmetic
      = (op.isArithmetic && left.isArithmetic && right.isArithmetic) := rfl

/-- The value of an expression for a row. -/
def value? (row : Text → Int) : Expr → Option Int
  | binary op left right => op.combine (left.value? row) (right.value? row)
  | column name => some (row name)
  | captured _ (.int n) | constant (.int n) => some n.toInt
  | captured _ _ | constant _ => none
  | converted operand => operand.value? row

@[simp] theorem value?_binary (row : Text → Int) (op : Operator) (left right : Expr) :
    (binary op left right).value? row = op.combine (left.value? row) (right.value? row) := rfl

@[simp] theorem value?_column (row : Text → Int) (name : Text) :
    (column name).value? row = some (row name) := rfl

/-- An arithmetic expression has a term that is written and has its value. -/
theorem exists_term_of_isArithmetic (dialect : Dialect) {expr : Expr} (h : expr.isArithmetic = true) :
    ∃ term, expr.term dialect = .ok term ∧ term.IsWritten dialect
      ∧ ∀ row, term.value? (operandValue? dialect row) = expr.value? row := by
  have hint : ∀ n : Int64,
      (Term.operand (Text.ofInt n.toInt)).IsWritten dialect
        ∧ ∀ row, operandValue? dialect row (Text.ofInt n.toInt) = some n.toInt := by
    intro n
    refine ⟨?_, ?_⟩
    · -- the number is written as one operand
      obtain ⟨c, tail, hdigits, hoperand⟩ := Term.exists_isOperand_ofInt dialect n.toInt
      rw [hdigits]
      exact hoperand
    · intro row
      exact operandValue?_ofInt dialect row n.toInt
  induction expr with
  | column name =>
    refine ⟨.operand (dialect.quote name), rfl, Term.isOperand_quote dialect name, ?_⟩
    intro row
    exact operandValue?_quote dialect row name
  | captured name value =>
    cases value
    case int n => exact ⟨.operand (Text.ofInt n.toInt), rfl, (hint n).1, (hint n).2⟩
    all_goals cases h
  | constant value =>
    cases value
    case int n => exact ⟨.operand (Text.ofInt n.toInt), rfl, (hint n).1, (hint n).2⟩
    all_goals cases h
  | converted operand ih => exact ih h
  | binary op left right ihLeft ihRight =>
    simp only [isArithmetic_binary, Bool.and_eq_true] at h
    obtain ⟨leftTerm, hleft, hleftWritten, hleftValue⟩ := ihLeft h.1.2
    obtain ⟨rightTerm, hright, hrightWritten, hrightValue⟩ := ihRight h.2
    have hop := Operator.isSupported_of_isArithmetic h.1.1
    refine ⟨.binary op leftTerm rightTerm,
      term_binary_eq_ok_iff.mpr ⟨hop, leftTerm, rightTerm, hleft, hright, rfl⟩,
      ⟨hop, hleftWritten, hrightWritten⟩, ?_⟩
    intro row
    rw [Term.value?_binary, hleftValue row, hrightValue row, value?_binary]

/-- **Arithmetic is always written, and read as its term grouped to the left.** -/
theorem exists_sql_of_isArithmetic (dialect : Dialect) {expr : Expr}
    (h : expr.isArithmetic = true) :
    ∃ term : Term Text, expr.term dialect = .ok term ∧ expr.sql dialect = .ok term.write
      ∧ ∀ row, term.value? (operandValue? dialect row) = expr.value? row
        ∧ readValue? dialect row term.write
          = term.leftGrouped.value? (operandValue? dialect row) := by
  obtain ⟨term, hterm, hwritten, hvalue⟩ := exists_term_of_isArithmetic dialect h
  refine ⟨term, hterm, sql_eq_ok_iff_term.mpr ⟨term, hterm, rfl⟩, ?_⟩
  intro row
  have hread : readValue? dialect row term.write
      = term.leftGrouped.value? (operandValue? dialect row) := by
    rw [readValue?, Term.read?_write hwritten]
    rfl
  exact ⟨hvalue row, hread⟩

end Expr

/-! ## Arrangements that keep their value -/

/-- The expression with the given operators over columns that are named after the given numbers. -/
def Term.overColumns : Term Int → Expr
  | operand value => .column (Text.ofInt value)
  | binary op left right => .binary op left.overColumns right.overColumns

@[simp] theorem Term.overColumns_operand (value : Int) :
    (operand value).overColumns = .column (Text.ofInt value) := rfl

@[simp] theorem Term.overColumns_binary (op : Operator) (left right : Term Int) :
    (binary op left right).overColumns = .binary op left.overColumns right.overColumns := rfl

/-- The row in which every column that is named after a number has this number as value. -/
def numberedRow (name : Text) : Int := (Text.toInt? name).getD 0

namespace Term

/-- Over columns, the operators are those of the term. -/
theorem outline_overColumns (term : Term Int) : term.overColumns.outline = term.arrangement := by
  induction term with
  | operand value => rfl
  | binary op left right ihLeft ihRight =>
    rw [overColumns_binary, Expr.outline_binary, ihLeft, ihRight, arrangement_binary]

/-- Over columns, a term with arithmetic operators is arithmetic. -/
theorem isArithmetic_overColumns {term : Term Int} (h : term.arrangement.isArithmetic = true) :
    term.overColumns.isArithmetic = true := by
  induction term with
  | operand value => rfl
  | binary op left right ihLeft ihRight =>
    simp only [arrangement_binary, isArithmetic_binary, Bool.and_eq_true] at h
    rw [overColumns_binary, Expr.isArithmetic_binary, h.1.1, ihLeft h.1.2, ihRight h.2]
    rfl

/-- In the numbered row, a term over columns has the value of the term over numbers. -/
theorem value?_overColumns (term : Term Int) : term.overColumns.value? numberedRow = term.number? := by
  induction term with
  | operand value =>
    rw [overColumns_operand, Expr.value?_column, numberedRow, Text.toInt?_ofInt]
    rfl
  | binary op left right ihLeft ihRight =>
    rw [overColumns_binary, Expr.value?_binary, ihLeft, ihRight, number?_binary]

/-- The term of a term over columns is the term over the names of the columns. -/
theorem term_overColumns (dialect : Dialect) {term : Term Int}
    (h : term.arrangement.isArithmetic = true) :
    term.overColumns.term dialect
      = .ok (term.map fun value => dialect.quote (Text.ofInt value)) := by
  induction term with
  | operand value => rfl
  | binary op left right ihLeft ihRight =>
    simp only [arrangement_binary, isArithmetic_binary, Bool.and_eq_true] at h
    exact Expr.term_binary_eq_ok_iff.mpr
      ⟨Operator.isSupported_of_isArithmetic h.1.1, _, _, ihLeft h.1.2, ihRight h.2, rfl⟩

/-- In the numbered row, the text of a term over columns is read with the number that the term is read
with. -/
theorem readValue?_overColumns {dialect : Dialect} {term : Term Int}
    (h : term.arrangement.isArithmetic = true) {text : Text}
    (htext : term.overColumns.sql dialect = .ok text) :
    readValue? dialect numberedRow text = term.readNumber? := by
  obtain ⟨written, hterm, hsql, hread⟩ :=
    Expr.exists_sql_of_isArithmetic dialect (isArithmetic_overColumns h)
  rw [htext] at hsql
  rw [term_overColumns dialect h] at hterm
  cases hsql
  cases hterm
  have hleaf : (operandValue? dialect numberedRow ∘ fun value => dialect.quote (Text.ofInt value))
      = some := by
    funext value
    rw [Function.comp_apply, operandValue?_quote, numberedRow, Text.toInt?_ofInt]
    rfl
  rw [(hread numberedRow).2, ← map_leftGrouped, value?_map, hleaf]
  rfl

end Term

namespace Expr

/-- **An arrangement of arithmetic operators keeps its value in every text and every row** exactly if it is
safe: no division and no remainder is taken out of the right operand of a product. -/
theorem readValue?_sql_iff {shape : Term Unit} (hshape : shape.isArithmetic = true) :
    (∀ expr : Expr, expr.isArithmetic = true → expr.outline = shape → ∀ dialect row,
        ∃ text, expr.sql dialect = .ok text ∧ readValue? dialect row text = expr.value? row) ↔
      shape.isSafe = true := by
  constructor
  · intro hkeeps
    cases hsafe : shape.isSafe with
    | true => rfl
    | false =>
      -- an expression over numbered columns, and a row, for which the text has another value
      obtain ⟨term, value, read, rfl, hterm, hapart⟩ :=
        Term.canBeMisread_of_isSafe_eq_false hshape hsafe 1 (by decide)
      obtain ⟨text, htext, hvalue⟩ := hkeeps term.overColumns (Term.isArithmetic_overColumns hshape)
        (Term.outline_overColumns term) .sqlServer numberedRow
      rw [Term.readValue?_overColumns hshape htext, Term.value?_overColumns, hterm.read, hterm.number]
        at hvalue
      obtain ⟨-, -, hdistance⟩ := hapart
      have hsame : read = value := Option.some.inj hvalue
      omega
  · rintro hsafe expr hexpr rfl dialect row
    obtain ⟨term, hterm, hsql, hvalue⟩ := exists_sql_of_isArithmetic dialect hexpr
    have harithmetic : term.isArithmetic = true := by
      rw [← Term.isArithmetic_map fun _ => (), map_term_eq_outline hterm]
      exact hshape
    have hsafeTerm : term.isSafe = true := by
      rw [← Term.isSafe_map fun _ => (), map_term_eq_outline hterm]
      exact hsafe
    refine ⟨term.write, hsql, ?_⟩
    rw [(hvalue row).2, Term.value?_leftGrouped _ harithmetic hsafeTerm, (hvalue row).1]

/-- The values of the columns `A`, `B` and `C` in the rows below: two, three and two. -/
def shareRow (name : Text) : Int := if name = "B".toList then 3 else 2

/-- `(A + B) * C - B / C`. -/
def scaledSum : Expr :=
  .binary .sub
    (.binary .mul (.converted (.binary .add (.column "A".toList) (.column "B".toList)))
      (.column "C".toList))
    (.binary .div (.column "B".toList) (.column "C".toList))

/-- The text of `scaledSum` has its value: no quotient stands behind a product. -/
theorem readValue?_scaledSum :
    ∃ text, scaledSum.sql .mySql = .ok text
      ∧ readValue? .mySql shareRow text = scaledSum.value? shareRow :=
  have harithmetic : scaledSum.outline.isArithmetic = true := by decide
  (readValue?_sql_iff harithmetic).mpr (by decide) scaledSum (by decide) rfl .mySql shareRow

/-- `A * (B / C)`. -/
def shareOfProduct : Expr :=
  .binary .mul (.column "A".toList) (.binary .div (.column "B".toList) (.column "C".toList))

/-- The quotient in `shareOfProduct` stands in no parentheses, and its text multiplies first. -/
theorem readValue?_shareOfProduct :
    shareOfProduct.isArithmetic = true
      ∧ shareOfProduct.sql .sqlServer = .ok "[A] * [B] / [C]".toList
      ∧ readValue? .sqlServer shareRow "[A] * [B] / [C]".toList = some 3
      ∧ shareOfProduct.value? shareRow = some 2 := by
  refine ⟨rfl, rfl, ?_, by decide⟩
  decide +kernel

end Expr

end BulkDml
