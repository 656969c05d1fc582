import BulkDml.Expr.Rendering

/-! # Terms

A term is an expression without its conversions, over leaves of any kind: their texts, their values, or
nothing but their places.  Reading the text of a term back groups operators of one precedence to the left,
so that a right operand that was written without parentheses is taken apart.

* `Expr.term`, `Term.write` — the term of an expression, and the text of a term;
* `Expr.outline`, `Term.map` — the operators of an expression alone, and a term over other leaves;
* `Expr.sql_eq_ok_iff_term` — the text of an expression is that of its term;
* `Term.graft` — a term behind an operand and an operator of the same precedence, read from the left;
* `Term.leftGrouped` — what a term is read as.
-/

namespace BulkDml

/-- Operators over leaves. -/
inductive Term (α : Type) where
  /-- A leaf. -/
  | operand (leaf : α)
  /-- `left op right`. -/
  | binary (op : Operator) (left right : Term α)
deriving DecidableEq

namespace Term

variable {α β : Type}

/-- The same operators over the images of the leaves. -/
def map (f : α → β) : Term α → Term β
  | operand leaf => operand (f leaf)
  | binary op left right => binary op (left.map f) (right.map f)

@[simp] theorem map_binary (f : α → β) (op : Operator) (left right : Term α) :
    (binary op left right).map f = binary op (left.map f) (right.map f) := rfl

/-- How tightly a term binds: as its operator does, and an operand tighter than any operator. -/
def precedence : Term α → Nat
  | operand _ => 10
  | binary op _ _ => op.precedence

@[simp] theorem precedence_operand (leaf : α) : (operand leaf).precedence = 10 := rfl

@[simp] theorem precedence_binary (op : Operator) (left right : Term α) :
    (binary op left right).precedence = op.precedence := rfl

/-- Other leaves bind as tightly. -/
@[simp] theorem precedence_map (f : α → β) (term : Term α) :
    (term.map f).precedence = term.precedence := by
  cases term <;> rfl

/-- No operator binds as tightly as an operand. -/
theorem precedence_lt_operand (op : Operator) : op.precedence < 10 := by
  cases op <;> decide

/-- Whether a term stands in parentheses as an operand of `parent`. -/
def needsParens (parent : Operator) (onRight : Bool) (term : Term α) : Bool :=
  term.precedence < parent.precedence
    || (onRight && term.precedence == parent.precedence && parent.regroups)

/-- The text of a term. -/
def write : Term Text → Text
  | operand text => text
  | binary op left right =>
    Expr.enclose (needsParens op false left) left.write ++ ' ' :: op.sql
      ++ ' ' :: Expr.enclose (needsParens op true right) right.write

@[simp] theorem write_binary (op : Operator) (left right : Term Text) :
    (binary op left right).write
      = Expr.enclose (needsParens op false left) left.write ++ ' ' :: op.sql
        ++ ' ' :: Expr.enclose (needsParens op true right) right.write := rfl

end Term

/-! ## The term of an expression -/

namespace Expr

/-- The term of an expression: conversions are left out, and leaves become their texts. -/
def term (dialect : Dialect) : Expr → Except CompileError (Term Text)
  | binary op left right =>
    if op.isSupported then do
      let leftTerm ← left.term dialect
      let rightTerm ← right.term dialect
      return .binary op leftTerm rightTerm
    else .error (.unsupportedOperator op)
  | converted operand => operand.term dialect
  | column name => return .operand (dialect.quote name)
  | captured _ value | constant value => return .operand (← (Rendered.literal value).toSql dialect)

@[simp] theorem term_column (dialect : Dialect) (name : Text) :
    (column name).term dialect = .ok (.operand (dialect.quote name)) := rfl

/-- A binary expression has the term of its operands. -/
theorem term_binary_eq_ok_iff {dialect : Dialect} {op : Operator} {left right : Expr}
    {term : Term Text} :
    (binary op left right).term dialect = .ok term
      ↔ op.isSupported = true ∧ ∃ leftTerm rightTerm, left.term dialect = .ok leftTerm
          ∧ right.term dialect = .ok rightTerm ∧ term = .binary op leftTerm rightTerm := by
  rw [Expr.term]
  cases op.isSupported with
  | false => simp
  | true =>
    simp only [if_true, bind_eq_ok_iff, true_and]
    constructor
    · rintro ⟨leftTerm, hleft, rightTerm, hright, hterm⟩
      cases hterm
      exact ⟨leftTerm, rightTerm, hleft, hright, rfl⟩
    · rintro ⟨leftTerm, rightTerm, hleft, hright, rfl⟩
      exact ⟨leftTerm, hleft, rightTerm, hright, rfl⟩

/-- Conversions around an expression do not change its term. -/
theorem term_bare (dialect : Dialect) (expr : Expr) : expr.bare.term dialect = expr.term dialect := by
  induction expr with
  | converted operand ih => exact ih
  | _ => rfl

/-- The term of a literal is its text. -/
theorem term_literal_eq_ok_iff {dialect : Dialect} {value : Value} {term : Term Text} :
    (constant value).term dialect = .ok term
      ↔ ∃ text, (Rendered.literal value).toSql dialect = .ok text ∧ term = .operand text := by
  rw [Expr.term, bind_eq_ok_iff]
  constructor
  · rintro ⟨text, htext, hterm⟩
    cases hterm
    exact ⟨text, htext, rfl⟩
  · rintro ⟨text, htext, rfl⟩
    exact ⟨text, htext, rfl⟩

/-- The parentheses around an operand depend on its term only. -/
theorem needsParens_eq_term {dialect : Dialect} {expr : Expr} {term : Term Text}
    (h : expr.term dialect = .ok term) (parent : Operator) (onRight : Bool) :
    needsParens parent onRight expr = Term.needsParens parent onRight term := by
  have hoperand : ∀ text : Text, Term.needsParens parent onRight (.operand text) = false := by
    intro text
    have hlt := Term.precedence_lt_operand parent
    have hle : ¬10 < parent.precedence := by omega
    have hne : ¬10 = parent.precedence := by omega
    simp [Term.needsParens, hle, hne]
  -- what is in question is the expression without the conversions around it, and so is its term
  rw [← term_bare] at h
  unfold needsParens
  cases hbare : expr.bare with
  | binary op left right =>
    rw [hbare] at h
    obtain ⟨-, leftTerm, rightTerm, -, -, rfl⟩ := term_binary_eq_ok_iff.mp h
    rfl
  | column name =>
    rw [hbare] at h
    cases h
    exact (hoperand _).symm
  | captured name value =>
    rw [hbare] at h
    obtain ⟨text, -, rfl⟩ := term_literal_eq_ok_iff.mp h
    exact (hoperand _).symm
  | constant value =>
    rw [hbare] at h
    obtain ⟨text, -, rfl⟩ := term_literal_eq_ok_iff.mp h
    exact (hoperand _).symm
  | converted operand => exact absurd hbare (bare_ne_converted expr operand)

/-- The text of an expression is that of its term. -/
theorem sql_eq_ok_iff_term {dialect : Dialect} {expr : Expr} {text : Text} :
    expr.sql dialect = .ok text ↔ ∃ term, expr.term dialect = .ok term ∧ text = term.write := by
  have hliteral : ∀ value text, (Rendered.literal value).toSql dialect = .ok text
      ↔ ∃ term, (constant value).term dialect = .ok term ∧ text = term.write := by
    intro value text
    simp only [term_literal_eq_ok_iff]
    constructor
    · intro htext
      exact ⟨_, ⟨text, htext, rfl⟩, rfl⟩
    · rintro ⟨term, ⟨written, hwritten, rfl⟩, rfl⟩
      exact hwritten
  induction expr generalizing text with
  | captured name value => exact hliteral value text
  | constant value => exact hliteral value text
  | column name =>
    rw [sql_column, term_column]
    constructor
    · intro htext
      cases htext
      exact ⟨_, rfl, rfl⟩
    · rintro ⟨term, hterm, rfl⟩
      cases hterm
      rfl
  | converted operand ih => exact ih
  | binary op left right ihLeft ihRight =>
    -- operands are written alike on both sides, and the parentheses around them are the same
    rw [sql_binary_eq_ok_iff]
    constructor
    · rintro ⟨hop, leftText, rightText, hleft, hright, rfl⟩
      obtain ⟨leftTerm, hleftTerm, rfl⟩ := ihLeft.mp hleft
      obtain ⟨rightTerm, hrightTerm, rfl⟩ := ihRight.mp hright
      refine ⟨_, term_binary_eq_ok_iff.mpr ⟨hop, leftTerm, rightTerm, hleftTerm, hrightTerm, rfl⟩, ?_⟩
      rw [Term.write_binary, needsParens_eq_term hleftTerm, needsParens_eq_term hrightTerm]
    · rintro ⟨term, hterm, rfl⟩
      obtain ⟨hop, leftTerm, rightTerm, hleftTerm, hrightTerm, rfl⟩ := term_binary_eq_ok_iff.mp hterm
      refine ⟨hop, leftTerm.write, rightTerm.write, ihLeft.mpr ⟨leftTerm, hleftTerm, rfl⟩,
        ihRight.mpr ⟨rightTerm, hrightTerm, rfl⟩, ?_⟩
      rw [Term.write_binary, needsParens_eq_term hleftTerm, needsParens_eq_term hrightTerm]

/-- The operators of an expression, over nothing but the places of its leaves. -/
def outline : Expr → Term Unit
  | binary op left right => .binary op left.outline right.outline
  | converted operand => operand.outline
  | column _ | captured _ _ | constant _ => .operand ()

@[simp] theorem outline_binary (op : Operator) (left right : Expr) :
    (binary op left right).outline = .binary op left.outline right.outline := rfl

/-- The term of an expression has its operators. -/
theorem map_term_eq_outline {dialect : Dialect} {expr : Expr} {term : Term Text}
    (h : expr.term dialect = .ok term) : term.map (fun _ => ()) = expr.outline := by
  induction expr generalizing term with
  | captured name value =>
    obtain ⟨text, -, rfl⟩ := term_literal_eq_ok_iff.mp h
    rfl
  | column name =>
    cases h
    rfl
  | constant value =>
    obtain ⟨text, -, rfl⟩ := term_literal_eq_ok_iff.mp h
    rfl
  | converted operand ih => exact ih h
  | binary op left right ihLeft ihRight =>
    obtain ⟨-, leftTerm, rightTerm, hleft, hright, rfl⟩ := term_binary_eq_ok_iff.mp h
    rw [Term.map_binary, ihLeft hleft, ihRight hright]
    rfl

end Expr

/-! ## Reading from the left -/

namespace Term

variable {α β : Type}

/-- `left op term`, where `term` is not in parentheses: its operators of the same precedence apply to
`left` and what stands in front of them. -/
def graft (left : Term α) (op : Operator) : Term α → Term α
  | operand leaf => binary op left (operand leaf)
  | binary inner first last =>
    if inner.precedence = op.precedence then binary inner (graft left op first) last
    else binary op left (binary inner first last)

@[simp] theorem graft_operand (left : Term α) (op : Operator) (leaf : α) :
    graft left op (operand leaf) = binary op left (operand leaf) := rfl

/-- A term with an operator of another precedence is one operand. -/
theorem graft_binary_of_ne (left : Term α) {op inner : Operator}
    (h : inner.precedence ≠ op.precedence) (first last : Term α) :
    graft left op (binary inner first last) = binary op left (binary inner first last) :=
  if_neg h

/-- A term that binds differently is not taken apart. -/
theorem graft_of_precedence_ne (left : Term α) {op : Operator} {term : Term α}
    (h : term.precedence ≠ op.precedence) : graft left op term = binary op left term := by
  cases term with
  | operand leaf => rfl
  | binary inner first last => exact graft_binary_of_ne left h first last

/-- A term with an operator of the same precedence goes on behind its first operand. -/
theorem graft_binary (left : Term α) {op inner : Operator} (h : inner.precedence = op.precedence)
    (first last : Term α) :
    graft left op (binary inner first last) = binary inner (graft left op first) last :=
  if_pos h

/-- What is read binds as its operators do. -/
theorem precedence_graft (left : Term α) (op : Operator) (term : Term α) :
    (graft left op term).precedence = op.precedence := by
  cases term with
  | operand leaf => rfl
  | binary inner first last =>
    by_cases hsame : inner.precedence = op.precedence
    · rw [graft_binary left hsame]
      exact hsame
    · rw [graft_binary_of_ne left hsame]
      rfl

/-- Reading from the left does not depend on where it is interrupted. -/
theorem graft_graft (left middle last : Term α) {op inner : Operator}
    (h : inner.precedence = op.precedence) :
    graft left op (graft middle inner last) = graft (graft left op middle) inner last := by
  induction last with
  | operand leaf => exact graft_binary left h middle (operand leaf)
  | binary innermost first second ih =>
    -- `last` is taken apart behind `middle` exactly if it is taken apart behind all that is read
    by_cases hsame : innermost.precedence = inner.precedence
    · rw [graft_binary middle hsame, graft_binary _ hsame, graft_binary left (hsame.trans h), ih]
    · rw [graft_binary_of_ne _ hsame, graft_binary_of_ne _ hsame, graft_binary left h]

/-- `left op term`, where `term` stands in parentheses only if it needs them. -/
def attach (left : Term α) (op : Operator) (term : Term α) : Term α :=
  if op.regroups then binary op left term else graft left op term

/-- Behind an operator that regroups, a term stands in parentheses. -/
theorem attach_of_regroups (left term : Term α) {op : Operator} (h : op.regroups = true) :
    attach left op term = binary op left term :=
  if_pos h

/-- Behind any other operator, a term is taken apart. -/
theorem attach_of_not_regroups (left term : Term α) {op : Operator} (h : op.regroups = false) :
    attach left op term = graft left op term :=
  if_neg (by rw [h]; decide)

/-- What a term is read as: right operands that stand in no parentheses are taken apart. -/
def leftGrouped : Term α → Term α
  | operand leaf => operand leaf
  | binary op left right => attach left.leftGrouped op right.leftGrouped

@[simp] theorem leftGrouped_binary (op : Operator) (left right : Term α) :
    (binary op left right).leftGrouped = attach left.leftGrouped op right.leftGrouped := rfl

/-- What is attached binds as its operator does. -/
theorem precedence_attach (left : Term α) (op : Operator) (term : Term α) :
    (attach left op term).precedence = op.precedence := by
  cases hregroups : op.regroups with
  | true => rw [attach_of_regroups left term hregroups, precedence_binary]
  | false => rw [attach_of_not_regroups left term hregroups, precedence_graft]

/-- Reading keeps how tightly a term binds. -/
@[simp] theorem precedence_leftGrouped (term : Term α) :
    term.leftGrouped.precedence = term.precedence := by
  cases term with
  | operand leaf => rfl
  | binary op left right => exact precedence_attach _ op _

/-- A term that was attached behind another one can be attached in two steps. -/
theorem graft_attach (left middle last : Term α) {op inner : Operator}
    (h : inner.precedence = op.precedence) :
    graft left op (attach middle inner last) = attach (graft left op middle) inner last := by
  cases hregroups : inner.regroups with
  | true =>
    rw [attach_of_regroups _ last hregroups, attach_of_regroups _ last hregroups, graft_binary left h]
  | false =>
    rw [attach_of_not_regroups _ last hregroups, attach_of_not_regroups _ last hregroups,
      graft_graft left middle last h]

/-- A term that binds differently is attached as it is. -/
theorem attach_of_precedence_ne (left : Term α) {op : Operator} {term : Term α}
    (h : term.precedence ≠ op.precedence) : attach left op term = binary op left term := by
  cases hregroups : op.regroups with
  | true => exact attach_of_regroups left term hregroups
  | false => rw [attach_of_not_regroups left term hregroups, graft_of_precedence_ne left h]

/-- Taking a term apart does not look at its leaves. -/
theorem map_graft (f : α → β) (left : Term α) (op : Operator) (term : Term α) :
    (graft left op term).map f = graft (left.map f) op (term.map f) := by
  induction term with
  | operand leaf => rfl
  | binary inner first last ih =>
    by_cases hsame : inner.precedence = op.precedence
    · rw [graft_binary left hsame, map_binary, map_binary, graft_binary _ hsame, ih]
    · rw [graft_binary_of_ne left hsame, map_binary, map_binary, graft_binary_of_ne _ hsame]

/-- Grouping to the left does not look at the leaves. -/
theorem map_leftGrouped (f : α → β) (term : Term α) :
    term.leftGrouped.map f = (term.map f).leftGrouped := by
  induction term with
  | operand leaf => rfl
  | binary op left right ihLeft ihRight =>
    rw [map_binary, leftGrouped_binary, leftGrouped_binary, ← ihLeft, ← ihRight]
    cases hregroups : op.regroups with
    | true => rw [attach_of_regroups _ _ hregroups, attach_of_regroups _ _ hregroups, map_binary]
    | false =>
      rw [attach_of_not_regroups _ _ hregroups, attach_of_not_regroups _ _ hregroups, map_graft]

end Term

end BulkDml
