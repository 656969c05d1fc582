import BulkDml.Proofs.ClauseNumbering

/-! # Which expressions are rejected

Two things in an expression cannot be written into a statement: an operator that is not supported, and an
operand that is a number but not a finite one.  A number that is no operand is bound to a parameter and may be
anything.  The cause of a rejection is the first that is met from left to right.

* `Expr.IsPartOf`, `Expr.IsNonFinite` — the parts of an expression, and what is no operand;
* `Expr.checks` — what is looked at in an expression, in order;
* `Expr.offence?` — the cause for which the first of these checks fails;
* `FailsAs` — computations that fail for a given cause, or succeed if there is none;
* `rejection_law` — the expressions, assignments and updates that are rejected, and for which cause.
-/

namespace BulkDml

/-! ## Computations and their causes -/

/-- Whether a computation fails for the given cause, or succeeds if none is given. -/
def FailsAs {ε α : Type} (cause? : Option ε) (outcome : Except ε α) : Prop :=
  match cause? with
  | some cause => outcome = .error cause
  | none => ∃ result, outcome = .ok result

namespace FailsAs

variable {ε α β : Type} {first? next? : Option ε} {outcome : Except ε α}

/-- A computation fails for the cause that it has, and for no other. -/
theorem eq_error_iff (h : FailsAs first? outcome) {cause : ε} :
    outcome = .error cause ↔ first? = some cause := by
  cases first? with
  | some found =>
    obtain rfl : outcome = .error found := h
    rw [Except.error.injEq, Option.some.injEq]
  | none =>
    obtain ⟨result, rfl⟩ := h
    exact iff_of_false (fun h => nomatch h) (fun h => nomatch h)

/-- A computation in two steps fails for the cause of its first step, and for that of the second if the first
has none. -/
theorem bind (hfirst : FailsAs first? outcome) {step : α → Except ε β}
    (hnext : ∀ result, outcome = .ok result → FailsAs next? (step result)) :
    FailsAs (first?.or next?) (outcome >>= step) := by
  cases first? with
  | some cause =>
    obtain rfl : outcome = .error cause := hfirst
    rfl
  | none =>
    obtain ⟨result, rfl⟩ := hfirst
    exact hnext result rfl

end FailsAs

namespace Expr

/-! ## Parts of an expression -/

/-- Whether an expression is another one or a part of it. -/
inductive IsPartOf (part : Expr) : Expr → Prop where
  /-- Every expression is a part of itself. -/
  | self : IsPartOf part part
  /-- Parts of a left operand are parts of the whole. -/
  | left {op : Operator} {operand other : Expr} (h : IsPartOf part operand) :
    IsPartOf part (.binary op operand other)
  /-- Parts of a right operand are parts of the whole. -/
  | right {op : Operator} {operand other : Expr} (h : IsPartOf part operand) :
    IsPartOf part (.binary op other operand)
  /-- Parts of what is converted are parts of the whole. -/
  | converted {operand : Expr} (h : IsPartOf part operand) : IsPartOf part (.converted operand)

/-- Whether an expression is a number that is not finite, under conversions or not. -/
def IsNonFinite (expr : Expr) : Prop :=
  ∃ x : Binary64, expr.literal? = some (.float x) ∧ (x.isNaN = true ∨ x.isInfinite = true)

/-! ## What is looked at -/

/-- Something that is looked at when an expression is written. -/
inductive Check where
  /-- Whether an operator can be written. -/
  | operator (op : Operator)
  /-- Whether an operand can be written, apart from its own parts. -/
  | operand (expr : Expr)

/-- The cause for which a check fails, if it does. -/
def Check.cause? : Check → Option CompileError
  | operator op => if op.isSupported then none else some (.unsupportedOperator op)
  | operand expr =>
    match expr.literal? with
    | some (.float x) => if x.isFinite then none else some (.nonFiniteLiteral x.text)
    | _ => none

/-- What is looked at in an expression, in order: the operator, the parts of the left operand, the left operand
itself, the parts of the right operand, and the right operand itself. -/
def checks : Expr → List Check
  | binary op left right =>
    .operator op :: (left.checks ++ .operand left :: (right.checks ++ [.operand right]))
  | converted operand => operand.checks
  | column _ | captured _ _ | constant _ => []

/-- The cause for which the first of the checks fails, if one does. -/
def offence? (expr : Expr) : Option CompileError := expr.checks.findSome? Check.cause?

/-- The same for an expression in the place of an operand. -/
def operandOffence? (expr : Expr) : Option CompileError := expr.offence?.or (Check.operand expr).cause?

/-- The operator of a binary expression comes first, then the left operand, then the right one. -/
theorem offence?_binary (op : Operator) (left right : Expr) :
    (binary op left right).offence?
      = (Check.operator op).cause?.or (left.operandOffence?.or right.operandOffence?) := by
  have hcons : ∀ (check : Check) (rest : List Check),
      (check :: rest).findSome? Check.cause? = check.cause?.or (rest.findSome? Check.cause?) := by
    intro check rest
    rw [List.findSome?_cons]
    cases check.cause? <;> rfl
  simp only [offence?, operandOffence?, checks, hcons, List.findSome?_append, List.findSome?_nil,
    Option.or_none, Option.or_assoc]

/-- The operators and operands that are looked at are those of the binary parts. -/
theorem mem_checks_iff {check : Check} {expr : Expr} :
    check ∈ expr.checks ↔ ∃ op left right, IsPartOf (.binary op left right) expr
      ∧ (check = .operator op ∨ check = .operand left ∨ check = .operand right) := by
  constructor
  · intro h
    induction expr with
    | binary op left right hleft hright =>
      simp only [checks, List.mem_cons, List.mem_append, List.not_mem_nil, or_false] at h
      rcases h with rfl | hmem | rfl | hmem | rfl
      · exact ⟨op, left, right, .self, .inl rfl⟩
      · obtain ⟨inner, one, other, hpart, hcheck⟩ := hleft hmem
        exact ⟨inner, one, other, .left hpart, hcheck⟩
      · exact ⟨op, left, right, .self, .inr (.inl rfl)⟩
      · obtain ⟨inner, one, other, hpart, hcheck⟩ := hright hmem
        exact ⟨inner, one, other, .right hpart, hcheck⟩
      · exact ⟨op, left, right, .self, .inr (.inr rfl)⟩
    | converted operand ih =>
      obtain ⟨inner, one, other, hpart, hcheck⟩ := ih h
      exact ⟨inner, one, other, .converted hpart, hcheck⟩
    | column name => cases h
    | captured name value => cases h
    | constant value => cases h
  · rintro ⟨op, left, right, hpart, hcheck⟩
    induction hpart with
    | self => rcases hcheck with rfl | rfl | rfl <;> simp [checks]
    | left _ ih => simp [checks, ih]
    | right _ ih => simp [checks, ih]
    | converted _ ih => exact ih

/-- An operand fails to be written exactly if it is a number that is not finite. -/
theorem exists_cause?_operand_iff {expr : Expr} :
    (∃ cause, (Check.operand expr).cause? = some cause) ↔ expr.IsNonFinite := by
  have hfinite : ∀ x : Binary64, x.isFinite = false ↔ x.isNaN = true ∨ x.isInfinite = true := by
    intro x
    simp only [Binary64.isFinite, Binary64.isNaN, Binary64.isInfinite, decide_eq_false_iff_not,
      decide_eq_true_eq, beq_iff_eq]
    omega
  rw [IsNonFinite, Check.cause?]
  constructor
  · rintro ⟨cause, hcause⟩
    split at hcause
    · next x hvalue =>
      refine ⟨x, hvalue, (hfinite x).mp ?_⟩
      cases hx : x.isFinite with
      | false => rfl
      | true => simp [hx] at hcause
    · cases hcause
  · rintro ⟨x, hvalue, hx⟩
    rw [hvalue]
    exact ⟨_, if_neg (by simp [(hfinite x).mpr hx])⟩

/-- There is a cause of rejection exactly if a binary part has an operator that is not supported or an operand
that is not finite. -/
theorem exists_offence?_iff {expr : Expr} :
    (∃ cause, expr.offence? = some cause)
      ↔ ∃ op left right, IsPartOf (.binary op left right) expr
        ∧ (op.isSupported = false ∨ left.IsNonFinite ∨ right.IsNonFinite) := by
  have hoperator : ∀ op : Operator,
      (∃ cause, (Check.operator op).cause? = some cause) ↔ op.isSupported = false := by
    intro op
    cases hop : op.isSupported <;> simp [Check.cause?, hop]
  rw [offence?, ← Option.isSome_iff_exists, List.findSome?_isSome_iff]
  constructor
  · rintro ⟨check, hmem, hcause⟩
    rw [Option.isSome_iff_exists] at hcause
    obtain ⟨op, left, right, hpart, rfl | rfl | rfl⟩ := mem_checks_iff.mp hmem
    · exact ⟨op, left, right, hpart, .inl ((hoperator op).mp hcause)⟩
    · exact ⟨op, left, right, hpart, .inr (.inl (exists_cause?_operand_iff.mp hcause))⟩
    · exact ⟨op, left, right, hpart, .inr (.inr (exists_cause?_operand_iff.mp hcause))⟩
  · rintro ⟨op, left, right, hpart, hoffends⟩
    have hchecked : ∀ check : Check,
        (check = .operator op ∨ check = .operand left ∨ check = .operand right) →
          check ∈ expr.checks :=
      fun check hcheck => mem_checks_iff.mpr ⟨op, left, right, hpart, hcheck⟩
    simp only [Option.isSome_iff_exists]
    rcases hoffends with hop | hleft | hright
    · exact ⟨_, hchecked _ (.inl rfl), (hoperator op).mpr hop⟩
    · exact ⟨_, hchecked _ (.inr (.inl rfl)), exists_cause?_operand_iff.mpr hleft⟩
    · exact ⟨_, hchecked _ (.inr (.inr rfl)), exists_cause?_operand_iff.mpr hright⟩

/-! ## Rejected expressions -/

/-- What an expression is rendered to can be written, unless it is an operand that is not finite. -/
theorem failsAs_toSql {dialect : Dialect} {expr : Expr} {rendered : Rendered}
    (h : expr.render dialect = .ok rendered) :
    FailsAs (Check.operand expr).cause? (rendered.toSql dialect) := by
  cases rendered with
  | literal value =>
    rw [Check.cause?, literal?_of_render h]
    cases value with
    | float x =>
      cases hx : x.isFinite <;> simp [FailsAs, Rendered.toSql, Value.hasLiteral, Value.literal, hx]
    | _ => exact ⟨_, rfl⟩
  | sql text =>
    -- what is rendered to a text is no value
    have hnone : expr.literal? = none := by
      cases hvalue : expr.literal? with
      | none => rfl
      | some value =>
        rw [render_of_literal? hvalue] at h
        cases h
    rw [Check.cause?, hnone]
    exact ⟨text, rfl⟩

/-- **An expression is rejected for the first check that fails**, and rendered if none does. -/
theorem failsAs_render (dialect : Dialect) (expr : Expr) :
    FailsAs expr.offence? (expr.render dialect) := by
  induction expr with
  | captured name value => exact ⟨_, rfl⟩
  | column name => exact ⟨_, rfl⟩
  | constant value => exact ⟨_, rfl⟩
  | converted operand ih => exact ih
  | binary op left right hleft hright =>
    -- an operand is rendered first, and then written
    have hleftSql : FailsAs left.operandOffence? (left.sql dialect) :=
      hleft.bind fun _ h => failsAs_toSql h
    have hrightSql : FailsAs right.operandOffence? (right.sql dialect) :=
      hright.bind fun _ h => failsAs_toSql h
    rw [render_binary, offence?_binary, Check.cause?]
    cases op.isSupported with
    | false => rfl
    | true =>
      rw [if_pos rfl, if_pos rfl, Option.none_or]
      refine hleftSql.bind fun leftText _ => ?_
      rw [← Option.or_none (o := right.operandOffence?)]
      exact hrightSql.bind fun rightText _ => ⟨_, rfl⟩

/-- An expression is rendered to a value exactly if it is one. -/
theorem render_eq_literal_iff {dialect : Dialect} {expr : Expr} {value : Value} :
    expr.render dialect = .ok (.literal value) ↔ expr.literal? = some value :=
  ⟨literal?_of_render, fun h => render_of_literal? h dialect⟩

end Expr

/-! ## Rejected statements -/

/-- An assignment is rejected for the first of its expressions that is. -/
theorem Assignment.compile_eq_error_iff_offence? {dialect : Dialect} {ignored : IgnoreSet}
    {entries : Assignment} {cause : CompileError} :
    entries.compile dialect ignored = .error cause
      ↔ (entries.keep ignored = [] ∧ cause = .emptyAssignment)
        ∨ (entries.keep ignored).findSome? (·.value.offence?) = some cause := by
  have hrendered : ∀ entry : Entry,
      (∃ rendered, entry.value.render dialect = .ok rendered) ↔ entry.value.offence? = none := by
    intro entry
    have hfails := entry.value.failsAs_render dialect
    cases hoffence : entry.value.offence? with
    | none =>
      rw [hoffence] at hfails
      exact iff_of_true hfails rfl
    | some found =>
      rw [hfails.eq_error_iff.mpr hoffence]
      exact iff_of_false (fun ⟨_, h⟩ => nomatch h) (fun h => nomatch h)
  rw [compile_eq_error_iff, List.findSome?_eq_some_iff]
  refine or_congr Iff.rfl (exists_congr fun earlier => exists_congr fun entry =>
    exists_congr fun later => and_congr Iff.rfl ?_)
  rw [(entry.value.failsAs_render dialect).eq_error_iff, and_comm]
  simp only [hrendered]

/-- An update is rejected for its query, and for its assignment if the query is accepted. -/
theorem compileUpdate_eq_error_iff {dialect : Dialect} {source : Text} {entries : Assignment}
    {ignored : IgnoreSet} {cause : CompileError} :
    compileUpdate dialect source entries ignored = .error cause
      ↔ SourceQuery.parse dialect source = .error cause
        ∨ (∃ query, SourceQuery.parse dialect source = .ok query)
          ∧ entries.compile dialect ignored = .error cause := by
  cases hparse : SourceQuery.parse dialect source with
  | error found =>
    have hupdate : compileUpdate dialect source entries ignored = .error found := by
      rw [compileUpdate, hparse]
      rfl
    rw [hupdate, Except.error.injEq, Except.error.injEq]
    constructor
    · intro h
      exact .inl h
    · rintro (h | ⟨⟨query, h⟩, -⟩)
      · exact h
      · cases h
  | ok query =>
    rw [compileUpdate_of_parse hparse]
    constructor
    · intro h
      exact .inr ⟨⟨query, rfl⟩, map_eq_error_iff.mp h⟩
    · rintro (h | ⟨-, h⟩)
      · cases h
      · exact map_eq_error_iff.mpr h

/-- **The law of rejected expressions.**  An expression is rejected exactly if a binary part of it has an
operator that is not supported or an operand that is not finite, and for the first of these; a value by itself
is never rejected, whatever it is.  An assignment is rejected for the first expression with such a part among
those that are kept, and so is an update whose query is accepted. -/
theorem rejection_law (dialect : Dialect) :
    (∀ expr : Expr, (∃ cause, expr.render dialect = .error cause)
        ↔ ∃ op left right, Expr.IsPartOf (.binary op left right) expr
          ∧ (op.isSupported = false ∨ left.IsNonFinite ∨ right.IsNonFinite))
    ∧ (∀ (expr : Expr) (cause : CompileError), expr.render dialect = .error cause
        ↔ expr.checks.findSome? Expr.Check.cause? = some cause)
    ∧ (∀ (expr : Expr) (value : Value), expr.render dialect = .ok (.literal value)
        ↔ expr.literal? = some value)
    ∧ (∀ (entries : Assignment) (ignored : IgnoreSet) (cause : CompileError),
        entries.compile dialect ignored = .error cause
          ↔ (entries.keep ignored = [] ∧ cause = .emptyAssignment)
            ∨ (entries.keep ignored).findSome? (·.value.offence?) = some cause)
    ∧ (∀ (source : Text) (entries : Assignment) (ignored : IgnoreSet) (cause : CompileError),
        compileUpdate dialect source entries ignored = .error cause
          ↔ SourceQuery.parse dialect source = .error cause
            ∨ (∃ query, SourceQuery.parse dialect source = .ok query)
              ∧ ((entries.keep ignored = [] ∧ cause = .emptyAssignment)
                ∨ (entries.keep ignored).findSome? (·.value.offence?) = some cause)) := by
  refine ⟨?_, ?_, ?_, ?_, ?_⟩
  · intro expr
    rw [← Expr.exists_offence?_iff]
    exact exists_congr fun cause => (expr.failsAs_render dialect).eq_error_iff
  · intro expr cause
    exact (expr.failsAs_render dialect).eq_error_iff
  · intro expr value
    exact Expr.render_eq_literal_iff
  · intro entries ignored cause
    exact Assignment.compile_eq_error_iff_offence?
  · intro source entries ignored cause
    rw [compileUpdate_eq_error_iff, Assignment.compile_eq_error_iff_offence?]

-- the number on the left is met before the operator on the right, and the first column is fine by itself
example :
    Assignment.compile .oracle .empty
        [⟨"A".toList, .converted (.constant (.float .nan))⟩,
          ⟨"B".toList, .binary .add (.converted (.captured "x".toList (.float (.infinite true))))
            (.binary .lt (.column "B".toList) (.constant .null))⟩]
      = .error (.nonFiniteLiteral "-inf".toList) := by
  cbv

end BulkDml
