import BulkDml.Proofs.Term

/-! # The value of arithmetic

Arithmetic terms have integers as values: division and remainder truncate, and neither is defined for a
zero divisor.  Grouping a term to the left keeps its value as long as no quotient or remainder is taken out
of the right operand of a product.

* `Term.value?` — the value of a term under values of its leaves;
* `Term.hasQuotient` — whether a product in front of a term would reach into a division or remainder;
* `Term.isSafe` — whether no product of a term has such a right operand;
* `Term.value?_leftGrouped` — the value of a safe term is that of the term grouped to the left.
-/

namespace BulkDml

namespace Operator

/-- Whether an operator computes a number. -/
def isArithmetic : Operator → Bool
  | add | sub | mul | div | mod => true
  | _ => false

/-- Arithmetic operators can be written. -/
theorem isSupported_of_isArithmetic {op : Operator} (h : op.isArithmetic = true) :
    op.isSupported = true := by
  cases op
  all_goals first
    | rfl
    | cases h

/-- The number that an operator computes, if it is defined. -/
def compute? : Operator → Int → Int → Option Int
  | add, left, right => some (left + right)
  | sub, left, right => some (left - right)
  | mul, left, right => some (left * right)
  | div, left, right => if right = 0 then none else some (left.tdiv right)
  | mod, left, right => if right = 0 then none else some (left.tmod right)
  | _, _, _ => none

@[simp] theorem compute?_add (left right : Int) : add.compute? left right = some (left + right) := rfl

@[simp] theorem compute?_sub (left right : Int) : sub.compute? left right = some (left - right) := rfl

@[simp] theorem compute?_mul (left right : Int) : mul.compute? left right = some (left * right) := rfl

/-- Nothing is divided by zero, and quotients truncate. -/
theorem compute?_div {divisor : Int} (h : divisor ≠ 0) (n : Int) :
    div.compute? n divisor = some (n.tdiv divisor) :=
  if_neg h

/-- A remainder has the sign of what is divided. -/
theorem compute?_mod {divisor : Int} (h : divisor ≠ 0) (n : Int) :
    mod.compute? n divisor = some (n.tmod divisor) :=
  if_neg h

/-- Dividing by one changes nothing. -/
@[simp] theorem compute?_div_one (n : Int) : div.compute? n 1 = some n := by
  rw [compute?_div (by decide), Int.tdiv_one]

/-- Dividing by what a product was multiplied with gives the other factor. -/
theorem compute?_div_mul_cancel (n : Int) {divisor : Int} (h : divisor ≠ 0) :
    div.compute? (n * divisor) divisor = some n := by
  rw [compute?_div h, Int.mul_tdiv_cancel n h]

/-- The remainder of a number by a greater one is the number. -/
theorem compute?_mod_of_lt {n divisor : Int} (hn : 0 ≤ n) (hlt : n < divisor) :
    mod.compute? n divisor = some n := by
  rw [compute?_mod (by omega), Int.tmod_eq_of_lt hn hlt]

/-- What exceeds a divisor by less than the divisor is its remainder. -/
theorem compute?_mod_add {n divisor : Int} (hn : 0 ≤ n) (hlt : n < divisor) :
    mod.compute? (n + divisor) divisor = some n := by
  rw [compute?_mod (by omega), Int.tmod_eq_emod_of_nonneg (by omega), Int.add_emod_right,
    Int.emod_eq_of_lt hn hlt]

/-- The number that an operator computes from operands that may be undefined. -/
def combine (op : Operator) (left right : Option Int) : Option Int :=
  left.bind fun l => right.bind fun r => op.compute? l r

@[simp] theorem combine_some (op : Operator) (left right : Int) :
    op.combine (some left) (some right) = op.compute? left right := rfl

/-- Nothing is computed from an undefined left operand. -/
@[simp] theorem combine_none_left (op : Operator) (right : Option Int) :
    op.combine none right = none := rfl

/-- Nothing is computed from an undefined right operand. -/
@[simp] theorem combine_none_right (op : Operator) (left : Option Int) :
    op.combine left none = none := by
  cases left <;> rfl

/-- A sum in a sum, and a difference in a sum, can be grouped to the left. -/
theorem combine_add_combine {inner : Operator} (h : inner.precedence = add.precedence)
    (left first last : Option Int) :
    inner.combine (add.combine left first) last = add.combine left (inner.combine first last) := by
  -- an undefined operand makes both sides undefined
  cases left with
  | none => simp
  | some l =>
    cases first with
    | none => simp
    | some f =>
      cases last with
      | none => simp
      | some n =>
        cases inner
        case add => simp [Int.add_assoc]
        case sub => simp [Int.add_sub_assoc]
        all_goals cases h

/-- A product in a product can be grouped to the left. -/
theorem combine_mul_combine (left first last : Option Int) :
    mul.combine (mul.combine left first) last = mul.combine left (mul.combine first last) := by
  cases left with
  | none => simp
  | some l =>
    cases first with
    | none => simp
    | some f =>
      cases last with
      | none => simp
      | some n => simp [Int.mul_assoc]

end Operator

namespace Term

variable {α β : Type}

/-- Whether a term has arithmetic operators only. -/
def isArithmetic : Term α → Bool
  | operand _ => true
  | binary op left right => op.isArithmetic && left.isArithmetic && right.isArithmetic

@[simp] theorem isArithmetic_binary (op : Operator) (left right : Term α) :
    (binary op left right).isArithmetic
      = (op.isArithmetic && left.isArithmetic && right.isArithmetic) := rfl

/-- The value of a term under values of its leaves. -/
def value? (leafValue : α → Option Int) : Term α → Option Int
  | operand leaf => leafValue leaf
  | binary op left right => op.combine (left.value? leafValue) (right.value? leafValue)

@[simp] theorem value?_binary (leafValue : α → Option Int) (op : Operator) (left right : Term α) :
    (binary op left right).value? leafValue
      = op.combine (left.value? leafValue) (right.value? leafValue) := rfl

/-- The value of a term over other leaves is the value under what these leaves are mapped to. -/
theorem value?_map (f : α → β) (leafValue : β → Option Int) (term : Term α) :
    (term.map f).value? leafValue = term.value? (leafValue ∘ f) := by
  induction term with
  | operand leaf => rfl
  | binary op left right ihLeft ihRight =>
    rw [map_binary, value?_binary, value?_binary, ihLeft, ihRight]

/-! ## Quotients behind a product -/

/-- Whether a term, written behind a product sign without parentheses, has a division or a remainder apply
to that product. -/
def hasQuotient : Term α → Bool
  | operand _ => false
  | binary .div _ _ | binary .mod _ _ => true
  | binary .mul left right => left.hasQuotient || right.hasQuotient
  | binary _ _ _ => false

@[simp] theorem hasQuotient_mul (left right : Term α) :
    (binary .mul left right).hasQuotient = (left.hasQuotient || right.hasQuotient) := rfl

@[simp] theorem hasQuotient_div (left right : Term α) :
    (binary .div left right).hasQuotient = true := rfl

@[simp] theorem hasQuotient_mod (left right : Term α) :
    (binary .mod left right).hasQuotient = true := rfl

/-- Whether no product has a division or a remainder taken out of its right operand. -/
def isSafe : Term α → Bool
  | operand _ => true
  | binary op left right => left.isSafe && right.isSafe && !(op == .mul && right.hasQuotient)

@[simp] theorem isSafe_binary (op : Operator) (left right : Term α) :
    (binary op left right).isSafe
      = (left.isSafe && right.isSafe && !(op == .mul && right.hasQuotient)) := rfl

/-- Quotients depend on the operators only. -/
@[simp] theorem hasQuotient_map (f : α → β) (term : Term α) :
    (term.map f).hasQuotient = term.hasQuotient := by
  induction term with
  | operand leaf => rfl
  | binary op left right ihLeft ihRight =>
    cases op
    case mul => rw [map_binary, hasQuotient_mul, hasQuotient_mul, ihLeft, ihRight]
    all_goals rfl

/-- Safety depends on the operators only. -/
@[simp] theorem isSafe_map (f : α → β) (term : Term α) : (term.map f).isSafe = term.isSafe := by
  induction term with
  | operand leaf => rfl
  | binary op left right ihLeft ihRight =>
    rw [map_binary, isSafe_binary, isSafe_binary, ihLeft, ihRight, hasQuotient_map]

/-- Whether a term is arithmetic depends on the operators only. -/
@[simp] theorem isArithmetic_map (f : α → β) (term : Term α) :
    (term.map f).isArithmetic = term.isArithmetic := by
  induction term with
  | operand leaf => rfl
  | binary op left right ihLeft ihRight =>
    rw [map_binary, isArithmetic_binary, isArithmetic_binary, ihLeft, ihRight]

/-- Only a term that binds as products do has a quotient for a product in front of it. -/
theorem hasQuotient_of_precedence_ne {term : Term α}
    (h : term.precedence ≠ Operator.mul.precedence) : term.hasQuotient = false := by
  cases term with
  | operand leaf => rfl
  | binary op left right =>
    cases op
    case mul => exact absurd rfl h
    case div => exact absurd rfl h
    case mod => exact absurd rfl h
    all_goals rfl

/-- A product has the quotients of both its operands. -/
theorem hasQuotient_graft_mul (left term : Term α) :
    (graft left .mul term).hasQuotient = (left.hasQuotient || term.hasQuotient) := by
  induction term with
  | operand leaf => rfl
  | binary inner first last ih =>
    by_cases hsame : inner.precedence = Operator.mul.precedence
    · -- the product goes on behind `first`, and a quotient of it has one in any case
      rw [graft_binary left hsame]
      cases inner
      case mul => rw [hasQuotient_mul, hasQuotient_mul, ih, Bool.or_assoc]
      case div => rw [hasQuotient_div, hasQuotient_div, Bool.or_true]
      case mod => rw [hasQuotient_mod, hasQuotient_mod, Bool.or_true]
      all_goals cases hsame
    · rw [graft_binary_of_ne left hsame, hasQuotient_mul]

/-- Grouping to the left keeps the quotients of a term. -/
theorem hasQuotient_leftGrouped (term : Term α) :
    term.leftGrouped.hasQuotient = term.hasQuotient := by
  induction term with
  | operand leaf => rfl
  | binary op left right ihLeft ihRight =>
    by_cases hsame : op.precedence = Operator.mul.precedence
    · cases op
      case mul =>
        have hgraft := hasQuotient_graft_mul left.leftGrouped right.leftGrouped
        rw [ihLeft, ihRight] at hgraft
        exact hgraft
      case div => rfl
      case mod => rfl
      all_goals cases hsame
    · have hne : (binary op left right).precedence ≠ Operator.mul.precedence := hsame
      rw [hasQuotient_of_precedence_ne hne,
        hasQuotient_of_precedence_ne (by rw [precedence_leftGrouped]; exact hne)]

/-! ## Grouping keeps values -/

/-- The value of a sum does not depend on where its right operand is taken apart. -/
theorem value?_graft_add (leafValue : α → Option Int) (left term : Term α) :
    (graft left .add term).value? leafValue
      = Operator.add.combine (left.value? leafValue) (term.value? leafValue) := by
  induction term with
  | operand leaf => rfl
  | binary inner first last ih =>
    by_cases hsame : inner.precedence = Operator.add.precedence
    · rw [graft_binary left hsame, value?_binary, value?_binary, ih,
        Operator.combine_add_combine hsame]
    · rw [graft_binary_of_ne left hsame, value?_binary]

/-- The value of a product does not depend on where its right operand is taken apart, if nothing is divided
there. -/
theorem value?_graft_mul (leafValue : α → Option Int) (left : Term α) {term : Term α}
    (h : term.hasQuotient = false) :
    (graft left .mul term).value? leafValue
      = Operator.mul.combine (left.value? leafValue) (term.value? leafValue) := by
  induction term with
  | operand leaf => rfl
  | binary inner first last ih =>
    by_cases hsame : inner.precedence = Operator.mul.precedence
    · cases inner
      case mul =>
        rw [hasQuotient_mul, Bool.or_eq_false_iff] at h
        rw [graft_binary left hsame, value?_binary, value?_binary, ih h.1,
          Operator.combine_mul_combine]
      case div => cases h
      case mod => cases h
      all_goals cases hsame
    · rw [graft_binary_of_ne left hsame, value?_binary]

/-- **Grouping a safe term to the left keeps its value**, whatever the values of its leaves. -/
theorem value?_leftGrouped (leafValue : α → Option Int) {term : Term α}
    (harithmetic : term.isArithmetic = true) (hsafe : term.isSafe = true) :
    term.leftGrouped.value? leafValue = term.value? leafValue := by
  induction term with
  | operand leaf => rfl
  | binary op left right ihLeft ihRight =>
    simp only [isArithmetic_binary, Bool.and_eq_true] at harithmetic
    simp only [isSafe_binary, Bool.and_eq_true, Bool.not_eq_true'] at hsafe
    have hleft := ihLeft harithmetic.1.2 hsafe.1.1
    have hright := ihRight harithmetic.2 hsafe.1.2
    rw [leftGrouped_binary, value?_binary, ← hleft, ← hright]
    cases op
    case add => exact value?_graft_add leafValue _ _
    case mul =>
      -- nothing is divided in the right operand, which is all that safety asks
      have hquotient : right.leftGrouped.hasQuotient = false := by
        rw [hasQuotient_leftGrouped]
        simpa using hsafe.2
      exact value?_graft_mul leafValue _ hquotient
    case sub | div | mod =>
      -- the right operand is not taken apart
      rfl
    all_goals cases harithmetic.1.1

end Term

end BulkDml
