import BulkDml.Proofs.ArithmeticValue

/-! # Products that are read differently

A product whose right operand has a quotient or a remainder for it is read as another term, and this shows
in its value: whatever stands around such a product, there are integers for the leaves under which the term
and what it is read as have values far apart.

* `Term.behindProduct` — the value of a product with a given left operand, as it is read;
* `Term.IsTransparent`, `Term.exists_isTransparent` — every arrangement of operators can take every value
  that is not negative, also behind products;
* `Term.CanBeMisread` — an arrangement can be read with a value far from its own;
* `Term.canBeMisread_of_isSafe_eq_false` — every arrangement that is not safe can.
-/

namespace BulkDml

namespace Term

/-- The arrangement of the operators of a term. -/
abbrev Arrangement : Type := Term Unit

/-- The arrangement of a term over integers. -/
def arrangement (term : Term Int) : Arrangement := term.map fun _ => ()

@[simp] theorem arrangement_operand (value : Int) : (operand value).arrangement = operand () := rfl

@[simp] theorem arrangement_binary (op : Operator) (left right : Term Int) :
    (binary op left right).arrangement = binary op left.arrangement right.arrangement := rfl

/-- The value of a term over integers. -/
def number? (term : Term Int) : Option Int := term.value? some

@[simp] theorem number?_operand (value : Int) : (operand value).number? = some value := rfl

@[simp] theorem number?_binary (op : Operator) (left right : Term Int) :
    (binary op left right).number? = op.combine left.number? right.number? := rfl

/-- The value that a term is read with. -/
def readNumber? (term : Term Int) : Option Int := term.leftGrouped.number?

/-! ## Behind a product -/

/-- What a term is taken apart behind counts with its value only. -/
theorem number?_graft_congr {left other : Term Int} (h : left.number? = other.number?) (op : Operator)
    (term : Term Int) : (graft left op term).number? = (graft other op term).number? := by
  induction term with
  | operand leaf => rw [graft_operand, graft_operand, number?_binary, number?_binary, h]
  | binary inner first last ih =>
    by_cases hsame : inner.precedence = op.precedence
    · rw [graft_binary _ hsame, graft_binary _ hsame, number?_binary, number?_binary, ih]
    · rw [graft_binary_of_ne _ hsame, graft_binary_of_ne _ hsame]
      simp only [number?_binary, h]

/-- The value of `left * term` as it is read, where `term` stands in no parentheses that it does not
need. -/
def behindProduct (left : Int) (term : Term Int) : Option Int :=
  (graft (operand left) .mul term.leftGrouped).number?

/-- A product is read with what is read behind the value of its left operand. -/
theorem readNumber?_mul {left right : Term Int} {value : Int} (h : left.readNumber? = some value) :
    (binary .mul left right).readNumber? = behindProduct value right := by
  have hleft : left.leftGrouped.number? = (operand value).number? := h
  exact number?_graft_congr hleft .mul right.leftGrouped

/-- Behind a product, a product is read operand by operand. -/
theorem behindProduct_mul {first last : Term Int} {left value : Int}
    (h : behindProduct left first = some value) :
    behindProduct left (binary .mul first last) = behindProduct value last := by
  have hgraft := graft_graft (operand left) first.leftGrouped last.leftGrouped
    (rfl : Operator.mul.precedence = Operator.mul.precedence)
  have hfirst : (graft (operand left) .mul first.leftGrouped).number? = (operand value).number? := h
  calc behindProduct left (binary .mul first last)
      = (graft (graft (operand left) .mul first.leftGrouped) .mul last.leftGrouped).number? :=
        congrArg number? hgraft
    _ = behindProduct value last := number?_graft_congr hfirst .mul last.leftGrouped

/-- Behind a product, a quotient is taken of the product. -/
theorem behindProduct_div (left : Int) (first last : Term Int) :
    behindProduct left (binary .div first last)
      = Operator.div.combine (behindProduct left first) last.readNumber? := rfl

/-- Behind a product, a remainder is taken of the product. -/
theorem behindProduct_mod (left : Int) (first last : Term Int) :
    behindProduct left (binary .mod first last)
      = Operator.mod.combine (behindProduct left first) last.readNumber? := rfl

/-- Behind a product, a term that binds differently is one operand. -/
theorem behindProduct_of_precedence_ne (left : Int) {term : Term Int}
    (h : term.precedence ≠ Operator.mul.precedence) :
    behindProduct left term = Operator.mul.combine (some left) term.readNumber? := by
  rw [behindProduct, graft_of_precedence_ne]
  · rfl
  · rw [precedence_leftGrouped]
    exact h

/-- One in front of a term does not change what it is read with. -/
theorem behindProduct_one (term : Term Int) : behindProduct 1 term = term.readNumber? := by
  -- the induction is on what the term is grouped to, since that is what is taken apart
  have hone : ∀ value : Option Int, Operator.mul.combine (some 1) value = value := by
    intro value
    cases value with
    | none => rfl
    | some n => simp
  have hgraft : ∀ grouped : Term Int, (graft (operand 1) .mul grouped).number? = grouped.number? := by
    intro grouped
    induction grouped with
    | operand leaf => exact hone (some leaf)
    | binary inner first last ih =>
      by_cases hsame : inner.precedence = Operator.mul.precedence
      · rw [graft_binary _ hsame, number?_binary, number?_binary, ih]
      · -- one operand, and multiplied by one
        rw [graft_binary_of_ne _ hsame, number?_binary]
        exact hone _
  exact hgraft term.leftGrouped

/-- An operator other than multiplication is applied to what its operands are read with. -/
theorem readNumber?_binary {op : Operator} (hop : op.isArithmetic = true) (hmul : op ≠ .mul)
    (left right : Term Int) :
    (binary op left right).readNumber? = op.combine left.readNumber? right.readNumber? := by
  cases op
  case add =>
    -- the right operand is taken apart, which a sum does not show
    exact value?_graft_add some left.leftGrouped right.leftGrouped
  case mul => exact absurd rfl hmul
  case sub | div | mod =>
    -- the right operand stands in parentheses if it could be taken apart
    rfl
  all_goals cases hop

/-! ## Values as they are read -/

/-- Whether a term has one value and is read with another one. -/
structure ReadsAsNumber (term : Term Int) (value read : Int) : Prop where
  /-- The term has the value. -/
  number : term.number? = some value
  /-- The term is read with the other value. -/
  read : term.readNumber? = some read

/-- An operator other than multiplication is applied to either value of its operands. -/
theorem ReadsAsNumber.binary {op : Operator} (hop : op.isArithmetic = true) (hmul : op ≠ .mul)
    {left right : Term Int} {leftValue leftRead rightValue rightRead value read : Int}
    (hleft : ReadsAsNumber left leftValue leftRead) (hright : ReadsAsNumber right rightValue rightRead)
    (hvalue : op.compute? leftValue rightValue = some value)
    (hread : op.compute? leftRead rightRead = some read) :
    ReadsAsNumber (.binary op left right) value read := by
  constructor
  · rw [number?_binary, hleft.number, hright.number, Operator.combine_some, hvalue]
  · rw [readNumber?_binary hop hmul, hleft.read, hright.read, Operator.combine_some, hread]

/-! ## Transparent terms -/

/-- Whether a term has a value both as it is and as it is read, and multiplies by this value what it is
read behind, up to `bound`. -/
structure IsTransparent (term : Term Int) (value bound : Int) : Prop where
  /-- The term has the value. -/
  number : term.number? = some value
  /-- The term is read with the value. -/
  read : term.readNumber? = some value
  /-- A product in front of the term is multiplied by the value. -/
  behind : ∀ left, 0 ≤ left → left ≤ bound → behindProduct left term = some (left * value)

namespace IsTransparent

/-- A leaf is transparent. -/
theorem operand (value bound : Int) : IsTransparent (.operand value) value bound :=
  ⟨rfl, rfl, fun _ _ _ => rfl⟩

/-- A transparent term is read with its value. -/
theorem readsAsNumber {term : Term Int} {value bound : Int} (h : IsTransparent term value bound) :
    ReadsAsNumber term value value :=
  ⟨h.number, h.read⟩

/-- A term that does not bind as products do is transparent if it is read with its value. -/
theorem of_precedence_ne {term : Term Int} {value : Int} (bound : Int)
    (hne : term.precedence ≠ Operator.mul.precedence) (h : ReadsAsNumber term value value) :
    IsTransparent term value bound := by
  refine ⟨h.number, h.read, ?_⟩
  intro left _ _
  rw [behindProduct_of_precedence_ne left hne, h.read]
  rfl

/-- Adding zero keeps a value. -/
theorem add {left right : Term Int} {value bound : Int} (hleft : IsTransparent left value bound)
    (hright : IsTransparent right 0 bound) : IsTransparent (binary .add left right) value bound := by
  have hreads : ReadsAsNumber (binary .add left right) value value :=
    hleft.readsAsNumber.binary rfl (by decide) hright.readsAsNumber (by simp) (by simp)
  exact of_precedence_ne bound (by rw [precedence_binary]; decide) hreads

/-- Subtracting zero keeps a value. -/
theorem sub {left right : Term Int} {value bound : Int} (hleft : IsTransparent left value bound)
    (hright : IsTransparent right 0 bound) : IsTransparent (binary .sub left right) value bound := by
  have hreads : ReadsAsNumber (binary .sub left right) value value :=
    hleft.readsAsNumber.binary rfl (by decide) hright.readsAsNumber (by simp) (by simp)
  exact of_precedence_ne bound (by rw [precedence_binary]; decide) hreads

/-- Multiplying by one keeps a value, also of what stands in front. -/
theorem mul {left right : Term Int} {value bound reach : Int} (hvalue : 0 ≤ value)
    (hleft : IsTransparent left value bound) (hright : IsTransparent right 1 reach)
    (hown : value ≤ reach) (hreach : bound * value ≤ reach) :
    IsTransparent (binary .mul left right) value bound := by
  constructor
  · rw [number?_binary, hleft.number, hright.number]
    simp
  · rw [readNumber?_mul hleft.read, hright.behind value hvalue hown, Int.mul_one]
  · intro front hfront hbound
    -- `front` times the value is what stands in front of the right operand
    have hproduct : 0 ≤ front * value := Int.mul_nonneg hfront hvalue
    have hle : front * value ≤ reach :=
      Int.le_trans (Int.mul_le_mul_of_nonneg_right hbound hvalue) hreach
    rw [behindProduct_mul (hleft.behind front hfront hbound), hright.behind _ hproduct hle, Int.mul_one]

/-- Dividing by one keeps a value, also of what stands in front. -/
theorem div {left right : Term Int} {value bound reach : Int} (hleft : IsTransparent left value bound)
    (hright : IsTransparent right 1 reach) : IsTransparent (binary .div left right) value bound := by
  have hreads : ReadsAsNumber (binary .div left right) value value :=
    hleft.readsAsNumber.binary rfl (by decide) hright.readsAsNumber (by simp) (by simp)
  refine ⟨hreads.number, hreads.read, ?_⟩
  intro front hfront hbound
  rw [behindProduct_div, hleft.behind front hfront hbound, hright.read]
  simp

/-- The remainder by a greater number keeps a value, also of what stands in front. -/
theorem mod {left right : Term Int} {value bound divisor reach : Int} (hvalue : 0 ≤ value)
    (hleft : IsTransparent left value bound) (hright : IsTransparent right divisor reach)
    (hown : value < divisor) (hdivisor : bound * value < divisor) :
    IsTransparent (binary .mod left right) value bound := by
  have hkeep := Operator.compute?_mod_of_lt hvalue hown
  have hreads : ReadsAsNumber (binary .mod left right) value value :=
    hleft.readsAsNumber.binary rfl (by decide) hright.readsAsNumber hkeep hkeep
  refine ⟨hreads.number, hreads.read, ?_⟩
  intro front hfront hbound
  -- the divisor exceeds every product that can stand in front of it
  have hproduct : 0 ≤ front * value := Int.mul_nonneg hfront hvalue
  have hlt : front * value < divisor :=
    Int.lt_of_le_of_lt (Int.mul_le_mul_of_nonneg_right hbound hvalue) hdivisor
  rw [behindProduct_mod, hleft.behind front hfront hbound, hright.read, Operator.combine_some,
    Operator.compute?_mod_of_lt hproduct hlt]

end IsTransparent

/-- Every arrangement of arithmetic operators can be transparent, with every value that is not negative and
up to every bound. -/
theorem exists_isTransparent {shape : Arrangement} (h : shape.isArithmetic = true) (value bound : Int)
    (hvalue : 0 ≤ value) (hbound : 0 ≤ bound) :
    ∃ term : Term Int, term.arrangement = shape ∧ IsTransparent term value bound := by
  induction shape generalizing value bound with
  | operand leaf => exact ⟨.operand value, rfl, .operand value bound⟩
  | binary op left right ihLeft ihRight =>
    simp only [isArithmetic_binary, Bool.and_eq_true] at h
    have hproduct : 0 ≤ bound * value := Int.mul_nonneg hbound hvalue
    obtain ⟨first, rfl, hfirst⟩ := ihLeft h.1.2 value bound hvalue hbound
    cases op
    case add =>
      obtain ⟨last, rfl, hlast⟩ := ihRight h.2 0 bound (Int.le_refl 0) hbound
      exact ⟨binary .add first last, rfl, hfirst.add hlast⟩
    case sub =>
      obtain ⟨last, rfl, hlast⟩ := ihRight h.2 0 bound (Int.le_refl 0) hbound
      exact ⟨binary .sub first last, rfl, hfirst.sub hlast⟩
    case mul =>
      -- behind the left operand stands at most `bound * value`, or the value itself
      obtain ⟨last, rfl, hlast⟩ := ihRight h.2 1 (bound * value + value)
        (by decide) (by omega)
      exact ⟨binary .mul first last, rfl, hfirst.mul hvalue hlast (by omega) (by omega)⟩
    case div =>
      obtain ⟨last, rfl, hlast⟩ := ihRight h.2 1 bound (by decide) hbound
      exact ⟨binary .div first last, rfl, hfirst.div hlast⟩
    case mod =>
      obtain ⟨last, rfl, hlast⟩ := ihRight h.2 (bound * value + value + 1) bound (by omega) hbound
      exact ⟨binary .mod first last, rfl, hfirst.mod hvalue hlast (by omega) (by omega)⟩
    all_goals cases h.1.1

/-! ## Terms that are read differently -/

/-- Whether two values are at least `distance` apart and neither is smaller than that. -/
def Apart (distance first second : Int) : Prop :=
  distance ≤ first ∧ distance ≤ second ∧ (first + distance ≤ second ∨ second + distance ≤ first)

/-- Behind a product, an arrangement with a quotient can be read with another value than the product has,
as far from it as one likes. -/
theorem exists_apart_of_hasQuotient {shape : Arrangement} (harithmetic : shape.isArithmetic = true)
    (h : shape.hasQuotient = true) {distance : Int} (hdistance : 1 ≤ distance) :
    ∃ (term : Term Int) (left value read : Int), term.arrangement = shape ∧ 0 ≤ left
      ∧ term.number? = some value ∧ behindProduct left term = some read
      ∧ Apart distance (left * value) read := by
  induction shape with
  | operand leaf => cases h
  | binary op left right ihLeft ihRight =>
    simp only [isArithmetic_binary, Bool.and_eq_true] at harithmetic
    cases op
    case mul =>
      rw [hasQuotient_mul, Bool.or_eq_true] at h
      rcases h with hquotient | hquotient
      · -- the quotient is in the left operand, and the right one multiplies by one
        obtain ⟨first, front, value, read, rfl, hfront, hvalue, hread, hapart⟩ :=
          ihLeft harithmetic.1.2 hquotient
        have hpositive : 0 ≤ read := by
          have := hapart.2.1
          omega
        obtain ⟨last, rfl, hlast⟩ :=
          exists_isTransparent harithmetic.2 1 read (by decide) hpositive
        refine ⟨binary .mul first last, front, value, read, rfl, hfront, ?_, ?_, hapart⟩
        · rw [number?_binary, hvalue, hlast.number]
          simp
        · rw [behindProduct_mul hread, hlast.behind read hpositive (Int.le_refl read), Int.mul_one]
      · -- the quotient is in the right operand, and the left one multiplies by one
        obtain ⟨last, front, value, read, rfl, hfront, hvalue, hread, hapart⟩ :=
          ihRight harithmetic.2 hquotient
        obtain ⟨first, rfl, hfirst⟩ :=
          exists_isTransparent harithmetic.1.2 1 front (by decide) hfront
        refine ⟨binary .mul first last, front, value, read, rfl, hfront, ?_, ?_, hapart⟩
        · rw [number?_binary, hvalue, hfirst.number]
          simp
        · have hbehind := hfirst.behind front hfront (Int.le_refl front)
          rw [Int.mul_one] at hbehind
          rw [behindProduct_mul hbehind, hread]
    case div =>
      -- `2d * (3 / 2)` is `2d`, and read as `2d * 3 / 2` it is `3d`
      obtain ⟨first, rfl, hfirst⟩ :=
        exists_isTransparent harithmetic.1.2 3 (2 * distance) (by decide) (by omega)
      obtain ⟨last, rfl, hlast⟩ :=
        exists_isTransparent harithmetic.2 2 0 (by decide) (by decide)
      refine ⟨binary .div first last, 2 * distance, 1, 3 * distance, rfl, by omega, ?_, ?_, ?_⟩
      · rw [number?_binary, hfirst.number, hlast.number]
        rfl
      · have hthrice : 2 * distance * 3 = 3 * distance * 2 := by omega
        rw [behindProduct_div, hfirst.behind _ (by omega) (Int.le_refl _), hlast.read,
          Operator.combine_some, hthrice, Operator.compute?_div_mul_cancel _ (by decide)]
      · refine ⟨by omega, by omega, ?_⟩
        omega
    case mod =>
      -- `3d * (1 % 2d)` is `3d`, and read as `3d * 1 % 2d` it is `d`
      obtain ⟨first, rfl, hfirst⟩ :=
        exists_isTransparent harithmetic.1.2 1 (3 * distance) (by decide) (by omega)
      obtain ⟨last, rfl, hlast⟩ :=
        exists_isTransparent harithmetic.2 (2 * distance) 0 (by omega) (by decide)
      refine ⟨binary .mod first last, 3 * distance, 1, distance, rfl, by omega, ?_, ?_, ?_⟩
      · rw [number?_binary, hfirst.number, hlast.number, Operator.combine_some,
          Operator.compute?_mod_of_lt (by decide) (by omega)]
      · have hsplit : 3 * distance * 1 = distance + 2 * distance := by omega
        rw [behindProduct_mod, hfirst.behind _ (by omega) (Int.le_refl _), hlast.read,
          Operator.combine_some, hsplit, Operator.compute?_mod_add (by omega) (by omega)]
      · refine ⟨by omega, by omega, ?_⟩
        omega
    all_goals cases h

namespace ReadsAsNumber

/-- One behind a product sign changes nothing. -/
theorem mulOne {left right : Term Int} {value read bound : Int} (hleft : ReadsAsNumber left value read)
    (hright : IsTransparent right 1 bound) (hpositive : 0 ≤ read) (hbound : read ≤ bound) :
    ReadsAsNumber (.binary .mul left right) value read := by
  constructor
  · rw [number?_binary, hleft.number, hright.number]
    simp
  · rw [readNumber?_mul hleft.read, hright.behind read hpositive hbound, Int.mul_one]

/-- One in front of a product sign changes nothing. -/
theorem oneMul {left right : Term Int} {value read bound : Int} (hleft : IsTransparent left 1 bound)
    (hright : ReadsAsNumber right value read) :
    ReadsAsNumber (.binary .mul left right) value read := by
  constructor
  · rw [number?_binary, hleft.number, hright.number]
    simp
  · rw [readNumber?_mul hleft.read, behindProduct_one, hright.read]

end ReadsAsNumber

/-- Whether an arrangement can be read with another value than it has, as far from it as one likes. -/
def CanBeMisread (shape : Arrangement) : Prop :=
  ∀ distance : Int, 1 ≤ distance → ∃ (term : Term Int) (value read : Int),
    term.arrangement = shape ∧ ReadsAsNumber term value read ∧ Apart distance value read

namespace CanBeMisread

/-- An operator can be misread with its left operand. -/
theorem left {op : Operator} (hop : op.isArithmetic = true) {first last : Arrangement}
    (h : CanBeMisread first) (hlast : last.isArithmetic = true) :
    CanBeMisread (binary op first last) := by
  intro distance hdistance
  obtain ⟨term, value, read, rfl, hterm, hapart⟩ := h distance hdistance
  have hpositive : 0 ≤ value ∧ 0 ≤ read := by
    obtain ⟨hvalue, hread, -⟩ := hapart
    omega
  -- the right operand is chosen so that both values pass through the operator
  cases op
  case add =>
    obtain ⟨zero, rfl, hzero⟩ := exists_isTransparent hlast 0 0 (Int.le_refl 0) (Int.le_refl 0)
    refine ⟨binary .add term zero, value, read, rfl, ?_, hapart⟩
    exact hterm.binary rfl (by decide) hzero.readsAsNumber (by simp) (by simp)
  case sub =>
    obtain ⟨zero, rfl, hzero⟩ := exists_isTransparent hlast 0 0 (Int.le_refl 0) (Int.le_refl 0)
    refine ⟨binary .sub term zero, value, read, rfl, ?_, hapart⟩
    exact hterm.binary rfl (by decide) hzero.readsAsNumber (by simp) (by simp)
  case mul =>
    obtain ⟨one, rfl, hone⟩ := exists_isTransparent hlast 1 read (by decide) hpositive.2
    refine ⟨binary .mul term one, value, read, rfl, ?_, hapart⟩
    exact hterm.mulOne hone hpositive.2 (Int.le_refl read)
  case div =>
    obtain ⟨one, rfl, hone⟩ := exists_isTransparent hlast 1 0 (by decide) (Int.le_refl 0)
    refine ⟨binary .div term one, value, read, rfl, ?_, hapart⟩
    exact hterm.binary rfl (by decide) hone.readsAsNumber (by simp) (by simp)
  case mod =>
    -- a divisor above either value
    obtain ⟨great, rfl, hgreat⟩ :=
      exists_isTransparent hlast (value + read + 1) 0 (by omega) (Int.le_refl 0)
    refine ⟨binary .mod term great, value, read, rfl, ?_, hapart⟩
    have hvalue := Operator.compute?_mod_of_lt hpositive.1 (by omega : value < value + read + 1)
    have hread := Operator.compute?_mod_of_lt hpositive.2 (by omega : read < value + read + 1)
    exact hterm.binary rfl (by decide) hgreat.readsAsNumber hvalue hread
  all_goals cases hop

/-- An operator can be misread with its right operand. -/
theorem right {op : Operator} (hop : op.isArithmetic = true) {first last : Arrangement}
    (hfirst : first.isArithmetic = true) (h : CanBeMisread last) :
    CanBeMisread (binary op first last) := by
  intro distance hdistance
  -- one more, so that remainders by the two values are apart as well
  obtain ⟨term, value, read, rfl, hterm, hvalue, hread, hapart⟩ := h (distance + 1) (by omega)
  have hsum : 0 ≤ value + read := by omega
  have hproduct : 0 ≤ value * read := Int.mul_nonneg (by omega) (by omega)
  have hvalueNe : value ≠ 0 := by omega
  have hreadNe : read ≠ 0 := by omega
  cases op
  case add =>
    obtain ⟨zero, rfl, hzero⟩ := exists_isTransparent hfirst 0 0 (Int.le_refl 0) (Int.le_refl 0)
    refine ⟨binary .add zero term, value, read, rfl, ?_, by omega, by omega, by omega⟩
    exact hzero.readsAsNumber.binary rfl (by decide) hterm (by simp) (by simp)
  case sub =>
    -- taken from their sum, the values change places
    obtain ⟨sum, rfl, hsum⟩ := exists_isTransparent hfirst (value + read) 0 hsum (Int.le_refl 0)
    refine ⟨binary .sub sum term, read, value, rfl, ?_, by omega, by omega, by omega⟩
    refine hsum.readsAsNumber.binary rfl (by decide) hterm ?_ ?_
    · rw [Operator.compute?_sub, Int.add_comm, Int.add_sub_cancel]
    · rw [Operator.compute?_sub, Int.add_sub_cancel]
  case mul =>
    obtain ⟨one, rfl, hone⟩ := exists_isTransparent hfirst 1 0 (by decide) (Int.le_refl 0)
    refine ⟨binary .mul one term, value, read, rfl, ?_, by omega, by omega, by omega⟩
    exact ReadsAsNumber.oneMul hone hterm
  case div =>
    -- dividing their product, the values change places
    obtain ⟨product, rfl, hproduct⟩ := exists_isTransparent hfirst (value * read) 0 hproduct (Int.le_refl 0)
    refine ⟨binary .div product term, read, value, rfl, ?_, by omega, by omega, by omega⟩
    refine hproduct.readsAsNumber.binary rfl (by decide) hterm ?_ ?_
    · rw [Int.mul_comm, Operator.compute?_div_mul_cancel read hvalueNe]
    · exact Operator.compute?_div_mul_cancel value hreadNe
  case mod =>
    -- the smaller value leaves `distance`, and the greater one leaves the dividend as it is
    have hdistancePos : 0 ≤ distance := by omega
    rcases hapart with hlt | hlt
    · obtain ⟨dividend, rfl, hdividend⟩ :=
        exists_isTransparent hfirst (distance + value) 0 (by omega) (Int.le_refl 0)
      refine ⟨binary .mod dividend term, distance, distance + value, rfl, ?_, by omega, by omega,
        by omega⟩
      have hsmaller := Operator.compute?_mod_add hdistancePos (by omega : distance < value)
      have hgreater := Operator.compute?_mod_of_lt (by omega : 0 ≤ distance + value)
        (by omega : distance + value < read)
      exact hdividend.readsAsNumber.binary rfl (by decide) hterm hsmaller hgreater
    · obtain ⟨dividend, rfl, hdividend⟩ :=
        exists_isTransparent hfirst (distance + read) 0 (by omega) (Int.le_refl 0)
      refine ⟨binary .mod dividend term, distance + read, distance, rfl, ?_, by omega, by omega,
        by omega⟩
      have hgreater := Operator.compute?_mod_of_lt (by omega : 0 ≤ distance + read)
        (by omega : distance + read < value)
      have hsmaller := Operator.compute?_mod_add hdistancePos (by omega : distance < read)
      exact hdividend.readsAsNumber.binary rfl (by decide) hterm hgreater hsmaller
  all_goals cases hop

/-- A product can be misread if there is a quotient in its right operand. -/
theorem product {first last : Arrangement} (hfirst : first.isArithmetic = true)
    (hlast : last.isArithmetic = true) (h : last.hasQuotient = true) :
    CanBeMisread (binary .mul first last) := by
  intro distance hdistance
  obtain ⟨term, front, value, read, rfl, hfront, hvalue, hread, hapart⟩ :=
    exists_apart_of_hasQuotient hlast h hdistance
  obtain ⟨lead, rfl, hlead⟩ := exists_isTransparent hfirst front 0 hfront (Int.le_refl 0)
  refine ⟨binary .mul lead term, front * value, read, rfl, ⟨?_, ?_⟩, hapart⟩
  · rw [number?_binary, hlead.number, hvalue, Operator.combine_some, Operator.compute?_mul]
  · rw [readNumber?_mul hlead.read, hread]

end CanBeMisread

/-- **Every arrangement that is not safe can be misread.** -/
theorem canBeMisread_of_isSafe_eq_false {shape : Arrangement}
    (harithmetic : shape.isArithmetic = true) (h : shape.isSafe = false) : CanBeMisread shape := by
  induction shape with
  | operand leaf => cases h
  | binary op first last ihFirst ihLast =>
    simp only [isArithmetic_binary, Bool.and_eq_true] at harithmetic
    simp only [isSafe_binary, Bool.and_eq_false_iff, Bool.not_eq_false', Bool.and_eq_true, beq_iff_eq] at h
    rcases h with (hfirst | hlast) | ⟨rfl, hquotient⟩
    · exact .left harithmetic.1.1 (ihFirst harithmetic.1.2 hfirst) harithmetic.2
    · exact .right harithmetic.1.1 harithmetic.1.2 (ihLast harithmetic.2 hlast)
    · exact .product harithmetic.1.2 harithmetic.2 hquotient

end Term

end BulkDml
