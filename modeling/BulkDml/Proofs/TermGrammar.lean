import BulkDml.Proofs.OperandText

/-! # A grammar of terms

The texts of terms by a grammar with one level for each precedence: an operand or a term in parentheses, or
two terms with an operator between them, the right one of which binds tighter.  Spaces may stand around
every term, and none has to.

* `Term.Derives` — the grammar;
* `Term.Derives.readsBefore`, `Term.Derives.read?_eq` — the reader finds every derivation, so that a text has
  one at most;
* `Term.derives_write_iff` — the text of a term is derived as the term grouped to the left, and not otherwise;
* `Expr.derives_sql_iff` — the one reading of what is written of an expression.
-/

namespace BulkDml

namespace Term

variable {dialect : Dialect}

/-- The terms that a text writes.  The operators of a term of some level, those in parentheses aside, bind at
least as tightly as the level. -/
inductive Derives (dialect : Dialect) : Nat → Text → Term Text → Prop
  /-- An operand is a term. -/
  | operand {text : Text} (h : OperandText dialect text) : Derives dialect 10 text (.operand text)
  /-- A term of any level is one operand in parentheses. -/
  | parens {text : Text} {term : Term Text} (h : Derives dialect 0 text term) :
    Derives dialect 10 ('(' :: text ++ [')']) term
  /-- An operator takes everything on its left that binds as tightly, and on its right only what binds
  tighter. -/
  | binary {op : Operator} {leftText rightText : Text} {left right : Term Text}
    (hop : op.isSupported = true) (hleft : Derives dialect op.precedence leftText left)
    (hright : Derives dialect (op.precedence + 1) rightText right) :
    Derives dialect op.precedence (leftText ++ op.sql ++ rightText) (.binary op left right)
  /-- What binds tighter may stand where less is needed. -/
  | looser {least level : Nat} {text : Text} {term : Term Text} (hle : least ≤ level)
    (h : Derives dialect level text term) : Derives dialect least text term
  /-- A space may stand in front. -/
  | spaceBefore {level : Nat} {text : Text} {term : Term Text} (h : Derives dialect level text term) :
    Derives dialect level (' ' :: text) term
  /-- A space may stand behind. -/
  | spaceBehind {level : Nat} {text : Text} {term : Term Text} (h : Derives dialect level text term) :
    Derives dialect level (text ++ [' ']) term

/-! ## The reader finds every derivation -/

/-- Whether a text is read, in front of every mark, as `term` with `after` waiting for its right operand. -/
def ReadsBefore (dialect : Dialect) (text : Text) (pending after : Pending) (term : Term Text) : Prop :=
  ∀ outer rest, Text.startsMark rest = true →
    readFrom dialect none pending outer (text ++ rest) = readFrom dialect (some term) after outer rest

/-- An operator starts with a mark. -/
theorem startsMark_sql_append {op : Operator} (hop : op.isSupported = true) (rest : Text) :
    Text.startsMark (op.sql ++ rest) = true := by
  cases op
  all_goals first
    | rfl
    | cases hop

/-- An operand that is taken off as a whole is read as one. -/
theorem readsBefore_operand {text : Text} (h : OperandText dialect text) (pending : Pending) :
    ReadsBefore dialect text pending pending (.operand text) := by
  obtain ⟨c, tail, rfl, htaken⟩ := h.exists_isTaken
  intro outer rest hrest
  exact readFrom_of_nextOperand? htaken.ne_space htaken.ne_opening (htaken.next_append rest hrest)
    pending outer

/-- **The reader finds every derivation.**  Behind operators that bind less tightly than its level, a derived
text is read so that these go on waiting, and the term is what it is derived as. -/
theorem Derives.readsBefore {level : Nat} {text : Text} {term : Term Text}
    (h : Derives dialect level text term) {pending : Pending}
    (hpending : ∀ waiting ∈ pending, waiting.2.precedence < level) :
    ∃ after last, ReadsBefore dialect text pending after last
      ∧ reduce level after last = (pending, term) := by
  induction h generalizing pending with
  | operand h =>
    exact ⟨pending, _, readsBefore_operand h pending, reduce_of_forall_lt _ hpending⟩
  | parens h ih =>
    -- inside, nothing waits; outside, `pending` waits for what is closed
    have hnone : ∀ waiting ∈ ([] : Pending), waiting.2.precedence < 0 := by simp
    obtain ⟨after, last, hreads, hreduce⟩ := ih hnone
    refine ⟨pending, _, ?_, reduce_of_forall_lt _ hpending⟩
    intro outer rest _
    have hinside := hreads (pending :: outer) (')' :: rest) rfl
    rw [readFrom_closing, hreduce] at hinside
    rw [← hinside, ← readFrom_opening]
    simp only [List.cons_append, List.append_assoc, List.nil_append]
  | @binary op leftText rightText left right hop hleft hright ihLeft ihRight =>
    obtain ⟨waiting, first, hfirst, hreduceFirst⟩ := ihLeft hpending
    -- the left operand waits with its operator, which the right one binds tighter than
    have hwaiting : ∀ entry ∈ (left, op) :: pending, entry.2.precedence < op.precedence + 1 := by
      intro entry hmem
      rcases List.mem_cons.mp hmem with rfl | hmem
      · exact Nat.lt_succ_self _
      · exact Nat.lt_succ_of_lt (hpending entry hmem)
    obtain ⟨after, last, hlast, hreduceLast⟩ := ihRight hwaiting
    refine ⟨after, last, ?_, ?_⟩
    · intro outer rest hrest
      have hbehind := hfirst outer (op.sql ++ (rightText ++ rest)) (startsMark_sql_append hop _)
      rw [readFrom_operator dialect hop, hreduceFirst, hlast outer rest hrest] at hbehind
      rw [← hbehind]
      simp only [List.append_assoc]
    · rw [← reduce_reduce (Nat.le_succ op.precedence), hreduceLast, reduce, if_pos (le_refl _),
        reduce_of_forall_lt _ hpending]
  | looser hle h ih =>
    obtain ⟨after, last, hreads, hreduce⟩ :=
      ih fun waiting hmem => lt_of_lt_of_le (hpending waiting hmem) hle
    refine ⟨after, last, hreads, ?_⟩
    rw [← reduce_reduce hle, hreduce, reduce_of_forall_lt _ hpending]
  | spaceBefore h ih =>
    obtain ⟨after, last, hreads, hreduce⟩ := ih hpending
    refine ⟨after, last, ?_, hreduce⟩
    intro outer rest hrest
    rw [List.cons_append, readFrom_space, hreads outer rest hrest]
  | spaceBehind h ih =>
    obtain ⟨after, last, hreads, hreduce⟩ := ih hpending
    refine ⟨after, last, ?_, hreduce⟩
    intro outer rest _
    have hbehind := hreads outer (' ' :: rest) rfl
    rw [readFrom_space] at hbehind
    rw [← hbehind, List.append_assoc]
    rfl

/-- A text that is derived is read as what it is derived as. -/
theorem Derives.read?_eq {text : Text} {term : Term Text} (h : Derives dialect 0 text term) :
    read? dialect text = some term := by
  have hnone : ∀ waiting ∈ ([] : Pending), waiting.2.precedence < 0 := by simp
  obtain ⟨after, last, hreads, hreduce⟩ := h.readsBefore hnone
  have hread := hreads [] [] rfl
  rw [List.append_nil] at hread
  rw [read?, hread, readFrom, hreduce]

/-! ## The text of a term is derived -/

/-- Whether a term is made of operands and of operators that are written. -/
def IsWritable (dialect : Dialect) : Term Text → Prop
  | operand text => OperandText dialect text
  | binary op left right => op.isSupported = true ∧ left.IsWritable dialect ∧ right.IsWritable dialect

/-- Two terms around an operator that is set off by spaces. -/
theorem Derives.spaced {op : Operator} {leftText rightText : Text} {left right : Term Text}
    (hop : op.isSupported = true) (hleft : Derives dialect op.precedence leftText left)
    (hright : Derives dialect (op.precedence + 1) rightText right) :
    Derives dialect op.precedence (leftText ++ ' ' :: op.sql ++ ' ' :: rightText)
      (.binary op left right) := by
  have hspaced := Derives.binary hop hleft.spaceBehind hright.spaceBefore
  simpa only [List.append_assoc, List.cons_append, List.nil_append] using hspaced

/-- Parentheses, or none around a term that binds tightly enough, make a term of a higher level. -/
theorem Derives.enclose {level least : Nat} {text : Text} {term : Term Text}
    (h : Derives dialect level text term) {parens : Bool} (hleast : least ≤ 10)
    (hlevel : parens = false → least ≤ level) :
    Derives dialect least (Expr.enclose parens text) term := by
  cases parens with
  | true => exact .looser hleast (.parens (.looser (Nat.zero_le _) h))
  | false => exact .looser (hlevel rfl) h

/-- Whether the text of a term is derived as the term grouped to the left: by itself, and behind an operand and
an operator that binds no tighter, where it is taken apart. -/
structure IsDerived (dialect : Dialect) (term : Term Text) : Prop where
  /-- By itself it has the level of its operator. -/
  alone : Derives dialect term.precedence term.write term.leftGrouped
  /-- Behind an operand and an operator that binds no tighter it is taken apart. -/
  behind : ∀ {op : Operator} {leftText : Text} {left : Term Text}, op.isSupported = true →
    op.precedence ≤ term.precedence → Derives dialect op.precedence leftText left →
      Derives dialect op.precedence (leftText ++ ' ' :: op.sql ++ ' ' :: term.write)
        (graft left op term.leftGrouped)

namespace IsDerived

/-- A left operand stands in parentheses unless it binds tightly enough. -/
theorem leftOperand {term : Term Text} (h : IsDerived dialect term) (op : Operator) :
    Derives dialect op.precedence (Expr.enclose (needsParens op false term) term.write)
      term.leftGrouped := by
  refine h.alone.enclose (precedence_lt_operand op).le ?_
  intro hparens
  simpa [needsParens] using hparens

/-- A left operand that itself stands behind an operand and an operator of the same precedence is taken
apart, or stands in parentheses because it binds less tightly. -/
theorem leftOperand_behind {term : Term Text} (h : IsDerived dialect term) {op inner : Operator}
    (hsame : inner.precedence = op.precedence) (hop : op.isSupported = true) {leftText : Text}
    {left : Term Text} (hleft : Derives dialect op.precedence leftText left) :
    Derives dialect op.precedence
      (leftText ++ ' ' :: op.sql ++ ' ' :: Expr.enclose (needsParens inner false term) term.write)
      (graft left op term.leftGrouped) := by
  cases hparens : needsParens inner false term with
  | false =>
    have hlevel : inner.precedence ≤ term.precedence := by simpa [needsParens] using hparens
    exact h.behind hop (hsame ▸ hlevel) hleft
  | true =>
    have hlevel : term.precedence < inner.precedence := by simpa [needsParens] using hparens
    have hne : term.leftGrouped.precedence ≠ op.precedence := by
      rw [precedence_leftGrouped]
      omega
    rw [graft_of_precedence_ne left hne]
    exact .spaced hop hleft (h.alone.enclose (precedence_lt_operand op) (by simp))

/-- A right operand is attached to the left operand in front of it. -/
theorem rightOperand {term : Term Text} (h : IsDerived dialect term) {op : Operator}
    (hop : op.isSupported = true) {leftText : Text} {left : Term Text}
    (hleft : Derives dialect op.precedence leftText left) :
    Derives dialect op.precedence
      (leftText ++ ' ' :: op.sql ++ ' ' :: Expr.enclose (needsParens op true term) term.write)
      (attach left op term.leftGrouped) := by
  -- in parentheses, or as a tighter term, it is one operand
  have hwhole : ∀ {parens : Bool}, (parens = false → op.precedence < term.precedence) →
      Derives dialect op.precedence
        (leftText ++ ' ' :: op.sql ++ ' ' :: Expr.enclose parens term.write)
        (.binary op left term.leftGrouped) := by
    intro parens hlevel
    exact .spaced hop hleft (h.alone.enclose (precedence_lt_operand op) hlevel)
  cases hparens : needsParens op true term with
  | true =>
    simp only [needsParens, Bool.true_and, Bool.or_eq_true, decide_eq_true_eq, Bool.and_eq_true,
      beq_iff_eq] at hparens
    have hattach : attach left op term.leftGrouped = .binary op left term.leftGrouped := by
      rcases hparens with hlt | ⟨-, hregroups⟩
      · refine attach_of_precedence_ne left ?_
        rw [precedence_leftGrouped]
        omega
      · exact attach_of_regroups left _ hregroups
    rw [hattach]
    exact hwhole (by simp)
  | false =>
    simp only [needsParens, Bool.true_and, Bool.or_eq_false_iff, decide_eq_false_iff_not,
      Bool.and_eq_false_iff, beq_eq_false_iff_ne] at hparens
    rcases hparens.2 with hne | hregroups
    · rw [attach_of_precedence_ne left (by rwa [precedence_leftGrouped])]
      refine hwhole ?_
      intro _
      omega
    · rw [attach_of_not_regroups left _ hregroups]
      exact h.behind hop (by omega) hleft

/-- An operand is derived as one. -/
theorem ofOperand {text : Text} (h : OperandText dialect text) :
    IsDerived dialect (.operand text) where
  alone := .operand h
  behind := by
    intro op leftText left hop _ hleft
    exact .spaced hop hleft (.looser (precedence_lt_operand op) (.operand h))

/-- A binary term is derived from its operands. -/
theorem binary {inner : Operator} (hinner : inner.isSupported = true) {first last : Term Text}
    (hfirst : IsDerived dialect first) (hlast : IsDerived dialect last) :
    IsDerived dialect (.binary inner first last) := by
  have halone := hlast.rightOperand hinner (hfirst.leftOperand inner)
  refine ⟨halone, ?_⟩
  intro op leftText left hop hlevel hleft
  rw [precedence_binary] at hlevel
  by_cases hsame : inner.precedence = op.precedence
  · -- the first operand goes behind `left`, and the last one behind both
    have hbehind := hfirst.leftOperand_behind hsame hop hleft
    rw [← hsame] at hbehind
    have hboth := hlast.rightOperand hinner hbehind
    rw [hsame] at hboth
    rw [leftGrouped_binary, graft_attach _ _ _ hsame, write_binary]
    simpa only [List.append_assoc, List.cons_append] using hboth
  · -- a tighter term is one operand
    have hne : (Term.binary inner first last).leftGrouped.precedence ≠ op.precedence := by
      rwa [precedence_leftGrouped, precedence_binary]
    rw [graft_of_precedence_ne left hne]
    exact .spaced hop hleft (.looser (by omega) halone)

end IsDerived

/-- The text of a term is derived as the term grouped to the left. -/
theorem isDerived_of_isWritable {term : Term Text} (h : term.IsWritable dialect) :
    IsDerived dialect term := by
  induction term with
  | operand text => exact .ofOperand h
  | binary op left right ihLeft ihRight => exact .binary h.1 (ihLeft h.2.1) (ihRight h.2.2)

/-- **The text of a term has one derivation**, as the term grouped to the left. -/
theorem derives_write_iff {term other : Term Text} (h : term.IsWritable dialect) :
    Derives dialect 0 term.write other ↔ other = term.leftGrouped := by
  have hderives : Derives dialect 0 term.write term.leftGrouped :=
    .looser (Nat.zero_le _) (isDerived_of_isWritable h).alone
  constructor
  · intro hother
    have hread := hother.read?_eq
    rw [hderives.read?_eq] at hread
    exact (Option.some.inj hread).symm
  · rintro rfl
    exact hderives

end Term

/-! ## What is written of an expression -/

namespace Expr

/-- The term of an expression that has one can be written. -/
theorem isWritable_of_term {dialect : Dialect} {expr : Expr} {term : Term Text}
    (h : expr.term dialect = .ok term) : term.IsWritable dialect := by
  induction expr generalizing term with
  | captured name value =>
    obtain ⟨text, htext, rfl⟩ := term_literal_eq_ok_iff.mp h
    exact Rendered.operandText_of_toSql htext
  | column name =>
    cases h
    exact .name name
  | constant value =>
    obtain ⟨text, htext, rfl⟩ := term_literal_eq_ok_iff.mp h
    exact Rendered.operandText_of_toSql htext
  | converted operand ih => exact ih h
  | binary op left right ihLeft ihRight =>
    obtain ⟨hop, leftTerm, rightTerm, hleft, hright, rfl⟩ := term_binary_eq_ok_iff.mp h
    exact ⟨hop, ihLeft hleft, ihRight hright⟩

/-- Of the right operands that bind as tightly as the operator in front of them, those of sums and products
alone stand in no parentheses. -/
theorem needsParens_right_eq_false_iff {op inner : Operator} (hop : op.isSupported = true)
    {operand left right : Expr} (hbare : operand.bare = .binary inner left right)
    (hsame : inner.precedence = op.precedence) :
    needsParens op true operand = false ↔ op = .add ∨ op = .mul := by
  simp only [needsParens, hbare, hsame, lt_irrefl, decide_false, Bool.false_or, Bool.true_and, beq_self_eq_true]
  cases op
  all_goals first
    | decide
    | cases hop

/-- **What is written of an expression can be read in one way only**: as its term, without conversions and with
the texts of its leaves, grouped to the left where a right operand binds as tightly and stands in no
parentheses.  Only right operands of sums and products do both. -/
theorem derives_sql_iff {dialect : Dialect} {expr : Expr} {text : Text}
    (h : expr.sql dialect = .ok text) :
    (∃ term, expr.term dialect = .ok term
      ∧ (∀ other, Term.Derives dialect 0 text other ↔ other = term.leftGrouped)
      ∧ Term.read? dialect text = some term.leftGrouped)
    ∧ ∀ (op inner : Operator) (operand left right : Expr), op.isSupported = true →
      operand.bare = .binary inner left right → inner.precedence = op.precedence →
        (needsParens op true operand = false ↔ op = .add ∨ op = .mul) := by
  constructor
  · obtain ⟨term, hterm, rfl⟩ := sql_eq_ok_iff_term.mp h
    have hderives : ∀ other, Term.Derives dialect 0 term.write other ↔ other = term.leftGrouped :=
      fun other => Term.derives_write_iff (isWritable_of_term hterm)
    exact ⟨term, hterm, hderives, ((hderives _).mpr rfl).read?_eq⟩
  · intro op inner operand left right hop hbare hsame
    exact needsParens_right_eq_false_iff hop hbare hsame

/-- `[a]]b] + -5 - 'it''s (1 - 2)' * -1.5e300 * X'AB'`, in which both the difference and the second product
are right operands. -/
def trickyLeaves : Expr :=
  .binary .add (.column "a]b".toList)
    (.binary .sub (.constant (.int (-5)))
      (.binary .mul (.captured "note".toList (.text "it's (1 - 2)".toList))
        (.converted (.binary .mul (.constant (.float (.ofDecimal true 15 299)))
          (.constant (.blob [0xAB]))))))

/-- What the text of `trickyLeaves` is read as: a difference whose left operand is the sum. -/
def trickyReading : Term Text :=
  .binary .sub (.binary .add (.operand "[a]]b]".toList) (.operand "-5".toList))
    (.binary .mul
      (.binary .mul (.operand "'it''s (1 - 2)'".toList) (.operand "-1.5e300".toList))
      (.operand "X'AB'".toList))

/-- The text of `trickyLeaves` has no other reading. -/
theorem derives_sql_trickyLeaves :
    trickyLeaves.sql .sqlServer = .ok "[a]]b] + -5 - 'it''s (1 - 2)' * -1.5e300 * X'AB'".toList
      ∧ ∀ other, Term.Derives .sqlServer 0
          "[a]]b] + -5 - 'it''s (1 - 2)' * -1.5e300 * X'AB'".toList other
        ↔ other = trickyReading := by
  have hsql : trickyLeaves.sql .sqlServer
      = .ok "[a]]b] + -5 - 'it''s (1 - 2)' * -1.5e300 * X'AB'".toList := by
    decide +kernel
  have hgrouped : (trickyLeaves.term .sqlServer).map Term.leftGrouped = .ok trickyReading := by
    decide +kernel
  obtain ⟨⟨term, hterm, hderives, -⟩, -⟩ := derives_sql_iff hsql
  rw [hterm] at hgrouped
  have hreading : term.leftGrouped = trickyReading := Except.ok.inj hgrouped
  rw [hreading] at hderives
  exact ⟨hsql, hderives⟩

end Expr

end BulkDml
