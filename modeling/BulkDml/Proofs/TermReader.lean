import BulkDml.Proofs.LiteralText
import BulkDml.Proofs.Passage
import BulkDml.Proofs.Term

/-! # Reading terms

A reader of SQL expressions: operands are quoted names, literals and signed numbers, `*`, `/` and `%` bind
tighter than `+` and `-`, and these tighter than `=`, operators of one precedence group to the left, and
parentheses override.  The reader goes through the text once and keeps what waits for a right operand on a
stack.

* `nextOperand?` — the operand that a text starts with;
* `Term.read?` — the term that a text writes;
* `Term.IsOperand`, `Term.IsWritten` — operands that are read back wherever they stand, and terms of these;
* `Term.read?_write` — the text of a term is read as the term grouped to the left.
-/

namespace BulkDml

/-! ## Operands -/

/-- The run of letters, digits and points that a text starts with, and the rest.  A minus sign belongs to it
behind the letter of an exponent. -/
def spanBare (previous : Char) : Text → Text × Text
  | [] => ([], [])
  | c :: rest =>
    if c.isAlphanum || c == '.' || (c == '-' && previous == 'e') then
      let (run, after) := spanBare c rest
      (c :: run, after)
    else ([], c :: rest)

/-- The operand that starts with `c`, and the text behind it: a quoted name, a literal between apostrophes
with an `X` in front or not, or a run of letters, digits and points with a minus sign in front or not. -/
def nextOperand? (dialect : Dialect) (c : Char) (rest : Text) : Option (Text × Text) :=
  if c = dialect.openQuote then
    let (run, after) := spanQuoted dialect.closeQuote rest
    some (c :: run, after)
  else if c = '\'' then
    let (run, after) := spanQuoted '\'' rest
    some (c :: run, after)
  else if c = 'X' ∧ rest.head? = some '\'' then
    let (run, after) := spanQuoted '\'' rest.tail
    some (c :: '\'' :: run, after)
  else if c.isAlphanum || c == '-' then
    let (run, after) := spanBare c rest
    some (c :: run, after)
  else none

/-- A bare run and what follows it are the text. -/
@[simp] theorem spanBare_append (previous : Char) (text : Text) :
    (spanBare previous text).1 ++ (spanBare previous text).2 = text := by
  fun_induction spanBare previous text <;> simp_all

/-- An operand leaves less of the text. -/
theorem length_nextOperand?_le {dialect : Dialect} {c : Char} {rest text after : Text}
    (h : nextOperand? dialect c rest = some (text, after)) : after.length ≤ rest.length := by
  have hsuffix : ∀ run whole : Text, run ++ after = whole → after.length ≤ whole.length := by
    rintro run whole rfl
    simp
  unfold nextOperand? at h
  split at h
  · cases h
    exact hsuffix _ _ (spanQuoted_append _ rest)
  split at h
  · cases h
    exact hsuffix _ _ (spanQuoted_append _ rest)
  split at h
  · cases h
    have htail := hsuffix _ _ (spanQuoted_append '\'' rest.tail)
    rw [List.length_tail] at htail
    omega
  split at h
  · cases h
    exact hsuffix _ _ (spanBare_append c rest)
  · cases h

/-! ## The reader -/

namespace Term

/-- Left operands that wait for their right operand, each with its operator, innermost first. -/
abbrev Pending : Type := List (Term Text × Operator)

/-- Gives `term` as right operand to the waiting operators that bind at least as tightly as `least`. -/
def reduce (least : Nat) : Pending → Term Text → Pending × Term Text
  | [], term => ([], term)
  | (left, op) :: rest, term =>
    if least ≤ op.precedence then reduce least rest (binary op left term)
    else ((left, op) :: rest, term)

/-- The operator that a character writes. -/
def operatorOf? (c : Char) : Option Operator :=
  Operator.all.find? fun op => op.isSupported && op.sql == [c]

/-- Reads a text on.  `current` is the operand in front of it, if one was read; `pending` waits for it in
the innermost parentheses, and `outer` in the parentheses around these. -/
def readFrom (dialect : Dialect) (current : Option (Term Text)) (pending : Pending) (outer : List Pending) :
    Text → Option (Term Text)
  | [] =>
    match current, outer with
    | some term, [] => some (reduce 0 pending term).2
    | _, _ => none
  | c :: rest =>
    if c = ' ' then readFrom dialect current pending outer rest
    else match current with
      | none =>
        if c = '(' then readFrom dialect none [] (pending :: outer) rest
        else match _h : nextOperand? dialect c rest with
          | some (text, after) => readFrom dialect (some (operand text)) pending outer after
          | none => none
      | some term =>
        if c = ')' then
          match outer with
          | around :: outer => readFrom dialect (some (reduce 0 pending term).2) around outer rest
          | [] => none
        else match operatorOf? c with
          | some op =>
            let (waiting, left) := reduce op.precedence pending term
            readFrom dialect none ((left, op) :: waiting) outer rest
          | none => none
termination_by text => text.length
decreasing_by
  all_goals simp only [List.length_cons]
  · omega
  · omega
  · have hle := length_nextOperand?_le ‹nextOperand? dialect c rest = some _›
    omega
  · omega
  · omega

/-- The term that a text writes. -/
def read? (dialect : Dialect) (text : Text) : Option (Term Text) := readFrom dialect none [] [] text

/-! ## One step of the reader -/

/-- Spaces are passed over. -/
theorem readFrom_space (dialect : Dialect) (current : Option (Term Text)) (pending : Pending)
    (outer : List Pending) (rest : Text) :
    readFrom dialect current pending outer (' ' :: rest)
      = readFrom dialect current pending outer rest := by
  rw [readFrom.eq_def]
  simp only [if_true]

/-- An opening parenthesis lets everything wait that stands in front of it. -/
theorem readFrom_opening (dialect : Dialect) (pending : Pending) (outer : List Pending) (rest : Text) :
    readFrom dialect none pending outer ('(' :: rest)
      = readFrom dialect none [] (pending :: outer) rest := by
  rw [readFrom, if_neg (by decide)]
  rfl

/-- A closing parenthesis makes one operand of what it closes. -/
theorem readFrom_closing (dialect : Dialect) (term : Term Text) (pending around : Pending)
    (outer : List Pending) (rest : Text) :
    readFrom dialect (some term) pending (around :: outer) (')' :: rest)
      = readFrom dialect (some (reduce 0 pending term).2) around outer rest := by
  rw [readFrom, if_neg (by decide)]
  rfl

/-- An operator takes as left operand what binds at least as tightly, and waits. -/
theorem readFrom_operator (dialect : Dialect) {op : Operator} (hop : op.isSupported = true)
    (term : Term Text) (pending : Pending) (outer : List Pending) (rest : Text) :
    readFrom dialect (some term) pending outer (op.sql ++ rest)
      = readFrom dialect none
          (((reduce op.precedence pending term).2, op) :: (reduce op.precedence pending term).1)
          outer rest := by
  obtain ⟨c, hsql, hspace, hclosing, hwritten⟩ :
      ∃ c, op.sql = [c] ∧ c ≠ ' ' ∧ c ≠ ')' ∧ operatorOf? c = some op := by
    cases op
    all_goals first
      | exact ⟨_, rfl, by decide, by decide, by decide⟩
      | cases hop
  rw [hsql, List.cons_append, List.nil_append, readFrom.eq_def]
  simp only [if_neg hspace, if_neg hclosing, hwritten]

/-- Whether an operand ends in front of a text: the text is empty or starts with a space or a closing
parenthesis. -/
def endsOperand (text : Text) : Bool := text.head?.all fun c => c == ' ' || c == ')'

/-- Whether a text is read as one operand wherever an operand ends behind it. -/
structure IsOperand (dialect : Dialect) (c : Char) (tail : Text) : Prop where
  /-- It does not start with a space. -/
  ne_space : c ≠ ' '
  /-- It does not start with an opening parenthesis. -/
  ne_opening : c ≠ '('
  /-- It is taken off a text as a whole. -/
  next_append : ∀ rest, endsOperand rest = true →
    nextOperand? dialect c (tail ++ rest) = some (c :: tail, rest)

/-- What is taken off a text as an operand is read as one. -/
theorem readFrom_of_nextOperand? {dialect : Dialect} {c : Char} {rest text after : Text}
    (hspace : c ≠ ' ') (hopening : c ≠ '(') (h : nextOperand? dialect c rest = some (text, after))
    (pending : Pending) (outer : List Pending) :
    readFrom dialect none pending outer (c :: rest)
      = readFrom dialect (some (operand text)) pending outer after := by
  rw [readFrom, if_neg hspace]
  simp only [if_neg hopening]
  split
  · next run behind hnext =>
    rw [h] at hnext
    cases hnext
    rfl
  · next hnext =>
    rw [h] at hnext
    cases hnext

/-- An operand is read as one. -/
theorem readFrom_operand {dialect : Dialect} {c : Char} {tail : Text} (h : IsOperand dialect c tail)
    (pending : Pending) (outer : List Pending) {rest : Text} (hrest : endsOperand rest = true) :
    readFrom dialect none pending outer (c :: tail ++ rest)
      = readFrom dialect (some (operand (c :: tail))) pending outer rest :=
  readFrom_of_nextOperand? h.ne_space h.ne_opening (h.next_append rest hrest) pending outer

/-- A quoted name is an operand. -/
theorem isOperand_quote (dialect : Dialect) (name : Text) :
    IsOperand dialect dialect.openQuote
      (name.doubling dialect.closeQuote ++ [dialect.closeQuote]) := by
  refine ⟨by cases dialect <;> decide, by cases dialect <;> decide, ?_⟩
  intro rest hrest
  -- neither a space nor a parenthesis doubles the closing quote
  have hclose : rest.head? ≠ some dialect.closeQuote := by
    intro hhead
    rw [endsOperand, hhead] at hrest
    cases dialect <;> exact absurd hrest (by decide)
  rw [nextOperand?, if_pos rfl, List.append_assoc]
  simp only [List.cons_append, List.nil_append, spanQuoted_doubling _ _ _ hclose]

/-- A run of digits ends where an operand ends. -/
theorem spanBare_digits {digits : Text} (h : ∀ c ∈ digits, c.isDigit = true) (previous : Char)
    {rest : Text} (hrest : endsOperand rest = true) :
    spanBare previous (digits ++ rest) = (digits, rest) := by
  induction digits generalizing previous with
  | nil =>
    cases rest with
    | nil => rfl
    | cons c tail =>
      have hc : c = ' ' ∨ c = ')' := by simpa [endsOperand] using hrest
      rcases hc with rfl | rfl
      · rfl
      · rfl
  | cons c tail ih =>
    rw [List.forall_mem_cons] at h
    rw [List.cons_append, spanBare, if_pos (by simp [Char.isAlphanum, h.1]), ih h.2]

/-- Digits behind a digit or a minus sign are an operand with it. -/
theorem isOperand_number (dialect : Dialect) {c : Char} {tail : Text}
    (hc : (c.isDigit || c == '-') = true) (htail : ∀ d ∈ tail, d.isDigit = true) :
    IsOperand dialect c tail := by
  have hne : ∀ d, (d.isDigit || d == '-') = false → c ≠ d := by
    rintro d hd rfl
    rw [hc] at hd
    cases hd
  have hopen : c ≠ dialect.openQuote := hne _ (by cases dialect <;> decide)
  have hbare : (c.isAlphanum || c == '-') = true := by
    rw [Bool.or_eq_true] at hc ⊢
    exact hc.imp_left fun hdigit => by simp [Char.isAlphanum, hdigit]
  refine ⟨hne ' ' (by decide), hne '(' (by decide), ?_⟩
  intro rest hrest
  simp only [nextOperand?, if_neg hopen, if_neg (hne '\'' (by decide)), hne 'X' (by decide), false_and,
    if_false, hbare, if_true, spanBare_digits htail c hrest]

/-- The decimal form of an integer is an operand. -/
theorem exists_isOperand_ofInt (dialect : Dialect) (n : Int) :
    ∃ c tail, Text.ofInt n = c :: tail ∧ IsOperand dialect c tail := by
  cases n with
  | ofNat n =>
    obtain ⟨c, tail, hdigits⟩ := List.exists_cons_of_ne_nil (Text.ofNat_ne_nil n)
    have hall : ∀ d ∈ c :: tail, d.isDigit = true := by
      intro d hd
      rw [← hdigits] at hd
      exact Text.isDigit_of_mem_ofNat hd
    rw [List.forall_mem_cons] at hall
    exact ⟨c, tail, hdigits, isOperand_number dialect (by rw [hall.1]; rfl) hall.2⟩
  | negSucc n =>
    exact ⟨'-', _, rfl, isOperand_number dialect rfl fun d => Text.isDigit_of_mem_ofNat⟩

/-! ## What waits -/

/-- Whether what waits binds less tightly than `level`, up to the innermost operator, which may bind as
tightly. -/
def AtMost (level : Nat) : Pending → Prop
  | [] => True
  | (_, op) :: rest => op.precedence ≤ level ∧ ∀ waiting ∈ rest, waiting.2.precedence < level

/-- What waits below a level waits below every higher one. -/
theorem AtMost.mono {least level : Nat} {pending : Pending} (h : AtMost least pending)
    (hle : least ≤ level) : AtMost level pending := by
  cases pending with
  | nil => trivial
  | cons first rest =>
    refine ⟨le_trans h.1 hle, ?_⟩
    intro waiting hmem
    exact lt_of_lt_of_le (h.2 waiting hmem) hle

/-- Operators that bind less tightly go on waiting. -/
theorem reduce_of_forall_lt {least : Nat} {pending : Pending} (term : Term Text)
    (h : ∀ waiting ∈ pending, waiting.2.precedence < least) :
    reduce least pending term = (pending, term) := by
  cases pending with
  | nil => rfl
  | cons first rest =>
    have hlt := h first List.mem_cons_self
    rw [reduce, if_neg (by omega)]

/-- Reducing in two steps comes to the same. -/
theorem reduce_reduce {least level : Nat} (hle : least ≤ level) (pending : Pending) (term : Term Text) :
    reduce least (reduce level pending term).1 (reduce level pending term).2
      = reduce least pending term := by
  induction pending generalizing term with
  | nil => rfl
  | cons first rest ih =>
    by_cases htight : level ≤ first.2.precedence
    · rw [reduce, if_pos htight, ih, reduce, if_pos (le_trans hle htight)]
    · -- the first step stops here, and the second one starts here
      rw [reduce, if_neg htight]

/-- Puts a term that was read behind what waits: behind an operator of the given level it is taken apart. -/
def receive (level : Nat) : Pending → Term Text → Pending × Term Text
  | [], term => ([], term)
  | (left, op) :: rest, term =>
    if op.precedence = level then (rest, graft left op term) else ((left, op) :: rest, term)

/-- What is left waiting binds less tightly. -/
theorem precedence_lt_of_mem_receive {level : Nat} {pending : Pending} (h : AtMost level pending)
    (term : Term Text) : ∀ waiting ∈ (receive level pending term).1, waiting.2.precedence < level := by
  cases pending with
  | nil => simp [receive]
  | cons first rest =>
    rw [receive]
    split
    · exact h.2
    · next hne =>
      intro waiting hmem
      rcases List.mem_cons.mp hmem with rfl | hmem
      · exact lt_of_le_of_ne h.1 hne
      · exact h.2 waiting hmem

/-- A term that binds differently is received by reducing. -/
theorem reduce_eq_receive {level : Nat} {pending : Pending} (h : AtMost level pending) {term : Term Text}
    (hne : term.precedence ≠ level) : reduce level pending term = receive level pending term := by
  cases pending with
  | nil => rfl
  | cons first rest =>
    by_cases hsame : first.2.precedence = level
    · -- the innermost operator takes the term, and no other binds as tightly
      rw [reduce, if_pos (by omega), reduce_of_forall_lt _ h.2, receive, if_pos hsame,
        graft_of_precedence_ne _ (by rw [hsame]; exact hne)]
    · -- no operator binds as tightly, so that all go on waiting
      have hle := h.1
      rw [reduce, if_neg (by omega), receive, if_neg hsame]

/-- A term that was received at its own level is received at a lower one by reducing. -/
theorem reduce_receive {level : Nat} {pending : Pending} (h : AtMost level pending) {term : Term Text}
    (hle : level ≤ term.precedence) :
    reduce level (receive term.precedence pending term).1 (receive term.precedence pending term).2
      = receive level pending term := by
  by_cases hlevel : term.precedence = level
  · rw [hlevel, reduce_of_forall_lt _ (precedence_lt_of_mem_receive h term)]
  · -- a term that binds tighter than the level was not taken by anything yet
    cases pending with
    | nil => rfl
    | cons first rest =>
      have hfirst := h.1
      rw [receive, if_neg (by omega)]
      exact reduce_eq_receive h hlevel

/-- Attaching to a term that was received is receiving what it is attached to. -/
theorem receive_attach {op : Operator} {pending : Pending} (left right : Term Text) :
    receive op.precedence pending (attach left op right)
      = ((receive op.precedence pending left).1,
          attach (receive op.precedence pending left).2 op right) := by
  cases pending with
  | nil => rfl
  | cons first rest =>
    by_cases hsame : first.2.precedence = op.precedence
    · rw [receive, if_pos hsame, receive, if_pos hsame, graft_attach _ _ _ hsame.symm]
    · rw [receive, if_neg hsame, receive, if_neg hsame]

/-! ## Reading a written term -/

/-- Whether a term is made of operands that are read back and of operators that are written. -/
def IsWritten (dialect : Dialect) : Term Text → Prop
  | operand [] => False
  | operand (c :: tail) => IsOperand dialect c tail
  | binary op left right => op.isSupported = true ∧ left.IsWritten dialect ∧ right.IsWritten dialect

/-- Whether a text is read, in front of whatever ends an operand, as `term` with `after` waiting for its
right operand. -/
def ReadsAs (dialect : Dialect) (text : Text) (pending after : Pending) (term : Term Text) : Prop :=
  ∀ outer rest, endsOperand rest = true →
    readFrom dialect none pending outer (text ++ rest) = readFrom dialect (some term) after outer rest

/-- Whether a term is read so that its operands, and those of what waits for it, group to the left. -/
def ReadsGrouped (dialect : Dialect) (term : Term Text) : Prop :=
  ∀ pending, AtMost term.precedence pending →
    ∃ after last, ReadsAs dialect term.write pending after last
      ∧ reduce term.precedence after last = receive term.precedence pending term.leftGrouped

namespace ReadsGrouped

variable {dialect : Dialect}

/-- A term that nothing waits for is read as a whole. -/
theorem alone {term : Term Text} (h : ReadsGrouped dialect term) :
    ∃ after last, ReadsAs dialect term.write [] after last
      ∧ (reduce 0 after last).2 = term.leftGrouped := by
  obtain ⟨after, last, hreads, hreduce⟩ := h [] trivial
  refine ⟨after, last, hreads, ?_⟩
  rw [← reduce_reduce (Nat.zero_le term.precedence), hreduce]
  rfl

/-- Parentheses make one operand of a term. -/
theorem enclosed {term : Term Text} (h : ReadsGrouped dialect term) (pending : Pending) :
    ReadsAs dialect (Expr.enclose true term.write) pending pending term.leftGrouped := by
  -- inside, nothing waits; outside, `pending` waits for what is closed
  obtain ⟨after, last, hreads, hall⟩ := h.alone
  intro outer rest _
  have hinside := hreads (pending :: outer) (')' :: rest) rfl
  rw [readFrom_closing, hall] at hinside
  rw [← hinside, ← readFrom_opening]
  simp [Expr.enclose]

/-- A term in no parentheses is received at the level of an operator that binds no tighter. -/
theorem plain {term : Term Text} (h : ReadsGrouped dialect term) {level : Nat}
    (hlevel : level ≤ term.precedence) {pending : Pending} (hpending : AtMost level pending) :
    ∃ after last, ReadsAs dialect (Expr.enclose false term.write) pending after last
      ∧ reduce level after last = receive level pending term.leftGrouped := by
  obtain ⟨after, last, hreads, hreduce⟩ := h pending (hpending.mono hlevel)
  refine ⟨after, last, hreads, ?_⟩
  rw [← reduce_reduce hlevel, hreduce, ← precedence_leftGrouped]
  exact reduce_receive hpending (by rw [precedence_leftGrouped]; exact hlevel)

/-- A left operand is received at the level of its operator. -/
theorem leftOperand {term : Term Text} (h : ReadsGrouped dialect term) (op : Operator) {pending : Pending}
    (hpending : AtMost op.precedence pending) :
    ∃ after last,
      ReadsAs dialect (Expr.enclose (needsParens op false term) term.write) pending after last
        ∧ reduce op.precedence after last = receive op.precedence pending term.leftGrouped := by
  cases hparens : needsParens op false term with
  | false =>
    -- no parentheses: the operators of the term are received one by one
    have hlevel : op.precedence ≤ term.precedence := by simpa [needsParens] using hparens
    exact h.plain hlevel hpending
  | true =>
    -- in parentheses it is one operand, which a looser term is anyway
    have hlevel : term.precedence < op.precedence := by simpa [needsParens] using hparens
    refine ⟨pending, term.leftGrouped, h.enclosed pending, reduce_eq_receive hpending ?_⟩
    rw [precedence_leftGrouped]
    omega

/-- A right operand is attached to the left operand that waits for it. -/
theorem rightOperand {term : Term Text} (h : ReadsGrouped dialect term) (op : Operator) (left : Term Text)
    {pending : Pending} (hpending : ∀ waiting ∈ pending, waiting.2.precedence < op.precedence) :
    ∃ after last,
      ReadsAs dialect (Expr.enclose (needsParens op true term) term.write) ((left, op) :: pending)
          after last
        ∧ reduce op.precedence after last = (pending, attach left op term.leftGrouped) := by
  cases hparens : needsParens op true term with
  | false =>
    simp only [needsParens, Bool.true_and, Bool.or_eq_false_iff, decide_eq_false_iff_not,
      Bool.and_eq_false_iff, beq_eq_false_iff_ne] at hparens
    have hlevel : op.precedence ≤ term.precedence := by omega
    have hwaiting : AtMost op.precedence ((left, op) :: pending) := ⟨le_refl _, hpending⟩
    obtain ⟨after, last, hreads, hreduce⟩ := h.plain hlevel hwaiting
    refine ⟨after, last, hreads, ?_⟩
    rw [hreduce, receive, if_pos rfl]
    -- an operator that regroups leaves only tighter right operands without parentheses
    rcases hparens.2 with hne | hregroups
    · rw [← precedence_leftGrouped] at hne
      rw [graft_of_precedence_ne _ hne, attach_of_precedence_ne _ hne]
    · rw [attach_of_not_regroups _ _ hregroups]
  | true =>
    simp only [needsParens, Bool.true_and, Bool.or_eq_true, decide_eq_true_eq, Bool.and_eq_true,
      beq_iff_eq] at hparens
    refine ⟨_, _, h.enclosed ((left, op) :: pending), ?_⟩
    -- in parentheses it becomes the right operand as a whole, be it looser or regrouped
    rw [reduce, if_pos (le_refl _), reduce_of_forall_lt _ hpending]
    rcases hparens with hlt | ⟨-, hregroups⟩
    · rw [attach_of_precedence_ne]
      rw [precedence_leftGrouped]
      omega
    · rw [attach_of_regroups _ _ hregroups]

/-- An operand is read as one. -/
theorem ofOperand {c : Char} {tail : Text} (h : IsOperand dialect c tail) :
    ReadsGrouped dialect (operand (c :: tail)) := by
  intro pending hpending
  refine ⟨pending, operand (c :: tail), ?_, ?_⟩
  · intro outer rest hrest
    exact readFrom_operand h pending outer hrest
  · -- every operator that waits binds less tightly than an operand
    have hlt : ∀ waiting ∈ pending, waiting.2.precedence < 10 := by
      intro waiting _
      exact precedence_lt_operand waiting.2
    rw [precedence_operand, reduce_of_forall_lt _ hlt]
    cases pending with
    | nil => rfl
    | cons first rest =>
      have hne := hlt first List.mem_cons_self
      rw [receive, if_neg (by omega)]
      rfl

/-- A binary term is read from its operands. -/
theorem binary {op : Operator} (hop : op.isSupported = true) {left right : Term Text}
    (hleft : ReadsGrouped dialect left) (hright : ReadsGrouped dialect right) :
    ReadsGrouped dialect (.binary op left right) := by
  intro pending hpending
  rw [precedence_binary] at hpending ⊢
  obtain ⟨waiting, first, hfirst, hreduceFirst⟩ := hleft.leftOperand op hpending
  obtain ⟨after, last, hlast, hreduceLast⟩ :=
    hright.rightOperand op (receive op.precedence pending left.leftGrouped).2
      (precedence_lt_of_mem_receive hpending left.leftGrouped)
  refine ⟨after, last, ?_, ?_⟩
  · intro outer rest hrest
    -- the operator and the right operand are what stands behind the left one
    have hbehind := hfirst outer (' ' :: (op.sql ++ (' ' ::
      (Expr.enclose (needsParens op true right) right.write ++ rest)))) rfl
    rw [readFrom_space, readFrom_operator dialect hop, readFrom_space, hreduceFirst,
      hlast outer rest hrest] at hbehind
    rw [← hbehind, write_binary]
    simp only [List.append_assoc, List.cons_append]
  · rw [hreduceLast, leftGrouped_binary, receive_attach]

end ReadsGrouped

/-- Every written term is read with its operands grouped to the left. -/
theorem readsGrouped_of_isWritten {dialect : Dialect} {term : Term Text} (h : term.IsWritten dialect) :
    ReadsGrouped dialect term := by
  induction term with
  | operand text =>
    cases text with
    | nil => exact h.elim
    | cons c tail => exact .ofOperand h
  | binary op left right ihLeft ihRight => exact .binary h.1 (ihLeft h.2.1) (ihRight h.2.2)

/-- **The text of a term is read as the term grouped to the left**, as a whole. -/
theorem read?_write {dialect : Dialect} {term : Term Text} (h : term.IsWritten dialect) :
    read? dialect term.write = some term.leftGrouped := by
  obtain ⟨after, last, hreads, hall⟩ := (readsGrouped_of_isWritten h).alone
  have hread := hreads [] [] rfl
  rw [List.append_nil] at hread
  rw [read?, hread, readFrom]
  exact congrArg some hall

end Term

end BulkDml
