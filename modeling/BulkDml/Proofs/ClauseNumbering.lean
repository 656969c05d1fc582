import BulkDml.Proofs.MergedBindings

/-! # What an assignment is compiled to

Each assignment that is kept gives one fragment, in its place.  A value is bound to a parameter, and the
ordinal of the parameter is the number of values assigned in front of it; everything else is written behind
the equals sign and takes no ordinal.  What is ignored has no part in this.

* `Expr.render_of_literal?`, `Expr.render_of_not_literal` — values are always rendered, to themselves, and
  everything else to its text if it has one;
* `Assignment.assignedValues`, `Assignment.parametersFrom` — the values of an assignment and their parameters;
* `Assignment.IsClause` — the clause that an assignment without ignored columns is to give;
* `Assignment.compile_law` — compiling gives this clause, or the first reason why there is none.
-/

namespace BulkDml

/-! ## Values and computed texts -/

namespace Expr

/-- A value is rendered to itself, whatever it is. -/
theorem render_of_literal? {expr : Expr} {value : Value} (h : expr.literal? = some value)
    (dialect : Dialect) : expr.render dialect = .ok (.literal value) := by
  induction expr with
  | captured name held =>
    cases h
    rfl
  | constant held =>
    cases h
    rfl
  | converted operand ih => exact ih h
  | column name => cases h
  | binary op left right => cases h

/-- What is no value is rendered to its text, and fails where its text does. -/
theorem render_of_not_literal {expr : Expr} (h : expr.isLiteral = false) (dialect : Dialect) :
    expr.render dialect = (expr.sql dialect).map .sql := by
  rw [sql]
  cases hrender : expr.render dialect with
  | error cause => rfl
  | ok rendered =>
    rcases rendered_cases hrender with ⟨hliteral, -⟩ | ⟨-, text, rfl, -⟩
    · rw [h] at hliteral
      cases hliteral
    · rfl

/-- Only what is no value can fail to be rendered, and then its text fails. -/
theorem render_eq_error_iff {dialect : Dialect} {expr : Expr} {cause : CompileError} :
    expr.render dialect = .error cause ↔ expr.isLiteral = false ∧ expr.sql dialect = .error cause := by
  cases hvalue : expr.literal? with
  | some value =>
    rw [render_of_literal? hvalue, isLiteral_eq_isSome, hvalue]
    exact iff_of_false (fun h => nomatch h) (fun h => nomatch h.1)
  | none =>
    have hcomputed : expr.isLiteral = false := by rw [isLiteral_eq_isSome, hvalue]; rfl
    rw [render_of_not_literal hcomputed, hcomputed]
    exact map_eq_error_iff.trans (and_iff_right rfl).symm

/-- No expression lacks assignments. -/
theorem sql_ne_emptyAssignment (dialect : Dialect) (expr : Expr) :
    expr.sql dialect ≠ .error .emptyAssignment := by
  have hvalue : ∀ value : Value, (Rendered.literal value).toSql dialect ≠ .error .emptyAssignment := by
    intro value
    cases value with
    | float x => cases hfinite : Value.hasLiteral (.float x) <;> simp [Rendered.toSql, hfinite]
    | _ => simp [Rendered.toSql, Value.hasLiteral]
  induction expr with
  | captured name value => exact hvalue value
  | constant value => exact hvalue value
  | column name => simp
  | converted operand ih => exact ih
  | binary op left right hleft hright =>
    -- the operator is looked at first, then the left operand and then the right one
    rw [sql, render_binary]
    cases op.isSupported with
    | false =>
      intro h
      cases h
    | true =>
      cases hl : left.sql dialect with
      | error cause =>
        rintro ⟨⟩
        exact hleft hl
      | ok leftText =>
        cases hr : right.sql dialect with
        | error cause =>
          rintro ⟨⟩
          exact hright hr
        | ok rightText =>
          intro h
          cases h

/-- Rendering never fails for want of assignments either. -/
theorem render_ne_emptyAssignment (dialect : Dialect) (expr : Expr) :
    expr.render dialect ≠ .error .emptyAssignment :=
  fun h => sql_ne_emptyAssignment dialect expr (render_eq_error_iff.mp h).2

end Expr

namespace Assignment

/-- The first assignment of a value takes the next ordinal. -/
theorem fragmentsFrom_cons_of_literal? {entry : Entry} {value : Value}
    (h : entry.value.literal? = some value) (dialect : Dialect) (ordinal : Nat) (rest : Assignment) :
    fragmentsFrom dialect ordinal (entry :: rest)
      = (fragmentsFrom dialect (ordinal + 1) rest).map (.bound entry.column ordinal value :: ·) := by
  rw [fragmentsFrom, Expr.render_of_literal? h]
  rfl

/-- Any other assignment is written in place and leaves the ordinal to the rest. -/
theorem fragmentsFrom_cons_of_not_literal {entry : Entry} (h : entry.value.isLiteral = false)
    (dialect : Dialect) (ordinal : Nat) (rest : Assignment) :
    fragmentsFrom dialect ordinal (entry :: rest)
      = (entry.value.sql dialect).bind fun text =>
        (fragmentsFrom dialect ordinal rest).map (.inline entry.column text :: ·) := by
  rw [fragmentsFrom, Expr.render_of_not_literal h]
  cases entry.value.sql dialect with
  | error cause => rfl
  | ok text =>
    rfl

/-! ## The clause of an assignment -/

/-- The columns that are assigned a value, with their values, in order. -/
def assignedValues (entries : Assignment) : List (Text × Value) :=
  entries.filterMap fun entry => entry.value.literal?.map (entry.column, ·)

/-- The parameters of assigned values, numbered from `ordinal` on: the character that introduces
parameters, the column, `_P` and the ordinal. -/
def parametersFrom (dialect : Dialect) (ordinal : Nat) (assigned : List (Text × Value)) : List Binding :=
  (assigned.zipIdx ordinal).map fun ((column, value), position) =>
    ⟨dialect.marker :: column ++ "_P".toList ++ Text.ofNat position, value⟩

theorem assignedValues_cons_of_literal? {entry : Entry} {value : Value}
    (h : entry.value.literal? = some value) (rest : Assignment) :
    assignedValues (entry :: rest) = (entry.column, value) :: assignedValues rest :=
  List.filterMap_cons_some (by rw [h]; rfl)

theorem assignedValues_cons_of_none {entry : Entry} (h : entry.value.literal? = none)
    (rest : Assignment) : assignedValues (entry :: rest) = assignedValues rest :=
  List.filterMap_cons_none (by rw [h]; rfl)

@[simp] theorem parametersFrom_cons (dialect : Dialect) (ordinal : Nat) (column : Text) (value : Value)
    (rest : List (Text × Value)) :
    parametersFrom dialect ordinal ((column, value) :: rest)
      = ⟨dialect.parameterName column ordinal, value⟩ :: parametersFrom dialect (ordinal + 1) rest := rfl

/-- The parameters of assigned values have these values. -/
theorem map_value_parametersFrom (dialect : Dialect) (ordinal : Nat) (assigned : List (Text × Value)) :
    (parametersFrom dialect ordinal assigned).map (·.value) = assigned.map (·.2) := by
  induction assigned generalizing ordinal with
  | nil => rfl
  | cons first rest ih => rw [parametersFrom_cons, List.map_cons, List.map_cons, ih]

/-- Whether a fragment is that of an assignment with `ordinal` values in front: the quoted column, an equals
sign and, for a value, the name of its parameter, for everything else its text. -/
def Entry.IsWrittenAs (dialect : Dialect) (ordinal : Nat) (entry : Entry) (fragment : Text) : Prop :=
  ∃ written, fragment = dialect.quote entry.column ++ " = ".toList ++ written
    ∧ if entry.value.isLiteral then written = dialect.parameterName entry.column ordinal
      else entry.value.sql dialect = .ok written

/-- Whether a clause is that of an assignment, no column of which is ignored. -/
structure IsClause (dialect : Dialect) (entries : Assignment) (clause : SetClause) : Prop where
  /-- Something is assigned. -/
  ne_nil : entries ≠ []
  /-- There is one fragment for each assignment. -/
  length_eq : clause.fragments.length = entries.length
  /-- The fragment of an assignment stands in its place. -/
  written : ∀ (place : Nat) (entry : Entry), entries[place]? = some entry →
    ∃ fragment, clause.fragments[place]? = some fragment
      ∧ entry.IsWrittenAs dialect ((entries.take place).countP (·.value.isLiteral)) fragment
  /-- The values are the parameters, numbered from zero on. -/
  parameters : clause.parameters = parametersFrom dialect 0 entries.assignedValues
  /-- No two parameters have the same name, whatever the columns are called. -/
  distinct : (clause.parameters.map (·.name)).Nodup

/-- An assignment has one fragment in each place. -/
theorem Entry.IsWrittenAs.unique {dialect : Dialect} {ordinal : Nat} {entry : Entry} {one other : Text}
    (hone : entry.IsWrittenAs dialect ordinal one) (hother : entry.IsWrittenAs dialect ordinal other) :
    one = other := by
  obtain ⟨first, rfl, hfirst⟩ := hone
  obtain ⟨second, rfl, hsecond⟩ := hother
  split at hfirst
  · next hliteral =>
    rw [if_pos hliteral] at hsecond
    rw [hfirst, hsecond]
  · next hliteral =>
    rw [if_neg hliteral, hfirst] at hsecond
    rw [Except.ok.inj hsecond]

/-- An assignment has one clause at most. -/
theorem IsClause.unique {dialect : Dialect} {entries : Assignment} {one other : SetClause}
    (hone : IsClause dialect entries one) (hother : IsClause dialect entries other) : one = other := by
  have hfragments : one.fragments = other.fragments := by
    refine List.ext_getElem? ?_
    intro place
    cases hentry : entries[place]? with
    | none =>
      have hplace := List.getElem?_eq_none_iff.mp hentry
      rw [List.getElem?_eq_none_iff.mpr (hone.length_eq ▸ hplace),
        List.getElem?_eq_none_iff.mpr (hother.length_eq ▸ hplace)]
    | some entry =>
      obtain ⟨first, hfirst, hwritten⟩ := hone.written place entry hentry
      obtain ⟨second, hsecond, hwritten'⟩ := hother.written place entry hentry
      rw [hfirst, hsecond, hwritten.unique hwritten']
  cases one
  cases other
  simp only [SetClause.mk.injEq]
  exact ⟨hfragments, hone.parameters.trans hother.parameters.symm⟩

/-! ## The fragments of an assignment -/

/-- There is one fragment for each assignment. -/
theorem length_fragmentsFrom {dialect : Dialect} {ordinal : Nat} {entries : Assignment}
    {fragments : List SetFragment} (h : fragmentsFrom dialect ordinal entries = .ok fragments) :
    fragments.length = entries.length := by
  induction entries generalizing ordinal fragments with
  | nil =>
    cases h
    rfl
  | cons entry rest ih =>
    rcases fragmentsFrom_cons h with ⟨-, value, more, hmore, rfl⟩ | ⟨-, text, more, -, hmore, rfl⟩
    · exact congrArg (· + 1) (ih hmore)
    · exact congrArg (· + 1) (ih hmore)

/-- The fragment of an assignment stands in its place, behind as many values as are assigned in front. -/
theorem isWrittenAs_of_fragmentsFrom {dialect : Dialect} {ordinal : Nat} {entries : Assignment}
    {fragments : List SetFragment} (h : fragmentsFrom dialect ordinal entries = .ok fragments)
    {place : Nat} {entry : Entry} (hentry : entries[place]? = some entry) :
    ∃ fragment, (fragments.map (·.text dialect))[place]? = some fragment
      ∧ entry.IsWrittenAs dialect (ordinal + (entries.take place).countP (·.value.isLiteral))
        fragment := by
  induction entries generalizing ordinal fragments place with
  | nil => cases hentry
  | cons first rest ih =>
    cases place with
    | zero =>
      obtain rfl : first = entry := Option.some.inj hentry
      rcases fragmentsFrom_cons h with
        ⟨hliteral, value, more, -, rfl⟩ | ⟨hcomputed, text, more, htext, -, rfl⟩
      · exact ⟨_, rfl, _, rfl, by rw [if_pos hliteral]; rfl⟩
      · refine ⟨_, rfl, _, rfl, ?_⟩
        rw [if_neg (by simp [hcomputed])]
        exact htext
    | succ place =>
      have hrest : rest[place]? = some entry := hentry
      rcases fragmentsFrom_cons h with
        ⟨hliteral, value, more, hmore, rfl⟩ | ⟨hcomputed, text, more, -, hmore, rfl⟩
      · -- a value in front takes an ordinal
        obtain ⟨fragment, hfragment, hwritten⟩ := ih hmore hrest
        refine ⟨fragment, hfragment, ?_⟩
        rw [List.take_succ_cons, List.countP_cons_of_pos (by exact hliteral)]
        rwa [Nat.add_right_comm, Nat.add_assoc] at hwritten
      · obtain ⟨fragment, hfragment, hwritten⟩ := ih hmore hrest
        refine ⟨fragment, hfragment, ?_⟩
        rwa [List.take_succ_cons, List.countP_cons_of_neg (by simp [hcomputed])]

/-- The parameters of the fragments are the values that are assigned. -/
theorem filterMap_parameter? {dialect : Dialect} {ordinal : Nat} {entries : Assignment}
    {fragments : List SetFragment} (h : fragmentsFrom dialect ordinal entries = .ok fragments) :
    fragments.filterMap (·.parameter? dialect)
      = parametersFrom dialect ordinal entries.assignedValues := by
  induction entries generalizing ordinal fragments with
  | nil =>
    cases h
    rfl
  | cons entry rest ih =>
    cases hvalue : entry.value.literal? with
    | some value =>
      rw [fragmentsFrom_cons_of_literal? hvalue] at h
      cases hmore : fragmentsFrom dialect (ordinal + 1) rest with
      | error cause =>
        rw [hmore] at h
        cases h
      | ok more =>
        rw [hmore] at h
        cases h
        rw [assignedValues_cons_of_literal? hvalue, parametersFrom_cons, ← ih hmore]
        rfl
    | none =>
      rcases fragmentsFrom_cons h with ⟨hliteral, -⟩ | ⟨-, text, more, -, hmore, rfl⟩
      · rw [Expr.isLiteral_eq_isSome, hvalue] at hliteral
        cases hliteral
      · rw [assignedValues_cons_of_none hvalue, ← ih hmore]
        rfl

/-- An assignment fails for the first expression that cannot be rendered. -/
theorem fragmentsFrom_eq_error_iff {dialect : Dialect} {entries : Assignment} {cause : CompileError}
    (ordinal : Nat) :
    fragmentsFrom dialect ordinal entries = .error cause
      ↔ ∃ earlier entry later, entries = earlier ++ entry :: later
        ∧ (∀ before ∈ earlier, ∃ rendered, before.value.render dialect = .ok rendered)
        ∧ entry.value.render dialect = .error cause := by
  induction entries generalizing ordinal with
  | nil =>
    refine iff_of_false (fun h => nomatch h) ?_
    rintro ⟨earlier, entry, later, hentries, -⟩
    simp at hentries
  | cons first rest ih =>
    cases hrender : first.value.render dialect with
    | error found =>
      rw [fragmentsFrom, hrender]
      constructor
      · rintro ⟨⟩
        exact ⟨[], first, rest, rfl, by simp, hrender⟩
      · rintro ⟨earlier, entry, later, hentries, hearlier, hentry⟩
        cases earlier with
        | nil =>
          obtain ⟨rfl, rfl⟩ := List.cons.inj hentries
          rw [hrender] at hentry
          exact congrArg _ (Except.error.inj hentry)
        | cons head tail =>
          -- the first one would have been rendered
          obtain ⟨rfl, -⟩ := List.cons.inj hentries
          obtain ⟨rendered, hrendered⟩ := hearlier first List.mem_cons_self
          rw [hrender] at hrendered
          cases hrendered
    | ok rendered =>
      -- whatever ordinal the rest goes on with, its first failure is that of the whole
      have hrest : fragmentsFrom dialect ordinal (first :: rest) = .error cause
          ↔ ∃ earlier entry later, rest = earlier ++ entry :: later
            ∧ (∀ before ∈ earlier, ∃ rendered, before.value.render dialect = .ok rendered)
            ∧ entry.value.render dialect = .error cause := by
        cases rendered with
        | sql text =>
          rw [← ih ordinal, fragmentsFrom, hrender]
          exact map_eq_error_iff
        | literal value =>
          rw [← ih (ordinal + 1), fragmentsFrom, hrender]
          exact map_eq_error_iff
      rw [hrest]
      constructor
      · rintro ⟨earlier, entry, later, rfl, hearlier, hentry⟩
        exact ⟨first :: earlier, entry, later, rfl,
          List.forall_mem_cons.mpr ⟨⟨rendered, hrender⟩, hearlier⟩, hentry⟩
      · rintro ⟨earlier, entry, later, hentries, hearlier, hentry⟩
        cases earlier with
        | nil =>
          obtain ⟨rfl, rfl⟩ := List.cons.inj hentries
          rw [hrender] at hentry
          cases hentry
        | cons head tail =>
          obtain ⟨rfl, rfl⟩ := List.cons.inj hentries
          exact ⟨tail, entry, later, rfl, (List.forall_mem_cons.mp hearlier).2, hentry⟩

/-- The fragments of an assignment are a clause, if there are any. -/
theorem isClause_of_fragmentsFrom {dialect : Dialect} {entries : Assignment}
    {fragments : List SetFragment} (h : fragmentsFrom dialect 0 entries = .ok fragments)
    (hne : entries ≠ []) :
    IsClause dialect entries
      ⟨fragments.map (·.text dialect), fragments.filterMap (·.parameter? dialect)⟩ where
  ne_nil := hne
  length_eq := by rw [List.length_map, length_fragmentsFrom h]
  written := by
    intro place entry hentry
    have hwritten := isWrittenAs_of_fragmentsFrom h hentry
    rwa [Nat.zero_add] at hwritten
  parameters := filterMap_parameter? h
  distinct := nodup_parameters h

/-- What is kept is compiled, if there is anything. -/
theorem compile_eq (dialect : Dialect) (ignored : IgnoreSet) (entries : Assignment) :
    entries.compile dialect ignored
      = if entries.keep ignored = [] then .error .emptyAssignment
        else (fragmentsFrom dialect 0 (entries.keep ignored)).map fun fragments =>
          ⟨fragments.map (·.text dialect), fragments.filterMap (·.parameter? dialect)⟩ := by
  split
  · next hnone =>
    rw [compile, hnone]
    rfl
  · next hne =>
    cases hfragments : fragmentsFrom dialect 0 (entries.keep ignored) with
    | error cause =>
      rw [compile, hfragments]
      rfl
    | ok fragments =>
      refine compile_of_fragmentsFrom hfragments ?_
      rintro rfl
      exact hne (eq_nil_of_fragmentsFrom hfragments)

/-- Compiling succeeds with the clause of what is kept, and with no other. -/
theorem compile_eq_ok_iff {dialect : Dialect} {ignored : IgnoreSet} {entries : Assignment}
    {clause : SetClause} :
    entries.compile dialect ignored = .ok clause ↔ IsClause dialect (entries.keep ignored) clause := by
  rw [compile_eq]
  constructor
  · intro h
    split at h
    · cases h
    · next hne =>
      cases hfragments : fragmentsFrom dialect 0 (entries.keep ignored) with
      | error cause =>
        rw [hfragments] at h
        cases h
      | ok fragments =>
        rw [hfragments] at h
        cases h
        exact isClause_of_fragmentsFrom hfragments hne
  · intro h
    rw [if_neg h.ne_nil]
    cases hfragments : fragmentsFrom dialect 0 (entries.keep ignored) with
    | error cause =>
      -- the expression that fails would be one whose text stands in the clause
      obtain ⟨earlier, entry, later, hkept, -, hentry⟩ := (fragmentsFrom_eq_error_iff 0).mp hfragments
      obtain ⟨fragment, -, written, -, hwritten⟩ := h.written earlier.length entry (by simp [hkept])
      obtain ⟨hcomputed, hsql⟩ := Expr.render_eq_error_iff.mp hentry
      rw [if_neg (by simp [hcomputed]), hsql] at hwritten
      cases hwritten
    | ok fragments =>
      exact congrArg _ ((isClause_of_fragmentsFrom hfragments h.ne_nil).unique h)

/-- Compiling fails where nothing is kept, and for the first expression that cannot be rendered. -/
theorem compile_eq_error_iff {dialect : Dialect} {ignored : IgnoreSet} {entries : Assignment}
    {cause : CompileError} :
    entries.compile dialect ignored = .error cause
      ↔ (entries.keep ignored = [] ∧ cause = .emptyAssignment)
        ∨ ∃ earlier entry later, entries.keep ignored = earlier ++ entry :: later
          ∧ (∀ before ∈ earlier, ∃ rendered, before.value.render dialect = .ok rendered)
          ∧ entry.value.render dialect = .error cause := by
  rw [compile_eq, ← fragmentsFrom_eq_error_iff 0]
  split
  · next hnone =>
    rw [hnone]
    constructor
    · rintro ⟨⟩
      exact .inl ⟨rfl, rfl⟩
    · rintro (⟨-, rfl⟩ | hnever)
      · rfl
      · cases hnever
  · next hne =>
    rw [or_iff_right fun h => hne h.1]
    exact map_eq_error_iff

/-- Compiling succeeds if something is kept and everything but the values can be written. -/
theorem exists_compile_iff {dialect : Dialect} {ignored : IgnoreSet} {entries : Assignment} :
    (∃ clause, entries.compile dialect ignored = .ok clause)
      ↔ entries.keep ignored ≠ [] ∧ ∀ entry ∈ entries.keep ignored,
          entry.value.isLiteral = false → ∃ text, entry.value.sql dialect = .ok text := by
  constructor
  · rintro ⟨clause, hclause⟩
    have hlaw := compile_eq_ok_iff.mp hclause
    refine ⟨hlaw.ne_nil, ?_⟩
    intro entry hentry hcomputed
    obtain ⟨place, hplace⟩ := List.mem_iff_getElem?.mp hentry
    obtain ⟨fragment, -, written, -, hwritten⟩ := hlaw.written place entry hplace
    rw [if_neg (by simp [hcomputed])] at hwritten
    exact ⟨written, hwritten⟩
  · rintro ⟨hne, hwritten⟩
    cases hcompile : entries.compile dialect ignored with
    | ok clause => exact ⟨clause, rfl⟩
    | error cause =>
      rcases compile_eq_error_iff.mp hcompile with ⟨hnone, -⟩ | ⟨earlier, entry, later, hkept, -, hentry⟩
      · exact absurd hnone hne
      · obtain ⟨hcomputed, hsql⟩ := Expr.render_eq_error_iff.mp hentry
        obtain ⟨text, htext⟩ := hwritten entry (by simp [hkept]) hcomputed
        rw [hsql] at htext
        cases htext

/-- **The law of compiled assignments.**  Ignored columns have no part in the outcome.  Compiling succeeds
exactly with the clause of what is kept: one fragment for each assignment in its place, and for each value
one parameter, numbered from zero on and named apart from all others.  It finds nothing to assign exactly if
nothing is kept, and otherwise fails for the first expression that cannot be rendered. -/
theorem compile_law (dialect : Dialect) (ignored : IgnoreSet) (entries : Assignment) :
    entries.compile dialect ignored = (entries.keep ignored).compile dialect .empty
    ∧ (∀ clause, entries.compile dialect ignored = .ok clause
        ↔ IsClause dialect (entries.keep ignored) clause)
    ∧ (entries.compile dialect ignored = .error .emptyAssignment ↔ entries.keep ignored = [])
    ∧ (∀ cause, entries.compile dialect ignored = .error cause
        ↔ (entries.keep ignored = [] ∧ cause = .emptyAssignment)
          ∨ ∃ earlier entry later, entries.keep ignored = earlier ++ entry :: later
            ∧ (∀ before ∈ earlier, ∃ rendered, before.value.render dialect = .ok rendered)
            ∧ entry.value.render dialect = .error cause) := by
  refine ⟨?_, fun _ => compile_eq_ok_iff, ?_, fun _ => compile_eq_error_iff⟩
  · rw [compile_eq, compile_eq, keep_empty]
  · rw [compile_eq_error_iff]
    constructor
    · rintro (⟨hnone, -⟩ | ⟨-, entry, -, -, -, hentry⟩)
      · exact hnone
      · exact absurd hentry (Expr.render_ne_emptyAssignment dialect entry.value)
    · exact fun hnone => .inl ⟨hnone, rfl⟩

-- the ignored column could not be rendered, and two of the others look like names of parameters
example :
    compile .sqlServer ⟨["id".toList]⟩
        [⟨"ID".toList, .binary .bitAnd (.column "ID".toList) (.constant (.int 1))⟩,
          ⟨"A".toList, .converted (.constant .null)⟩, ⟨"N".toList, .column "A".toList⟩,
          ⟨"A_P1".toList, .captured "x".toList (.bool true)⟩, ⟨"A".toList, .constant (.text [])⟩]
      = .ok ⟨["[A] = @A_P0".toList, "[N] = [A]".toList, "[A_P1] = @A_P1_P1".toList,
            "[A] = @A_P2".toList],
          [⟨"@A_P0".toList, .null⟩, ⟨"@A_P1_P1".toList, .bool true⟩, ⟨"@A_P2".toList, .text []⟩]⟩ := by
  cbv

end Assignment

end BulkDml
