import BulkDml.Proofs.ClauseNumbering
import BulkDml.Statement

/-! # Values do not show in the text of an UPDATE

Two assignments that differ in nothing but the values that they bind are compiled to the same SQL text and
the same names of parameters, or refused for the same cause.  What is bound can be anything: a text that looks
like SQL, a number that is not finite, a value of another variant.

* `Expr.AgreesUpToValue`, `Assignment.AgreesUpToValues` — expressions and assignments that differ in values;
* `SetFragment.withoutValue` — a fragment as if nothing was bound to its parameter;
* `fragmentsFrom_agreesUpToValues` — such assignments have the same fragments up to what is bound;
* `compileUpdate_agreesUpToValues` — they have the same UPDATE up to what is bound.
-/

namespace BulkDml

/-! ## Assignments that differ in their values -/

/-- Whether two expressions are the same, or values both of them: constants or captured values, under
conversions or not. -/
def Expr.AgreesUpToValue (one other : Expr) : Prop :=
  one = other ∨ one.isLiteral = true ∧ other.isLiteral = true

/-- Expressions that agree up to a value are two values, or the same and no value. -/
theorem Expr.AgreesUpToValue.cases {one other : Expr} (h : one.AgreesUpToValue other) :
    (∃ value instead, one.literal? = some value ∧ other.literal? = some instead)
      ∨ one = other ∧ one.isLiteral = false := by
  rcases h with rfl | ⟨hone, hother⟩
  · cases hvalue : one.literal? with
    | some value => exact .inl ⟨value, value, rfl, rfl⟩
    | none => exact .inr ⟨rfl, by rw [isLiteral_eq_isSome, hvalue]; rfl⟩
  · rw [isLiteral_eq_isSome, Option.isSome_iff_exists] at hone hother
    obtain ⟨value, hvalue⟩ := hone
    obtain ⟨instead, hinstead⟩ := hother
    exact .inl ⟨value, instead, hvalue, hinstead⟩

/-- Whether two assignments list the same columns in the same order, with expressions that agree up to a
value. -/
def Assignment.AgreesUpToValues (one other : Assignment) : Prop :=
  List.Forall₂ (fun first second => first.column = second.column
    ∧ first.value.AgreesUpToValue second.value) one other

/-- A fragment with nothing bound to its parameter. -/
def SetFragment.withoutValue : SetFragment → SetFragment
  | inline column sql => .inline column sql
  | bound column ordinal _ => .bound column ordinal .null

@[simp] theorem SetFragment.text_withoutValue (dialect : Dialect) (fragment : SetFragment) :
    fragment.withoutValue.text dialect = fragment.text dialect := by
  cases fragment <;> rfl

@[simp] theorem SetFragment.name_parameter?_withoutValue (dialect : Dialect) (fragment : SetFragment) :
    (fragment.withoutValue.parameter? dialect).map (·.name)
      = (fragment.parameter? dialect).map (·.name) := by
  cases fragment <;> rfl

namespace Assignment

/-- What is ignored is ignored in both of two assignments with the same columns. -/
theorem AgreesUpToValues.keep {one other : Assignment} (h : AgreesUpToValues one other)
    (ignored : IgnoreSet) : AgreesUpToValues (one.keep ignored) (other.keep ignored) := by
  induction h with
  | nil => exact .nil
  | @cons first second _ _ hentry _ ih =>
    have hsame : ignored.contains first.column = ignored.contains second.column := by rw [hentry.1]
    cases hignored : ignored.contains second.column with
    | true =>
      rw [Assignment.keep, Assignment.keep, List.filter_cons_of_neg (by simp [hsame, hignored]),
        List.filter_cons_of_neg (by simp [hignored])]
      exact ih
    | false =>
      rw [Assignment.keep, Assignment.keep, List.filter_cons_of_pos (by simp [hsame, hignored]),
        List.filter_cons_of_pos (by simp [hignored])]
      exact .cons hentry ih

/-- A fragment in front is without its value where all fragments are. -/
theorem map_withoutValue_cons (fragment : SetFragment) (rest : Except CompileError (List SetFragment)) :
    (rest.map (fragment :: ·)).map (List.map SetFragment.withoutValue)
      = (rest.map (List.map SetFragment.withoutValue)).map (fragment.withoutValue :: ·) := by
  cases rest <;> rfl

/-- **Values do not show in the fragments.**  Compiling fails for the same cause, or gives the same
fragments up to what is bound. -/
theorem fragmentsFrom_agreesUpToValues {one other : Assignment} (h : AgreesUpToValues one other)
    (dialect : Dialect) (ordinal : Nat) :
    (fragmentsFrom dialect ordinal one).map (List.map SetFragment.withoutValue)
      = (fragmentsFrom dialect ordinal other).map (List.map SetFragment.withoutValue) := by
  induction h generalizing ordinal with
  | nil => rfl
  | @cons first second _ _ hentry _ ih =>
    obtain ⟨hcolumn, hagrees⟩ := hentry
    rcases hagrees.cases with ⟨value, instead, hvalue, hinstead⟩ | ⟨hsame, hcomputed⟩
    · -- two values take the same ordinal, under the same name
      rw [fragmentsFrom_cons_of_literal? hvalue, fragmentsFrom_cons_of_literal? hinstead,
        map_withoutValue_cons, map_withoutValue_cons, ih, hcolumn]
      rfl
    · -- the same text is written in place, and the ordinal is left to the rest
      rw [fragmentsFrom_cons_of_not_literal hcomputed,
        fragmentsFrom_cons_of_not_literal (hsame ▸ hcomputed), hsame, hcolumn]
      cases second.value.sql dialect with
      | error cause => rfl
      | ok text =>
        dsimp only [Except.bind]
        rw [map_withoutValue_cons, map_withoutValue_cons, ih]

/-- The texts of fragments, and the names of their parameters. -/
def outline (dialect : Dialect) (fragments : List SetFragment) : List Text × List Text :=
  (fragments.map (·.text dialect), (fragments.filterMap (·.parameter? dialect)).map (·.name))

/-- Values do not show in an outline. -/
theorem outline_withoutValue (dialect : Dialect) (fragments : List SetFragment) :
    outline dialect (fragments.map SetFragment.withoutValue) = outline dialect fragments := by
  simp [outline, List.map_filterMap, List.filterMap_map]

/-- **Values do not show in a clause**: it has the same fragments and the same names of parameters, or there
is none for the same cause. -/
theorem compile_agreesUpToValues {one other : Assignment} (h : AgreesUpToValues one other)
    (dialect : Dialect) (ignored : IgnoreSet) :
    (one.compile dialect ignored).map (fun clause => (clause.fragments, clause.parameters.map (·.name)))
      = (other.compile dialect ignored).map fun clause =>
        (clause.fragments, clause.parameters.map (·.name)) := by
  have hkept := h.keep ignored
  have houtline : ∀ kept, (fragmentsFrom dialect 0 kept).map (outline dialect)
      = ((fragmentsFrom dialect 0 kept).map (List.map SetFragment.withoutValue)).map
        (outline dialect) := by
    intro kept
    cases fragmentsFrom dialect 0 kept with
    | error cause => rfl
    | ok fragments => exact congrArg Except.ok (outline_withoutValue dialect fragments).symm
  have hcompile : ∀ entries : Assignment, entries.keep ignored ≠ [] →
      (entries.compile dialect ignored).map
          (fun clause => (clause.fragments, clause.parameters.map (·.name)))
        = (fragmentsFrom dialect 0 (entries.keep ignored)).map (outline dialect) := by
    intro entries hne
    rw [compile_eq, if_neg hne]
    cases fragmentsFrom dialect 0 (entries.keep ignored) <;> rfl
  by_cases hnone : one.keep ignored = []
  · -- nothing is kept of the other one either
    rw [hnone] at hkept
    have hnone' : other.keep ignored = [] := List.forall₂_nil_left_iff.mp hkept
    rw [compile_eq, compile_eq, if_pos hnone, if_pos hnone']
  · have hsome : other.keep ignored ≠ [] := by
      intro hnone'
      rw [hnone'] at hkept
      exact hnone (List.forall₂_nil_right_iff.mp hkept)
    rw [hcompile one hnone, hcompile other hsome, houtline, houtline,
      fragmentsFrom_agreesUpToValues hkept]

/-- The parameters of a clause have the assigned values. -/
theorem IsClause.values_eq {dialect : Dialect} {entries : Assignment} {clause : SetClause}
    (h : IsClause dialect entries clause) :
    clause.parameters.map (·.value) = entries.assignedValues.map (·.2) := by
  rw [h.parameters, map_value_parametersFrom]

end Assignment

/-! ## Statements that differ in their values -/

/-- **Values do not show in an UPDATE.**  Two assignments that agree up to their values are refused for the
same cause, or compiled to the same SQL text and the same names of parameters, which are bound to their values
and to nothing else.  Whether they are compiled is up to the query and to what is written in place. -/
theorem compileUpdate_agreesUpToValues {one other : Assignment} (h : one.AgreesUpToValues other)
    (dialect : Dialect) (source : Text) (ignored : IgnoreSet) :
    ((∃ cause, compileUpdate dialect source one ignored = .error cause
        ∧ compileUpdate dialect source other ignored = .error cause)
      ∨ ∃ first second, compileUpdate dialect source one ignored = .ok first
        ∧ compileUpdate dialect source other ignored = .ok second
        ∧ first.sql = second.sql
        ∧ first.parameters.map (·.name) = second.parameters.map (·.name)
        ∧ first.parameters.map (·.value) = (one.keep ignored).assignedValues.map (·.2)
        ∧ second.parameters.map (·.value) = (other.keep ignored).assignedValues.map (·.2))
    ∧ ((∃ statement, compileUpdate dialect source one ignored = .ok statement)
      ↔ (∃ query, SourceQuery.parse dialect source = .ok query) ∧ one.keep ignored ≠ []
        ∧ ∀ entry ∈ one.keep ignored,
          entry.value.isLiteral = false → ∃ text, entry.value.sql dialect = .ok text) := by
  rw [← Assignment.exists_compile_iff]
  cases hparse : SourceQuery.parse dialect source with
  | error cause =>
    -- the query is looked at first, and does not depend on the assignments
    have hupdate : ∀ entries, compileUpdate dialect source entries ignored = .error cause := by
      intro entries
      rw [compileUpdate, hparse]
      rfl
    rw [hupdate, hupdate]
    exact ⟨.inl ⟨cause, rfl, rfl⟩, by simp⟩
  | ok query =>
    have hagrees := Assignment.compile_agreesUpToValues h dialect ignored
    rw [compileUpdate_of_parse hparse, compileUpdate_of_parse hparse]
    cases hone : one.compile dialect ignored with
    | error cause =>
      rw [hone] at hagrees
      have hother : other.compile dialect ignored = .error cause := map_eq_error_iff.mp hagrees.symm
      rw [hother]
      exact ⟨.inl ⟨cause, rfl, rfl⟩, by simp [Except.map]⟩
    | ok clause =>
      cases hother : other.compile dialect ignored with
      | error cause =>
        rw [hone, hother] at hagrees
        cases hagrees
      | ok clause' =>
        rw [hone, hother] at hagrees
        obtain ⟨hfragments, hnames⟩ := Prod.mk.inj (Except.ok.inj hagrees)
        refine ⟨.inr ⟨_, _, rfl, rfl, ?_, hnames, (Assignment.compile_eq_ok_iff.mp hone).values_eq,
          (Assignment.compile_eq_ok_iff.mp hother).values_eq⟩, ?_⟩
        · simp only [hfragments]
        · simp [Except.map]

/-- A text that closes its own quotes, and a number that is none. -/
def hostileValues : Assignment :=
  [⟨"Status".toList, .constant (.text "shipped'; DROP TABLE [Orders]; --".toList)⟩,
    ⟨"Count".toList, .binary .add (.column "Count".toList) (.constant (.int 1))⟩,
    ⟨"Total".toList, .converted (.captured "total".toList (.float .nan))⟩]

/-- Nothing and a zero in the place of these values. -/
def plainValues : Assignment :=
  [⟨"Status".toList, .converted (.constant .null)⟩,
    ⟨"Count".toList, .binary .add (.column "Count".toList) (.constant (.int 1))⟩,
    ⟨"Total".toList, .constant (.int 0)⟩]

/-- Both are compiled to the same text, and the hostile text and the number that is none are bound as they
are. -/
theorem compileUpdate_hostileValues :
    hostileValues.AgreesUpToValues plainValues
      ∧ ∃ first second,
        compileUpdate .sqlServer "SELECT 1 FROM [Orders] AS [o] WHERE [o].[Id] = 7".toList hostileValues
            .empty = .ok first
        ∧ compileUpdate .sqlServer "SELECT 1 FROM [Orders] AS [o] WHERE [o].[Id] = 7".toList plainValues
            .empty = .ok second
        ∧ first.sql = second.sql
        ∧ second.sql = ("UPDATE [Orders]\nSET [Status] = @Status_P0, [Count] = [Count] + 1, "
            ++ "[Total] = @Total_P1\nWHERE [Id] = 7").toList
        ∧ first.parameters.map (·.name) = ["@Status_P0".toList, "@Total_P1".toList]
        ∧ first.parameters.map (·.value)
          = [.text "shipped'; DROP TABLE [Orders]; --".toList, .float .nan] := by
  have hagrees : hostileValues.AgreesUpToValues plainValues :=
    .cons ⟨rfl, .inr ⟨rfl, rfl⟩⟩ (.cons ⟨rfl, .inl rfl⟩ (.cons ⟨rfl, .inr ⟨rfl, rfl⟩⟩ .nil))
  have hplain : compileUpdate .sqlServer "SELECT 1 FROM [Orders] AS [o] WHERE [o].[Id] = 7".toList
      plainValues .empty
      = .ok ⟨("UPDATE [Orders]\nSET [Status] = @Status_P0, [Count] = [Count] + 1, "
            ++ "[Total] = @Total_P1\nWHERE [Id] = 7").toList,
          [⟨"@Status_P0".toList, .null⟩, ⟨"@Total_P1".toList, .int 0⟩]⟩ := by
    decide +kernel
  refine ⟨hagrees, ?_⟩
  obtain ⟨⟨cause, -, hsecond⟩ | ⟨first, second, hfirst, hsecond, hsql, hnames, hvalues, -⟩, -⟩ :=
    compileUpdate_agreesUpToValues hagrees .sqlServer
      "SELECT 1 FROM [Orders] AS [o] WHERE [o].[Id] = 7".toList .empty
  · rw [hplain] at hsecond
    cases hsecond
  · rw [hplain] at hsecond
    cases hsecond
    exact ⟨first, _, hfirst, hplain, hsql, rfl, hnames, hvalues⟩

end BulkDml
