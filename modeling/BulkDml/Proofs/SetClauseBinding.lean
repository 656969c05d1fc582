import BulkDml.Assignment
import BulkDml.Proofs.InertText
import Mathlib.Data.List.Perm.Subperm

/-! # Binding a compiled SET clause

A compiled SET clause names its parameters after their columns, and binding looks for these names in the
text of the clause.  The two agree on exactly the clauses whose parameters belong to columns of ASCII
letters, digits and underscores: a name that goes on with another character is cut short in the text.
Columns whose values are written in place, and what is written there, may be anything.

* `Dialect.parameterName_injective` — generated names differ in their ordinals;
* `Assignment.fragmentsFrom_cons` — what one assignment contributes to a clause;
* `Assignment.withPositions` — the fragments of a clause with positional placeholders;
* `Assignment.toPositional_compile_iff` — binding puts positions in the place of all parameters, and
  nothing else changes, for such columns and no others.
-/

namespace BulkDml

/-! ## Generated names -/

namespace Dialect

/-- The digits that end a generated name are those of its ordinal. -/
theorem takeWhile_isDigit_reverse_parameterName (dialect : Dialect) (column : Text) (ordinal : Nat) :
    ((dialect.parameterName column ordinal).reverse.takeWhile Char.isDigit).reverse
      = Text.ofNat ordinal := by
  -- from the end, the `P` in front of the ordinal is the first character that is no digit
  have hdigits : ∀ c ∈ (Text.ofNat ordinal).reverse, c.isDigit = true := by
    intro c hc
    exact Text.isDigit_of_mem_ofNat (List.mem_reverse.mp hc)
  rw [parameterName, List.reverse_append, List.takeWhile_append_of_pos hdigits]
  simp [Char.isDigit]

/-- Generated names with different ordinals differ, whatever their columns. -/
theorem parameterName_injective {dialect : Dialect} {column other : Text} {ordinal position : Nat}
    (h : dialect.parameterName column ordinal = dialect.parameterName other position) :
    ordinal = position := by
  have hdigits : Text.ofNat ordinal = Text.ofNat position := by
    rw [← takeWhile_isDigit_reverse_parameterName dialect column,
      ← takeWhile_isDigit_reverse_parameterName dialect other, h]
  rw [← Text.toNat_ofNat ordinal, hdigits, Text.toNat_ofNat]

/-- A generated name is one placeholder, if its column consists of name characters. -/
theorem segments_parameterName (dialect : Dialect) {column : Text} (ordinal : Nat) {rest : Text}
    (hcolumn : column.all isNameChar = true) (hrest : rest.head?.all (!isNameChar ·) = true) :
    segments (dialect.parameterName column ordinal ++ rest)
      = .placeholder (dialect.parameterName column ordinal) :: segments rest := by
  have hmarker : isIntroducer dialect.marker = true := by cases dialect <;> rfl
  have hname : ∀ c ∈ column ++ "_P".toList ++ Text.ofNat ordinal, isNameChar c = true := by
    intro c hc
    simp only [List.mem_append] at hc
    rcases hc with (hc | hc) | hc
    · exact List.all_eq_true.mp hcolumn c hc
    · exact List.all_eq_true.mp (by decide : "_P".toList.all isNameChar = true) c hc
    · simp [isNameChar, Char.isAlphanum, Text.isDigit_of_mem_ofNat hc]
  exact segments_placeholder hmarker (by simp) hname hrest

/-- A generated name that is a placeholder of a text comes from a column of name characters. -/
theorem isNameChar_of_parameterName_mem {dialect : Dialect} {column text : Text} {ordinal : Nat}
    (h : .placeholder (dialect.parameterName column ordinal) ∈ segments text) :
    column.all isNameChar = true := by
  refine List.all_eq_true.mpr ?_
  intro c hc
  exact isNameChar_of_placeholder_mem h (List.mem_append_left _ (List.mem_append_left _ hc))

end Dialect

/-! ## What an assignment contributes -/

/-- Whether an expression is a value that travels as a parameter: a constant or a captured value, under
conversions or not. -/
def Expr.isLiteral : Expr → Bool
  | captured _ _ | constant _ => true
  | binary _ _ _ | column _ => false
  | converted operand => operand.isLiteral

/-- The values are what is rendered to values, and everything else is rendered to its text. -/
theorem Expr.rendered_cases {dialect : Dialect} {expr : Expr} {rendered : Rendered}
    (h : expr.render dialect = .ok rendered) :
    (expr.isLiteral = true ∧ ∃ value, rendered = .literal value)
      ∨ (expr.isLiteral = false ∧ ∃ text, rendered = .sql text ∧ expr.sql dialect = .ok text) := by
  induction expr with
  | captured name value =>
    cases h
    exact Or.inl ⟨rfl, value, rfl⟩
  | constant value =>
    cases h
    exact Or.inl ⟨rfl, value, rfl⟩
  | column name =>
    cases h
    exact Or.inr ⟨rfl, _, rfl, rfl⟩
  | converted operand ih => exact ih h
  | binary op left right =>
    obtain ⟨-, leftText, rightText, -, -, rfl⟩ := render_binary_eq_ok_iff.mp h
    exact Or.inr ⟨rfl, _, rfl, sql_eq_ok_iff.mpr ⟨_, h, rfl⟩⟩

namespace Assignment

/-- An assignment contributes the text of its value in place, or a parameter with the next ordinal. -/
theorem fragmentsFrom_cons {dialect : Dialect} {ordinal : Nat} {entry : Entry} {rest : Assignment}
    {fragments : List SetFragment}
    (h : fragmentsFrom dialect ordinal (entry :: rest) = .ok fragments) :
    (entry.value.isLiteral = true ∧ ∃ value more,
        fragmentsFrom dialect (ordinal + 1) rest = .ok more
          ∧ fragments = .bound entry.column ordinal value :: more)
      ∨ (entry.value.isLiteral = false ∧ ∃ text more, entry.value.sql dialect = .ok text
          ∧ fragmentsFrom dialect ordinal rest = .ok more
          ∧ fragments = .inline entry.column text :: more) := by
  rw [fragmentsFrom] at h
  obtain ⟨rendered, hrender, hcontribution⟩ := bind_eq_ok_iff.mp h
  rcases Expr.rendered_cases hrender with ⟨hliteral, value, rfl⟩ | ⟨hliteral, text, rfl, htext⟩
  · -- a value takes the ordinal, so that the rest goes on with the next one
    obtain ⟨more, hmore, hfragments⟩ := bind_eq_ok_iff.mp hcontribution
    cases hfragments
    exact Or.inl ⟨hliteral, value, more, hmore, rfl⟩
  · -- a text in place leaves the ordinal to the rest
    obtain ⟨more, hmore, hfragments⟩ := bind_eq_ok_iff.mp hcontribution
    cases hfragments
    exact Or.inr ⟨hliteral, text, more, htext, hmore, rfl⟩

/-- Every assignment has a fragment. -/
theorem eq_nil_of_fragmentsFrom {dialect : Dialect} {ordinal : Nat} {entries : Assignment}
    (h : fragmentsFrom dialect ordinal entries = .ok []) : entries = [] := by
  cases entries with
  | nil => rfl
  | cons entry rest =>
    rcases fragmentsFrom_cons h with ⟨-, _, _, -, hcons⟩ | ⟨-, _, _, -, -, hcons⟩
    · cases hcons
    · cases hcons

/-- A compiled clause consists of the fragments of the assignments that are kept. -/
theorem exists_fragmentsFrom_of_compile {dialect : Dialect} {ignored : IgnoreSet}
    {entries : Assignment} {clause : SetClause}
    (h : entries.compile dialect ignored = .ok clause) :
    ∃ fragments, fragmentsFrom dialect 0 (entries.keep ignored) = .ok fragments ∧ fragments ≠ []
      ∧ clause = ⟨fragments.map (·.text dialect), fragments.filterMap (·.parameter? dialect)⟩ := by
  rw [compile] at h
  obtain ⟨fragments, hfragments, hclause⟩ := bind_eq_ok_iff.mp h
  cases fragments with
  | nil =>
    -- without a fragment the assignment is refused
    cases hclause
  | cons first rest =>
    cases hclause
    exact ⟨first :: rest, hfragments, by simp, rfl⟩

/-- Fragments make a clause, if there are any. -/
theorem compile_of_fragmentsFrom {dialect : Dialect} {ignored : IgnoreSet} {entries : Assignment}
    {fragments : List SetFragment} (h : fragmentsFrom dialect 0 (entries.keep ignored) = .ok fragments)
    (hne : fragments ≠ []) :
    entries.compile dialect ignored
      = .ok ⟨fragments.map (·.text dialect), fragments.filterMap (·.parameter? dialect)⟩ := by
  obtain ⟨first, rest, rfl⟩ := List.exists_cons_of_ne_nil hne
  rw [compile, h]
  rfl

/-! ## The parameters of a clause -/

/-- The parameters of a clause are named after the columns that are assigned a value, and their ordinals
are those from which the clause was compiled on. -/
theorem exists_of_mem_parameters {dialect : Dialect} {ordinal : Nat} {entries : Assignment}
    {fragments : List SetFragment} (h : fragmentsFrom dialect ordinal entries = .ok fragments)
    {parameter : Binding} (hmem : parameter ∈ fragments.filterMap (·.parameter? dialect)) :
    ∃ column position, ordinal ≤ position
      ∧ parameter.name = dialect.parameterName column position := by
  induction entries generalizing ordinal fragments with
  | nil =>
    cases h
    cases hmem
  | cons entry rest ih =>
    rcases fragmentsFrom_cons h with ⟨-, value, more, hmore, rfl⟩ | ⟨-, text, more, -, hmore, rfl⟩
    · rw [List.filterMap_cons] at hmem
      rcases List.mem_cons.mp hmem with rfl | hlater
      · exact ⟨entry.column, ordinal, le_refl _, rfl⟩
      · obtain ⟨column, position, hle, hname⟩ := ih hmore hlater
        exact ⟨column, position, by omega, hname⟩
    · exact ih hmore hmem

/-- The parameters of a clause have distinct names. -/
theorem nodup_parameters {dialect : Dialect} {ordinal : Nat} {entries : Assignment}
    {fragments : List SetFragment} (h : fragmentsFrom dialect ordinal entries = .ok fragments) :
    ((fragments.filterMap (·.parameter? dialect)).map (·.name)).Nodup := by
  induction entries generalizing ordinal fragments with
  | nil =>
    cases h
    exact List.nodup_nil
  | cons entry rest ih =>
    rcases fragmentsFrom_cons h with ⟨-, value, more, hmore, rfl⟩ | ⟨-, text, more, -, hmore, rfl⟩
    · refine List.nodup_cons.mpr ⟨?_, ih hmore⟩
      intro hmem
      -- the later ordinals are greater, so that none of the later names is this one
      obtain ⟨parameter, hparameter, hsame⟩ := List.mem_map.mp hmem
      obtain ⟨column, position, hle, hname⟩ := exists_of_mem_parameters hmore hparameter
      have hordinal := Dialect.parameterName_injective (hname.symm.trans hsame)
      omega
    · have hrest := ih hmore
      exact hrest

/-- Each column that is assigned a value has a parameter. -/
theorem exists_parameterName_mem {dialect : Dialect} {ordinal : Nat} {entries : Assignment}
    {fragments : List SetFragment} (h : fragmentsFrom dialect ordinal entries = .ok fragments)
    {entry : Entry} (hentry : entry ∈ entries) (hliteral : entry.value.isLiteral = true) :
    ∃ position, dialect.parameterName entry.column position
      ∈ (fragments.filterMap (·.parameter? dialect)).map (·.name) := by
  induction entries generalizing ordinal fragments with
  | nil => cases hentry
  | cons first rest ih =>
    rcases fragmentsFrom_cons h with
      ⟨-, value, more, hmore, rfl⟩ | ⟨hother, text, more, -, hmore, rfl⟩
    · rcases List.mem_cons.mp hentry with rfl | hlater
      · exact ⟨ordinal, List.mem_cons_self⟩
      · obtain ⟨position, hmem⟩ := ih hmore hlater
        exact ⟨position, List.mem_cons_of_mem _ hmem⟩
    · rcases List.mem_cons.mp hentry with rfl | hlater
      · rw [hother] at hliteral
        cases hliteral
      · have hrest := ih hmore hlater
        exact hrest

/-! ## Positions in a clause -/

/-- The fragments of a clause with positional placeholders, counted from `position` on: those of columns
that are assigned a value get the next position, and the others stay as they are. -/
def withPositions (dialect : Dialect) : Nat → Assignment → List Text → List Text
  | position, entry :: rest, fragment :: more =>
    if entry.value.isLiteral then
      (dialect.quote entry.column ++ " = ".toList ++ positional position)
        :: withPositions dialect (position + 1) rest more
    else fragment :: withPositions dialect position rest more
  | _, _, _ => []

/-- The pieces one after the other, each with a separator in front. -/
def separated (pieces : List Text) : Text := pieces.flatMap (", ".toList ++ ·)

@[simp] theorem separated_nil : separated [] = [] := rfl

@[simp] theorem separated_cons (piece : Text) (rest : List Text) :
    separated (piece :: rest) = ", ".toList ++ (piece ++ separated rest) := by
  rw [separated, List.flatMap_cons, List.append_assoc]
  rfl

/-- Pieces that are joined have a separator in front of all but the first. -/
theorem separated_eq_append_joinWith {pieces : List Text} (h : pieces ≠ []) :
    separated pieces = ", ".toList ++ Text.joinWith ", ".toList pieces := by
  obtain ⟨first, rest, rfl⟩ := List.exists_cons_of_ne_nil h
  induction rest generalizing first with
  | nil => rw [separated_cons, separated_nil, List.append_nil, Text.joinWith_singleton]
  | cons second rest ih =>
    rw [separated_cons, ih second (by simp), Text.joinWith_cons_cons, List.append_assoc]

/-- Behind a fragment there is nothing or a separator, which prolongs neither a quoted run nor a name. -/
theorem head?_separated (pieces : List Text) :
    Text.startsClosing (separated pieces) = false
      ∧ (separated pieces).head?.all (!isNameChar ·) = true := by
  cases pieces with
  | nil => exact ⟨rfl, rfl⟩
  | cons first rest => exact ⟨rfl, rfl⟩

/-- A fragment is inert with the separator in front of it, if its value is. -/
theorem isInert_fragment (dialect : Dialect) (column : Text) {value : Text} (h : Text.IsInert value) :
    Text.IsInert (", ".toList ++ (dialect.quote column ++ (" = ".toList ++ value))) := by
  have hvalue : Text.IsInert (" = ".toList ++ value) :=
    .plain_append (List.all_eq_true.mp (by decide)) h
  exact .plain_append (List.all_eq_true.mp (by decide))
    ((Text.IsInert.quote dialect column).append hvalue rfl)

/-- Binding copies a fragment whose value is written in place. -/
theorem bindFrom_inline {dialect : Dialect} {value : Expr} {text : Text}
    (h : value.sql dialect = .ok text) (bindings bound : List Binding) (column : Text)
    (behind : List Text) :
    bindFrom bindings bound
        (segments (separated ((SetFragment.inline column text).text dialect :: behind)))
      = (", ".toList ++ ((SetFragment.inline column text).text dialect
            ++ (bindFrom bindings bound (segments (separated behind))).1),
          (bindFrom bindings bound (segments (separated behind))).2) := by
  have hclosing := (head?_separated behind).1
  have hfragment : Text.IsInert (", ".toList ++ (SetFragment.inline column text).text dialect) := by
    rw [SetFragment.text, List.append_assoc]
    exact isInert_fragment dialect column (Expr.isInert_of_sql h)
  rw [separated_cons, ← List.append_assoc, hfragment.bindFrom_append bindings bound hclosing,
    List.append_assoc]

/-- Binding gives the parameter of a fragment the next position, if it is a new name and its column
consists of name characters. -/
theorem bindFrom_bound {dialect : Dialect} {column : Text} {ordinal : Nat} {value : Value}
    {bindings bound : List Binding}
    (hvalue : lookup? bindings (dialect.parameterName column ordinal) = some value)
    (hnew : dialect.parameterName column ordinal ∉ bound.map (·.name))
    (hcolumn : column.all isNameChar = true) (behind : List Text) :
    bindFrom bindings bound
        (segments (separated ((SetFragment.bound column ordinal value).text dialect :: behind)))
      = (", ".toList ++ (dialect.quote column ++ " = ".toList ++ positional bound.length
            ++ (bindFrom bindings (bound ++ [⟨dialect.parameterName column ordinal, value⟩])
              (segments (separated behind))).1),
          (bindFrom bindings (bound ++ [⟨dialect.parameterName column ordinal, value⟩])
            (segments (separated behind))).2) := by
  have hname := (head?_separated behind).2
  have hmarker : Text.startsClosing (dialect.parameterName column ordinal ++ separated behind)
      = false := by
    cases dialect <;> rfl
  have hsplit : separated ((SetFragment.bound column ordinal value).text dialect :: behind)
      = ", ".toList ++ (dialect.quote column ++ (" = ".toList ++ []))
        ++ (dialect.parameterName column ordinal ++ separated behind) := by
    simp only [separated_cons, SetFragment.text, List.append_assoc, List.append_nil]
  -- the column is copied, and the name behind it is one placeholder that is met for the first time
  rw [hsplit, (isInert_fragment dialect column .nil).bindFrom_append bindings bound hmarker,
    Dialect.segments_parameterName dialect ordinal hcolumn hname,
    bindFrom_cons_of_new hvalue (findIdx?_name_eq_none_iff.mpr hnew)]
  simp only [List.append_assoc, List.append_nil]

/-- Binding puts positions in the place of the parameters of a clause, if the columns of these consist of
name characters.  The parameters of what was compiled before are `bound` already. -/
theorem bindFrom_separated {dialect : Dialect} {entries : Assignment} {fragments : List SetFragment}
    {bound : List Binding} (h : fragmentsFrom dialect bound.length entries = .ok fragments)
    (hcolumns : ∀ entry ∈ entries, entry.value.isLiteral = true → entry.column.all isNameChar = true)
    {bindings : List Binding} (hbindings : bindings = bound ++ fragments.filterMap (·.parameter? dialect))
    (hnodup : (bindings.map (·.name)).Nodup) :
    bindFrom bindings bound (segments (separated (fragments.map (·.text dialect))))
      = (separated (withPositions dialect bound.length entries (fragments.map (·.text dialect))),
          bindings) := by
  induction entries generalizing bound fragments with
  | nil =>
    cases h
    simp [withPositions, bindFrom, hbindings]
  | cons entry rest ih =>
    rw [List.forall_mem_cons] at hcolumns
    rcases fragmentsFrom_cons h with
      ⟨hliteral, value, more, hmore, rfl⟩ | ⟨hother, text, more, htext, hmore, rfl⟩
    · -- a parameter: it is the first of `bindings` behind those that are bound, and its name is new
      have hnext : bindings = bound ++ [⟨dialect.parameterName entry.column bound.length, value⟩]
          ++ more.filterMap (·.parameter? dialect) := by
        rw [hbindings, List.append_assoc]
        rfl
      have hmem : (⟨dialect.parameterName entry.column bound.length, value⟩ : Binding)
          ∈ bindings := by
        rw [hnext]
        simp
      have hnew : dialect.parameterName entry.column bound.length ∉ bound.map (·.name) := by
        rw [hnext, List.append_assoc, List.map_append] at hnodup
        intro hold
        exact List.disjoint_of_nodup_append hnodup hold (by simp)
      have hlength : (bound ++ [(⟨dialect.parameterName entry.column bound.length, value⟩ :
          Binding)]).length = bound.length + 1 := by
        simp
      have hrest := ih (by rw [hlength]; exact hmore) hcolumns.2 hnext
      rw [List.map_cons,
        bindFrom_bound (lookup?_of_mem hnodup hmem) hnew (hcolumns.1 hliteral), hrest, hlength,
        withPositions, if_pos hliteral, separated_cons]
    · -- a text in place binds nothing
      have hrest := ih hmore hcolumns.2 hbindings
      rw [List.map_cons, bindFrom_inline htext, hrest, withPositions, if_neg (by simp [hother]),
        separated_cons]

/-- A clause with positional placeholders has as many fragments as the clause itself. -/
theorem withPositions_ne_nil {dialect : Dialect} {ordinal position : Nat} {entries : Assignment}
    {fragments : List SetFragment} (h : fragmentsFrom dialect ordinal entries = .ok fragments)
    (hne : fragments ≠ []) :
    withPositions dialect position entries (fragments.map (·.text dialect)) ≠ [] := by
  cases entries with
  | nil =>
    cases h
    exact absurd rfl hne
  | cons entry rest =>
    obtain ⟨first, more, rfl⟩ := List.exists_cons_of_ne_nil hne
    rw [List.map_cons, withPositions]
    split <;> simp

/-- Binding a clause puts positions in the place of all its parameters, if the columns of these consist
of name characters. -/
theorem bindFrom_joinWith {dialect : Dialect} {entries : Assignment} {fragments : List SetFragment}
    (h : fragmentsFrom dialect 0 entries = .ok fragments) (hne : fragments ≠ [])
    (hcolumns : ∀ entry ∈ entries, entry.value.isLiteral = true →
      entry.column.all isNameChar = true) :
    bindFrom (fragments.filterMap (·.parameter? dialect)) []
        (segments (Text.joinWith ", ".toList (fragments.map (·.text dialect))))
      = (Text.joinWith ", ".toList
            (withPositions dialect 0 entries (fragments.map (·.text dialect))),
          fragments.filterMap (·.parameter? dialect)) := by
  have hstart : fragmentsFrom dialect ([] : List Binding).length entries = .ok fragments := h
  have hseparated := bindFrom_separated hstart hcolumns rfl (nodup_parameters h)
  -- the separator in front of the first fragment is copied, and taken off on both sides
  rw [separated_eq_append_joinWith (by simpa using hne),
    separated_eq_append_joinWith (withPositions_ne_nil h hne),
    bindFrom_plain_append (List.all_eq_true.mp (by decide))] at hseparated
  rw [Prod.mk.injEq] at hseparated
  exact Prod.ext (List.append_cancel_left hseparated.1) hseparated.2

/-- If as many values are bound as there are parameters, then each name among the parameters is a
placeholder of the text. -/
theorem placeholder_mem_of_length {parameters : List Binding} {sql name : Text}
    (h : (toPositional sql parameters).values.length = parameters.length)
    (hname : name ∈ parameters.map (·.name)) : .placeholder name ∈ segments sql := by
  have hnone : (([] : List Binding).map (·.name)).Nodup := List.nodup_nil
  obtain ⟨hnodup, hbound⟩ := bound_bindFrom parameters (segments sql) hnone
  have hsubset : (bindFrom parameters [] (segments sql)).2.map (·.name)
      ⊆ parameters.map (·.name) := by
    intro other hother
    obtain ⟨binding, hmem, rfl⟩ := List.mem_map.mp hother
    rcases hbound binding hmem with hnone | ⟨-, hknown⟩
    · cases hnone
    · exact hknown
  -- distinct names of which there are as many as parameters are all the names there are
  have hlength : (parameters.map (·.name)).length
      ≤ ((bindFrom parameters [] (segments sql)).2.map (·.name)).length := by
    rw [toPositional, List.length_map] at h
    rw [List.length_map, List.length_map, h]
  have hperm := (List.subperm_of_subset hnodup hsubset).perm_of_length_le hlength
  obtain ⟨binding, hmem, rfl⟩ := List.mem_map.mp (hperm.mem_iff.mpr hname)
  rcases hbound binding hmem with hnone | ⟨hplace, -⟩
  · cases hnone
  · exact hplace

/-- Binding a compiled clause lists the values of all its parameters in order and puts a position in the
place of each, without any other change of the text, if and only if each column that is assigned a value
consists of ASCII letters, digits and underscores. -/
theorem toPositional_compile_iff {dialect : Dialect} {ignored : IgnoreSet} {entries : Assignment}
    {clause : SetClause} (h : entries.compile dialect ignored = .ok clause) :
    (toPositional ("SET ".toList ++ Text.joinWith ", ".toList clause.fragments)
          clause.parameters).values
        = clause.parameters.map (·.value)
      ∧ (toPositional ("SET ".toList ++ Text.joinWith ", ".toList clause.fragments)
          clause.parameters).sql
        = "SET ".toList ++ Text.joinWith ", ".toList
            (withPositions dialect 0 (entries.keep ignored) clause.fragments)
      ↔ ∀ entry ∈ entries.keep ignored, entry.value.isLiteral = true →
          entry.column.all isNameChar = true := by
  obtain ⟨fragments, hfragments, hne, rfl⟩ := exists_fragmentsFrom_of_compile h
  constructor
  · rintro ⟨hvalues, -⟩ entry hentry hliteral
    -- the number of values is enough to know that every name is found in the text
    obtain ⟨position, hname⟩ := exists_parameterName_mem hfragments hentry hliteral
    have hlength := congrArg List.length hvalues
    rw [List.length_map] at hlength
    exact Dialect.isNameChar_of_parameterName_mem (placeholder_mem_of_length hlength hname)
  · intro hcolumns
    rw [toPositional, bindFrom_plain_append (List.all_eq_true.mp (by decide)),
      bindFrom_joinWith hfragments hne hcolumns]
    exact ⟨rfl, rfl⟩

/-- An assignment that writes the name of one of its parameters, between quotes, into another column. -/
def relabelledOrders : Assignment :=
  [⟨"Owner".toList, .captured "owner".toList (.text "it's".toList)⟩,
    ⟨"No]te".toList,
      .binary .add (.column "@Rank_P1".toList) (.constant (.text "'@Owner_P0".toList))⟩,
    ⟨"Rank".toList, .converted (.constant (.int 7))⟩]

/-- The parameters of `relabelledOrders` get their positions, and the names between quotes stay. -/
theorem toPositional_relabelledOrders :
    (relabelledOrders.compile .sqlServer .empty).toOption.map (fun clause =>
        toPositional ("SET ".toList ++ Text.joinWith ", ".toList clause.fragments) clause.parameters)
      = some ⟨"SET [Owner] = ?1, [No]]te] = [@Rank_P1] + '''@Owner_P0', [Rank] = ?2".toList,
          [.text "it's".toList, .int 7]⟩ := by
  have hcompile : relabelledOrders.compile .sqlServer .empty
      = .ok ⟨["[Owner] = @Owner_P0".toList, "[No]]te] = [@Rank_P1] + '''@Owner_P0'".toList,
            "[Rank] = @Rank_P1".toList],
          [⟨"@Owner_P0".toList, .text "it's".toList⟩, ⟨"@Rank_P1".toList, .int 7⟩]⟩ := by
    rfl
  have hcolumns : ∀ entry ∈ relabelledOrders.keep .empty, entry.value.isLiteral = true →
      entry.column.all isNameChar = true := by
    decide
  obtain ⟨hvalues, hsql⟩ := (toPositional_compile_iff hcompile).mpr hcolumns
  rw [hcompile]
  exact congrArg some (congrArg₂ PositionalQuery.mk hsql hvalues)

end Assignment

end BulkDml
