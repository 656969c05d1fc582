import BulkDml.Proofs.SegmentCut
import BulkDml.Proofs.SetClauseBinding
import BulkDml.Session

/-! # Own and given bindings

The parameters of an UPDATE and the values of the placeholders in its source query are bound together.  The
names of both share one space: where a given binding has the name of a parameter, the given value is bound in
both places.

* `lookup?_mergeBindings` — the value that a name has among own and given bindings;
* `Expr.literal?`, `IsAssigned` — what an assignment gives the placeholders of its SET clause;
* `IsOwed` — the values that the placeholders of an UPDATE are owed: those assigned in the SET clause, and
  those given in the condition;
* `bindsBehind_mergeBindings_iff` — when every placeholder is bound to what it is owed.
-/

namespace BulkDml

/-- A given value comes before an own one. -/
theorem lookup?_mergeBindings (own given : List Binding) (name : Text) :
    lookup? (mergeBindings own given) name = (lookup? given name).or (lookup? own name) := by
  simp only [lookup?_eq_getLast?, mergeBindings, List.filter_append, List.getLast?_append,
    Option.map_or]

/-! ## Assigned values -/

/-- The value of an expression that travels as a parameter: that of a constant or a captured value, under
conversions or not. -/
def Expr.literal? : Expr → Option Value
  | captured _ value | constant value => some value
  | binary _ _ _ | column _ => none
  | converted operand => operand.literal?

/-- The expressions that travel as parameters are those that have such a value. -/
theorem Expr.isLiteral_eq_isSome (expr : Expr) : expr.isLiteral = expr.literal?.isSome := by
  induction expr with
  | captured name value => rfl
  | constant value => rfl
  | column name => rfl
  | binary op left right => rfl
  | converted operand ih => exact ih

/-- An expression that is rendered to a value has this value. -/
theorem Expr.literal?_of_render {dialect : Dialect} {expr : Expr} {value : Value}
    (h : expr.render dialect = .ok (.literal value)) : expr.literal? = some value := by
  induction expr with
  | captured name held =>
    cases h
    rfl
  | constant held =>
    cases h
    rfl
  | column name => cases h
  | converted operand ih => exact ih h
  | binary op left right =>
    obtain ⟨-, leftText, rightText, -, -, htext⟩ := render_binary_eq_ok_iff.mp h
    cases htext

/-- Whether the placeholder `name` behind the part `before` of a SET clause is the one that stands for an
assigned value.  The name has the number of values in front of it as its ordinal, and the part goes up to the
equals sign behind the column that is assigned. -/
def IsAssigned (dialect : Dialect) (entries : Assignment) (fragments : List Text)
    (before name : Text) (value : Value) : Prop :=
  ∃ (earlier : Assignment) (entry : Assignment.Entry) (later : Assignment),
    entries = earlier ++ entry :: later
      ∧ entry.value.literal? = some value
      ∧ name = dialect.parameterName entry.column (earlier.countP (·.value.isLiteral))
      ∧ before = "SET ".toList ++ (fragments.take earlier.length).flatMap (· ++ ", ".toList)
          ++ (dialect.quote entry.column ++ " = ".toList)

namespace Assignment

/-- An assigned value is a fragment of the clause, behind one fragment for each assignment in front. -/
theorem exists_bound_of_literal? {dialect : Dialect} {ordinal : Nat} {earlier later : Assignment}
    {entry : Entry} {fragments : List SetFragment} {value : Value}
    (h : fragmentsFrom dialect ordinal (earlier ++ entry :: later) = .ok fragments)
    (hvalue : entry.value.literal? = some value) :
    ∃ front back, front.length = earlier.length
      ∧ fragments = front ++ .bound entry.column
          (ordinal + earlier.countP (·.value.isLiteral)) value :: back := by
  induction earlier generalizing ordinal fragments with
  | nil =>
    rw [List.nil_append, fragmentsFrom] at h
    obtain ⟨rendered, hrender, hcontribution⟩ := bind_eq_ok_iff.mp h
    rcases Expr.rendered_cases hrender with ⟨-, held, rfl⟩ | ⟨hother, -⟩
    · obtain ⟨more, -, hfragments⟩ := bind_eq_ok_iff.mp hcontribution
      cases hfragments
      have hheld := Expr.literal?_of_render hrender
      rw [hvalue] at hheld
      cases hheld
      exact ⟨[], more, rfl, rfl⟩
    · rw [Expr.isLiteral_eq_isSome, hvalue] at hother
      cases hother
  | cons first rest ih =>
    rw [List.cons_append] at h
    rcases fragmentsFrom_cons h with
      ⟨hliteral, held, more, hmore, rfl⟩ | ⟨hother, text, more, -, hmore, rfl⟩
    · obtain ⟨front, back, hlength, rfl⟩ := ih hmore
      refine ⟨.bound first.column ordinal held :: front, back, by simp [hlength], ?_⟩
      rw [List.countP_cons_of_pos (by exact hliteral), List.cons_append]
      congr 4
      omega
    · obtain ⟨front, back, hlength, rfl⟩ := ih hmore
      refine ⟨.inline first.column text :: front, back, by simp [hlength], ?_⟩
      rw [List.countP_cons_of_neg (by simp [hother]), List.cons_append]

/-- A fragment of the clause with a parameter is an assigned value. -/
theorem exists_literal?_of_bound {dialect : Dialect} {ordinal position : Nat} {entries : Assignment}
    {front back : List SetFragment} {column : Text} {value : Value}
    (h : fragmentsFrom dialect ordinal entries = .ok (front ++ .bound column position value :: back)) :
    ∃ earlier entry later, entries = earlier ++ entry :: later ∧ entry.column = column
      ∧ entry.value.literal? = some value
      ∧ position = ordinal + earlier.countP (·.value.isLiteral) := by
  induction entries generalizing ordinal front with
  | nil =>
    rw [fragmentsFrom] at h
    cases front <;> cases h
  | cons entry rest ih =>
    cases front with
    | nil =>
      rw [fragmentsFrom] at h
      obtain ⟨rendered, hrender, hcontribution⟩ := bind_eq_ok_iff.mp h
      rcases Expr.rendered_cases hrender with ⟨-, held, rfl⟩ | ⟨-, text, rfl, -⟩
      · obtain ⟨more, -, hfragments⟩ := bind_eq_ok_iff.mp hcontribution
        cases hfragments
        exact ⟨[], entry, rest, rfl, rfl, Expr.literal?_of_render hrender, rfl⟩
      · obtain ⟨more, -, hfragments⟩ := bind_eq_ok_iff.mp hcontribution
        cases hfragments
    | cons first front =>
      rcases fragmentsFrom_cons h with
        ⟨hliteral, held, more, hmore, hfragments⟩ | ⟨hother, text, more, -, hmore, hfragments⟩
      · cases hfragments
        obtain ⟨earlier, found, later, rfl, hcolumn, hvalue, rfl⟩ := ih hmore
        refine ⟨entry :: earlier, found, later, rfl, hcolumn, hvalue, ?_⟩
        rw [List.countP_cons_of_pos (by exact hliteral)]
        omega
      · cases hfragments
        obtain ⟨earlier, found, later, rfl, hcolumn, hvalue, rfl⟩ := ih hmore
        refine ⟨entry :: earlier, found, later, rfl, hcolumn, hvalue, ?_⟩
        rw [List.countP_cons_of_neg (by simp [hother])]

end Assignment

/-! ## Reading a SET clause -/

/-- Whether binding reads a fragment up to its end: what is written in place is inert, and the name of a
parameter is not cut short. -/
def SetFragment.IsClosed : SetFragment → Prop
  | inline _ sql => Text.IsInert sql
  | bound column _ _ => column.all isNameChar = true

/-- The column of a fragment is read to its end, up to the value behind the equals sign. -/
theorem Dialect.endsPlain_quote (dialect : Dialect) (column : Text) :
    Text.EndsPlain (dialect.quote column ++ " = ".toList) :=
  .of_segments_append (List.all_eq_true.mp (by decide)) (by decide)
    ((Text.IsInert.quote dialect column).segments_append _ rfl)

/-- Behind a closed fragment the segments start anew, if nothing prolongs it. -/
theorem SetFragment.IsClosed.segments_append {dialect : Dialect} {fragment : SetFragment}
    (h : fragment.IsClosed) {rest : Text} (hclosing : Text.startsClosing rest = false)
    (hname : rest.head?.all (!isNameChar ·) = true) :
    segments (fragment.text dialect ++ rest) = segments (fragment.text dialect) ++ segments rest := by
  cases fragment with
  | inline column sql =>
    have hvalue : Text.IsInert (" = ".toList ++ sql) :=
      .plain_append (List.all_eq_true.mp (by decide)) h
    have hfragment := (Text.IsInert.quote dialect column).append hvalue rfl
    rw [SetFragment.text, List.append_assoc (dialect.quote column),
      hfragment.segments_append rest hclosing]
  | bound column ordinal value =>
    -- the column is read first, and the name behind it is one placeholder with or without `rest`
    have hcolumn := dialect.endsPlain_quote column
    have hlong := dialect.segments_parameterName ordinal h hname
    have hshort : segments (dialect.parameterName column ordinal ++ [])
        = .placeholder (dialect.parameterName column ordinal) :: segments [] :=
      dialect.segments_parameterName ordinal h rfl
    rw [List.append_nil, segments_nil] at hshort
    rw [SetFragment.text, List.append_assoc (dialect.quote column ++ " = ".toList),
      hcolumn.segments_append, hcolumn.segments_append, hlong, hshort, List.append_assoc]
    rfl

/-- A closed fragment ends plainly with the comma or the line break behind it. -/
theorem SetFragment.IsClosed.endsPlain {dialect : Dialect} {fragment : SetFragment}
    (h : fragment.IsClosed) {tail : Text} (htail : tail = ", ".toList ∨ tail = ['\n']) :
    Text.EndsPlain (fragment.text dialect ++ tail) := by
  rcases htail with rfl | rfl
  · exact .of_segments_append (List.all_eq_true.mp (by decide)) (by decide) (h.segments_append rfl rfl)
  · exact .of_segments_append (List.all_eq_true.mp (by decide)) (by decide) (h.segments_append rfl rfl)

/-- Closed fragments end plainly with a comma behind each. -/
theorem endsPlain_flatMap_comma {dialect : Dialect} {fragments : List SetFragment}
    (h : ∀ fragment ∈ fragments, fragment.IsClosed) :
    Text.EndsPlain ((fragments.map (·.text dialect)).flatMap (· ++ ", ".toList)) := by
  induction fragments with
  | nil => exact .nil
  | cons fragment rest ih =>
    rw [List.forall_mem_cons] at h
    rw [List.map_cons, List.flatMap_cons]
    exact (h.1.endsPlain (Or.inl rfl)).append (ih h.2)

/-- The fragments in front of one have a comma behind them, and those behind it have one in front. -/
theorem joinWith_append_cons (front back : List Text) (piece : Text) :
    Text.joinWith ", ".toList (front ++ piece :: back)
      = front.flatMap (· ++ ", ".toList) ++ (piece ++ Assignment.separated back) := by
  induction front with
  | nil =>
    cases back with
    | nil =>
      rw [List.nil_append, Text.joinWith_singleton, Assignment.separated_nil, List.append_nil]
      rfl
    | cons second rest =>
      rw [List.nil_append, Text.joinWith_cons_cons,
        Assignment.separated_eq_append_joinWith (List.cons_ne_nil _ _), List.append_assoc]
      rfl
  | cons first rest ih =>
    obtain ⟨second, more, hmore⟩ : ∃ second more, rest ++ piece :: back = second :: more := by
      cases rest with
      | nil => exact ⟨piece, back, rfl⟩
      | cons second more => exact ⟨second, more ++ piece :: back, rfl⟩
    rw [List.cons_append, hmore, Text.joinWith_cons_cons, ← hmore, ih, List.flatMap_cons,
      List.append_assoc (first ++ ", ".toList)]

/-- Closed fragments end plainly with a comma between neighbours and a line break behind the last. -/
theorem endsPlain_joinWith {dialect : Dialect} {fragments : List SetFragment} (hne : fragments ≠ [])
    (h : ∀ fragment ∈ fragments, fragment.IsClosed) :
    Text.EndsPlain (Text.joinWith ", ".toList (fragments.map (·.text dialect)) ++ ['\n']) := by
  obtain ⟨front, last, rfl⟩ := (List.eq_nil_or_concat' fragments).resolve_left hne
  rw [List.map_append, List.map_singleton, joinWith_append_cons, Assignment.separated_nil,
    List.append_nil, List.append_assoc]
  have hfront : Text.EndsPlain ((front.map (·.text dialect)).flatMap (· ++ ", ".toList)) :=
    endsPlain_flatMap_comma fun fragment hmem => h fragment (List.mem_append_left _ hmem)
  have hlast : Text.EndsPlain (last.text dialect ++ ['\n']) :=
    (h last (by simp)).endsPlain (Or.inr rfl)
  exact hfront.append hlast

/-- The fragments of an assignment are closed, if the columns that are assigned values consist of name
characters. -/
theorem Assignment.isClosed_of_mem {dialect : Dialect} {ordinal : Nat} {entries : Assignment}
    {fragments : List SetFragment} (h : fragmentsFrom dialect ordinal entries = .ok fragments)
    (hcolumns : ∀ entry ∈ entries, entry.value.isLiteral = true →
      entry.column.all isNameChar = true) :
    ∀ fragment ∈ fragments, fragment.IsClosed := by
  induction entries generalizing ordinal fragments with
  | nil =>
    cases h
    simp
  | cons entry rest ih =>
    rw [List.forall_mem_cons] at hcolumns
    rcases fragmentsFrom_cons h with
      ⟨hliteral, value, more, hmore, rfl⟩ | ⟨-, text, more, htext, hmore, rfl⟩
    · exact List.forall_mem_cons.mpr ⟨hcolumns.1 hliteral, ih hmore hcolumns.2⟩
    · exact List.forall_mem_cons.mpr ⟨Expr.isInert_of_sql htext, ih hmore hcolumns.2⟩

/-! ## The placeholders of an UPDATE -/

/-- The text of a SET clause. -/
def SetClause.text (clause : SetClause) : Text :=
  "SET ".toList ++ Text.joinWith ", ".toList clause.fragments

/-- What stands in front of the SET clause of an UPDATE. -/
def SourceQuery.updateHead (query : SourceQuery) : Text :=
  Statement.assemble query.preamble ["UPDATE ".toList ++ query.table] ++ ['\n']

/-- An UPDATE consists of its head, the SET clause and, on a line of its own, the condition. -/
theorem assemble_update (dialect : Dialect) (query : SourceQuery) (clause : SetClause) :
    Statement.assemble query.preamble
        ["UPDATE ".toList ++ query.table, "SET ".toList ++ Text.joinWith ", ".toList clause.fragments,
          query.unaliasedWhere dialect]
      = query.updateHead ++ (clause.text ++ '\n' :: query.unaliasedWhere dialect) := by
  rw [SourceQuery.updateHead, SetClause.text, Statement.assemble, Statement.assemble]
  cases query.preamble with
  | none => simp [Text.joinWith]
  | some declarations => simp [Text.joinWith]

/-- A compiled UPDATE is made of a query and a clause. -/
theorem compileUpdate_eq_ok_iff {dialect : Dialect} {source : Text} {assignment : Assignment}
    {ignored : IgnoreSet} {statement : Statement} :
    compileUpdate dialect source assignment ignored = .ok statement
      ↔ ∃ query clause, SourceQuery.parse dialect source = .ok query
          ∧ assignment.compile dialect ignored = .ok clause
          ∧ statement = ⟨query.updateHead ++ (clause.text ++ '\n' :: query.unaliasedWhere dialect),
              clause.parameters⟩ := by
  constructor
  · intro h
    rw [compileUpdate] at h
    obtain ⟨query, hquery, h⟩ := bind_eq_ok_iff.mp h
    obtain ⟨clause, hclause, h⟩ := bind_eq_ok_iff.mp h
    cases h
    rw [assemble_update]
    exact ⟨query, clause, hquery, hclause, rfl⟩
  · rintro ⟨query, clause, hquery, hclause, rfl⟩
    rw [compileUpdate_of_parse hquery, hclause, ← assemble_update]
    rfl

/-- The values that the placeholders of an UPDATE are owed, each behind a part of the text: in the SET
clause the assigned values, and in the condition the given ones. -/
inductive IsOwed (dialect : Dialect) (query : SourceQuery) (entries : Assignment) (clause : SetClause)
    (given : List Binding) : Text → Text → Value → Prop where
  /-- A placeholder of the SET clause is owed the value that its column is assigned. -/
  | assigned {before name : Text} {value : Value}
      (h : IsAssigned dialect entries clause.fragments before name value) :
      IsOwed dialect query entries clause given (query.updateHead ++ before) name value
  /-- A placeholder of the condition is owed the value that is given for its name. -/
  | given {front back : List Segment} {name : Text} {value : Value}
      (hplace : segments (query.unaliasedWhere dialect) = front ++ .placeholder name :: back)
      (hvalue : lookup? given name = some value) :
      IsOwed dialect query entries clause given
        (query.updateHead ++ (clause.text ++ '\n' :: front.flatMap Segment.text)) name value

/-- The name of an assigned value is the name of a parameter with this value. -/
theorem lookup?_of_isAssigned {dialect : Dialect} {ignored : IgnoreSet} {entries : Assignment}
    {clause : SetClause} (hclause : entries.compile dialect ignored = .ok clause)
    {before name : Text} {value : Value}
    (h : IsAssigned dialect (entries.keep ignored) clause.fragments before name value) :
    lookup? clause.parameters name = some value := by
  obtain ⟨fragments, hfragments, -, rfl⟩ := Assignment.exists_fragmentsFrom_of_compile hclause
  obtain ⟨earlier, entry, later, hentries, hvalue, rfl, -⟩ := h
  have hnodup := Assignment.nodup_parameters hfragments
  rw [hentries] at hfragments
  obtain ⟨front, back, -, rfl⟩ := Assignment.exists_bound_of_literal? hfragments hvalue
  rw [Nat.zero_add] at hnodup ⊢
  have hmem : ⟨dialect.parameterName entry.column (earlier.countP (·.value.isLiteral)), value⟩
      ∈ (front ++ .bound entry.column (earlier.countP (·.value.isLiteral)) value :: back).filterMap
          (·.parameter? dialect) :=
    List.mem_filterMap.mpr ⟨_, List.mem_append_right _ List.mem_cons_self, rfl⟩
  exact lookup?_of_mem hnodup hmem

/-- Every parameter has a place in the SET clause. -/
theorem exists_isAssigned_of_mem {dialect : Dialect} {ignored : IgnoreSet} {entries : Assignment}
    {clause : SetClause} (hclause : entries.compile dialect ignored = .ok clause)
    {parameter : Binding} (h : parameter ∈ clause.parameters) :
    ∃ before, IsAssigned dialect (entries.keep ignored) clause.fragments before parameter.name
      parameter.value := by
  obtain ⟨fragments, hfragments, -, rfl⟩ := Assignment.exists_fragmentsFrom_of_compile hclause
  obtain ⟨fragment, hmem, hparameter⟩ := List.mem_filterMap.mp h
  cases fragment with
  | inline column text => cases hparameter
  | bound column position value =>
    cases hparameter
    obtain ⟨front, back, rfl⟩ := List.append_of_mem hmem
    obtain ⟨earlier, entry, later, hentries, rfl, hvalue, rfl⟩ :=
      Assignment.exists_literal?_of_bound hfragments
    rw [Nat.zero_add]
    exact ⟨_, earlier, entry, later, hentries, hvalue, rfl, rfl⟩

/-- The placeholders of an UPDATE are read where they stand, if no quote is left open in front of the SET
clause and the columns that are assigned values consist of name characters. -/
theorem readsBehind_of_isOwed {dialect : Dialect} {query : SourceQuery} {ignored : IgnoreSet}
    {assignment : Assignment} {clause : SetClause} {given : List Binding}
    (hclause : assignment.compile dialect ignored = .ok clause) (hhead : query.updateHead.EndsPlain)
    (hcolumns : ∀ entry ∈ assignment.keep ignored, entry.value.isLiteral = true →
      entry.column.all isNameChar = true)
    {before name : Text} {value : Value}
    (h : IsOwed dialect query (assignment.keep ignored) clause given before name value) :
    ReadsBehind (query.updateHead ++ (clause.text ++ '\n' :: query.unaliasedWhere dialect)) before
      name := by
  obtain ⟨fragments, hfragments, hne, rfl⟩ := Assignment.exists_fragmentsFrom_of_compile hclause
  have hclosed := Assignment.isClosed_of_mem hfragments hcolumns
  have hset : Text.EndsPlain "SET ".toList :=
    .of_forall_plain (List.all_eq_true.mp (by decide))
  cases h with
  | @given front back _ _ hplace _ =>
    -- the condition starts a line, and is read there as it is read by itself
    have hclause : Text.EndsPlain
        (SetClause.text ⟨fragments.map (·.text dialect), fragments.filterMap (·.parameter? dialect)⟩
          ++ ['\n']) := by
      rw [SetClause.text, List.append_assoc]
      exact hset.append (endsPlain_joinWith hne hclosed)
    have hread := ReadsBehind.of_endsPlain (hhead.append hclause) hplace
    simpa only [List.append_assoc, List.cons_append, List.nil_append] using hread
  | assigned h =>
    obtain ⟨earlier, entry, later, hentries, hvalue, rfl, rfl⟩ := h
    have hcolumn : entry.column.all isNameChar = true := by
      refine hcolumns entry ?_ ?_
      · rw [hentries]
        simp
      · rw [Expr.isLiteral_eq_isSome, hvalue]
        rfl
    rw [hentries] at hfragments
    obtain ⟨front, back, hlength, rfl⟩ := Assignment.exists_bound_of_literal? hfragments hvalue
    rw [Nat.zero_add] at hclosed ⊢
    have htake : ((front ++ .bound entry.column (earlier.countP (·.value.isLiteral)) value :: back).map
        (·.text dialect)).take earlier.length = front.map (·.text dialect) := by
      rw [List.map_append, ← hlength, ← List.length_map (·.text dialect), List.take_left]
    -- the part in front of the name ends with the equals sign, and a comma or a line break is behind it
    have hfront : Text.EndsPlain (query.updateHead
        ++ ("SET ".toList ++ (front.map (·.text dialect)).flatMap (· ++ ", ".toList)
          ++ (dialect.quote entry.column ++ " = ".toList))) :=
      hhead.append ((hset.append (endsPlain_flatMap_comma fun fragment hmem =>
        hclosed fragment (List.mem_append_left _ hmem))).append (dialect.endsPlain_quote entry.column))
    have hbehind : (Assignment.separated (back.map (·.text dialect))
        ++ '\n' :: query.unaliasedWhere dialect).head?.all (!isNameChar ·) = true := by
      cases back <;> rfl
    have hname : segments (dialect.parameterName entry.column (earlier.countP (·.value.isLiteral))
          ++ (Assignment.separated (back.map (·.text dialect))
            ++ '\n' :: query.unaliasedWhere dialect))
        = [] ++ .placeholder (dialect.parameterName entry.column (earlier.countP (·.value.isLiteral)))
          :: segments (Assignment.separated (back.map (·.text dialect))
            ++ '\n' :: query.unaliasedWhere dialect) :=
      dialect.segments_parameterName _ hcolumn hbehind
    have hread := ReadsBehind.of_endsPlain hfront hname
    rw [htake, SetClause.text, List.map_append, List.map_cons, joinWith_append_cons]
    simpa only [SetFragment.text, List.append_assoc, List.flatMap_nil, List.append_nil] using hread

/-! ## What merging binds -/

/-- **When every placeholder of an UPDATE is bound to what it is owed.**  Binding the parameters of the
statement together with the given bindings gives every placeholder of the SET clause its assigned value, and
every placeholder of the condition its given value, exactly if all of them are read where they stand and no
binding with another value is given for the name of a parameter.  They are read there if no quote is left
open in front of the SET clause and the columns that are assigned values consist of name characters. -/
theorem bindsBehind_mergeBindings_iff {dialect : Dialect} {source : Text} {assignment : Assignment}
    {ignored : IgnoreSet} {statement : Statement}
    (h : compileUpdate dialect source assignment ignored = .ok statement) (given : List Binding) :
    ∃ query clause, SourceQuery.parse dialect source = .ok query
      ∧ assignment.compile dialect ignored = .ok clause
      ∧ ((∀ before name value,
            IsOwed dialect query (assignment.keep ignored) clause given before name value →
              BindsBehind statement.sql (mergeBindings statement.parameters given) before name value)
          ↔ (∀ before name value,
              IsOwed dialect query (assignment.keep ignored) clause given before name value →
                ReadsBehind statement.sql before name)
            ∧ ∀ parameter ∈ statement.parameters, ∀ value,
                lookup? given parameter.name = some value → value = parameter.value)
      ∧ (query.updateHead.EndsPlain →
          (∀ entry ∈ assignment.keep ignored, entry.value.isLiteral = true →
            entry.column.all isNameChar = true) →
          ∀ before name value,
            IsOwed dialect query (assignment.keep ignored) clause given before name value →
              ReadsBehind statement.sql before name) := by
  obtain ⟨query, clause, hquery, hclause, rfl⟩ := compileUpdate_eq_ok_iff.mp h
  refine ⟨query, clause, hquery, hclause, ?_, ?_⟩
  · constructor
    · intro hbound
      refine ⟨fun before name value howed => (bindsBehind_iff.mp (hbound _ _ _ howed)).1, ?_⟩
      intro parameter hparameter value hvalue
      obtain ⟨before, hassigned⟩ := exists_isAssigned_of_mem hclause hparameter
      have hfound := (bindsBehind_iff.mp (hbound _ _ _ (.assigned hassigned))).2
      -- the given value is the one that is bound in the place of the parameter
      rw [lookup?_mergeBindings, hvalue, Option.some_or, Option.some_inj] at hfound
      exact hfound
    · rintro ⟨hread, hsame⟩ before name value howed
      refine bindsBehind_iff.mpr ⟨hread _ _ _ howed, ?_⟩
      rw [lookup?_mergeBindings]
      cases howed with
      | given hplace hvalue => rw [hvalue, Option.some_or]
      | assigned hassigned =>
        have hown := lookup?_of_isAssigned hclause hassigned
        cases hgiven : lookup? given name with
        | none => rw [Option.none_or, hown]
        | some other =>
          obtain ⟨_, _, hparameters, -⟩ := isLast_of_lookup? hown
          have hother := hsame ⟨name, value⟩ (by rw [hparameters]; simp) other hgiven
          rw [Option.some_or, hother]
  · intro hhead hcolumns before name value howed
    exact readsBehind_of_isOwed hclause hhead hcolumns howed

/-- An assignment of a value and of a computed price. -/
def reassignedOrders : Assignment :=
  [⟨"Owner".toList, .captured "owner".toList (.text "'@p0'".toList)⟩,
    ⟨"Price".toList, .binary .mul (.column "Price".toList) (.constant (.int 2))⟩]

/-- Values that are given for the placeholders of a condition, one under the name of another column. -/
def givenOwners : List Binding :=
  [⟨"@p0".toList, .int 5⟩, ⟨"@Price_P0".toList, .text "me".toList⟩]

/-- The UPDATE of `reassignedOrders` binds everything to what it is owed. -/
theorem bindsBehind_reassignedOrders :
    ∃ query clause,
      SourceQuery.parse .sqlServer
          "SELECT 1 FROM [Orders] AS [o] WHERE [o].[Owner] = @Price_P0 AND [o].[Id] < @p0".toList
        = .ok query
      ∧ reassignedOrders.compile .sqlServer .empty = .ok clause
      ∧ ∀ before name value,
          IsOwed .sqlServer query (reassignedOrders.keep .empty) clause givenOwners before name value →
            BindsBehind
              ("UPDATE [Orders]\nSET [Owner] = @Owner_P0, [Price] = [Price] * 2\n"
                ++ "WHERE [Owner] = @Price_P0 AND [Id] < @p0").toList
              (mergeBindings [⟨"@Owner_P0".toList, .text "'@p0'".toList⟩] givenOwners)
              before name value := by
  have hcompile : compileUpdate .sqlServer
      "SELECT 1 FROM [Orders] AS [o] WHERE [o].[Owner] = @Price_P0 AND [o].[Id] < @p0".toList
      reassignedOrders .empty
      = .ok ⟨("UPDATE [Orders]\nSET [Owner] = @Owner_P0, [Price] = [Price] * 2\n"
          ++ "WHERE [Owner] = @Price_P0 AND [Id] < @p0").toList,
          [⟨"@Owner_P0".toList, .text "'@p0'".toList⟩]⟩ := by
    decide +kernel
  obtain ⟨query, clause, hquery, hclause, hbound, hread⟩ :=
    bindsBehind_mergeBindings_iff hcompile givenOwners
  have hparse : SourceQuery.parse .sqlServer
      "SELECT 1 FROM [Orders] AS [o] WHERE [o].[Owner] = @Price_P0 AND [o].[Id] < @p0".toList
      = .ok ⟨none, "[Orders]".toList, "[o]".toList,
          "WHERE [o].[Owner] = @Price_P0 AND [o].[Id] < @p0".toList⟩ := by
    decide +kernel
  have hhead : query.updateHead.EndsPlain := by
    rw [hparse] at hquery
    cases hquery
    have hlast : (segments "UPDATE [Orders]\n".toList).getLast? = some (.other '\n') := by
      decide +kernel
    exact .of_getLast? hlast rfl
  refine ⟨query, clause, hquery, hclause, hbound.mpr ⟨hread hhead (by decide), ?_⟩⟩
  -- no value is given for the name of the one parameter
  have hnone : lookup? givenOwners "@Owner_P0".toList = none := by decide
  intro parameter hmem value hvalue
  rw [List.mem_singleton.mp hmem, hnone] at hvalue
  cases hvalue

/-- A value that is given for the name of a parameter takes the place of the assigned value: the statement
sets the status to the value that its condition compares it with. -/
theorem given_displaces_assigned :
    compileUpdate .sqlServer
        "SELECT [o].[Id] FROM [Orders] AS [o] WHERE [o].[Status] = @Status_P0".toList
        [⟨"Status".toList, .constant (.text "shipped".toList)⟩] .empty
      = .ok ⟨"UPDATE [Orders]\nSET [Status] = @Status_P0\nWHERE [Status] = @Status_P0".toList,
          [⟨"@Status_P0".toList, .text "shipped".toList⟩]⟩
    ∧ toPositional "UPDATE [Orders]\nSET [Status] = @Status_P0\nWHERE [Status] = @Status_P0".toList
        (mergeBindings [⟨"@Status_P0".toList, .text "shipped".toList⟩]
          [⟨"@Status_P0".toList, .text "open".toList⟩])
      = ⟨"UPDATE [Orders]\nSET [Status] = ?1\nWHERE [Status] = ?1".toList, [.text "open".toList]⟩
    ∧ ¬BindsBehind
        "UPDATE [Orders]\nSET [Status] = @Status_P0\nWHERE [Status] = @Status_P0".toList
        (mergeBindings [⟨"@Status_P0".toList, .text "shipped".toList⟩]
          [⟨"@Status_P0".toList, .text "open".toList⟩])
        "UPDATE [Orders]\nSET [Status] = ".toList "@Status_P0".toList (.text "shipped".toList) := by
  refine ⟨by decide +kernel, by decide +kernel, ?_⟩
  rw [bindsBehind_iff]
  rintro ⟨-, hvalue⟩
  exact absurd hvalue (by decide)

end BulkDml
