import BulkDml.Proofs.SegmentCut

/-! # Names behind a doubled introducer

A cast such as `x::date` and a system variable such as `@@identity` have an introducer twice in front of a name.
The first of the two introduces nothing, and then the second one is met by itself, so that a placeholder is read
behind it like everywhere else.  It makes no difference as long as no parameter has its name.

* `HasPlaceholder`, `IsDoubledIn` — placeholders behind a text of some kind, and behind their own introducer;
* `keepDoubled`, `bindSingles` — binding that takes placeholders of the latter kind for plain characters;
* `placeholder_mem_keepDoubled_iff` — the placeholders that are left have a single introducer;
* `bindFrom_keepDoubled`, `lookup?_of_bindFrom_keepDoubled` — when this binding and the other one agree;
* `toPositional_eq_bindSingles_law` — exactly if no parameter has the name of a doubled placeholder.
-/

namespace BulkDml

/-! ## Placeholders behind a text -/

/-- Whether the segments behind a text have a placeholder of the given name in front of which the whole text has
the given property. -/
def HasPlaceholder (name : Text) (p : Text → Prop) (before : Text) (parts : List Segment) : Prop :=
  ∃ front back : List Segment,
    parts = front ++ .placeholder name :: back ∧ p (before ++ front.flatMap Segment.text)

/-- The first segment is such a placeholder, or there is one behind it. -/
theorem hasPlaceholder_cons_iff {name before : Text} {p : Text → Prop} {segment : Segment}
    {rest : List Segment} :
    HasPlaceholder name p before (segment :: rest)
      ↔ (segment = .placeholder name ∧ p before) ∨ HasPlaceholder name p (before ++ segment.text) rest := by
  constructor
  · rintro ⟨front, back, hparts, hp⟩
    cases front with
    | nil =>
      obtain ⟨rfl, -⟩ := List.cons.inj hparts
      exact .inl ⟨rfl, by simpa using hp⟩
    | cons first front =>
      obtain ⟨rfl, rfl⟩ := List.cons.inj hparts
      exact .inr ⟨front, back, rfl, by simpa using hp⟩
  · rintro (⟨rfl, hp⟩ | ⟨front, back, rfl, hp⟩)
    · exact ⟨[], rest, rfl, by simpa using hp⟩
    · exact ⟨segment :: front, back, rfl, by simpa using hp⟩

/-- A placeholder is doubled behind a text that ends in the character that it starts with. -/
def IsDoubledBehind (name before : Text) : Prop := before.getLast? = name.head?

instance (name before : Text) : Decidable (IsDoubledBehind name before) :=
  inferInstanceAs (Decidable (before.getLast? = name.head?))

/-- Whether a placeholder of the given name stands behind its own introducer somewhere in a text. -/
def IsDoubledIn (sql name : Text) : Prop :=
  ∃ before, ReadsBehind sql before name ∧ IsDoubledBehind name before

/-- Whether a placeholder of the given name stands behind something else than its own introducer. -/
def IsSingleIn (sql name : Text) : Prop :=
  ∃ before, ReadsBehind sql before name ∧ ¬IsDoubledBehind name before

/-! ## Binding single introducers only -/

/-- What a segment behind a text is taken for: a placeholder behind its own introducer for plain characters. -/
def Segment.single (before : Text) : Segment → List Segment
  | placeholder name => if IsDoubledBehind name before then name.map other else [placeholder name]
  | quoted text => [quoted text]
  | other c => [other c]

/-- The segments behind a text, with plain characters in the place of placeholders behind their own introducer. -/
def keepDoubled (before : Text) : List Segment → List Segment
  | [] => []
  | segment :: rest => segment.single before ++ keepDoubled (before ++ segment.text) rest

/-- Writes positional placeholders in the place of the names that have a binding and a single introducer. -/
def bindSingles (sql : Text) (bindings : List Binding) : PositionalQuery :=
  let (text, bound) := bindFrom bindings [] (keepDoubled [] (segments sql))
  ⟨text, bound.map (·.value)⟩

/-- A segment is what it is taken for, as far as its text goes. -/
theorem Segment.flatMap_text_single (before : Text) (segment : Segment) :
    (segment.single before).flatMap text = segment.text := by
  cases segment with
  | quoted run => exact List.flatMap_singleton text _
  | other c => exact List.flatMap_singleton text _
  | placeholder name =>
    rw [single]
    split
    · exact flatMap_text_map_other name
    · exact List.flatMap_singleton text _

/-- A placeholder is left over of itself, unless it is doubled. -/
theorem Segment.placeholder_mem_single_iff {before name : Text} {segment : Segment} :
    .placeholder name ∈ segment.single before
      ↔ segment = .placeholder name ∧ ¬IsDoubledBehind name before := by
  cases segment with
  | quoted run => simp [single]
  | other c => simp [single]
  | placeholder found =>
    rw [single]
    split
    · next hdoubled =>
      simp only [List.mem_map, reduceCtorEq, and_false, exists_false, placeholder.injEq, false_iff, not_and,
        not_not]
      rintro rfl
      exact hdoubled
    · next hsingle =>
      simp only [List.mem_singleton, placeholder.injEq]
      constructor
      · rintro rfl
        exact ⟨rfl, hsingle⟩
      · rintro ⟨rfl, -⟩
        rfl

/-- Taking placeholders for plain characters keeps the text. -/
theorem flatMap_text_keepDoubled (before : Text) (parts : List Segment) :
    (keepDoubled before parts).flatMap Segment.text = parts.flatMap Segment.text := by
  induction parts generalizing before with
  | nil => rfl
  | cons segment rest ih =>
    rw [keepDoubled, List.flatMap_append, Segment.flatMap_text_single, ih, List.flatMap_cons]

/-- **The placeholders that are left are those that are not doubled.** -/
theorem placeholder_mem_keepDoubled_iff {before name : Text} {parts : List Segment} :
    .placeholder name ∈ keepDoubled before parts
      ↔ HasPlaceholder name (fun front => ¬IsDoubledBehind name front) before parts := by
  induction parts generalizing before with
  | nil => simp [keepDoubled, HasPlaceholder]
  | cons segment rest ih =>
    rw [keepDoubled, List.mem_append, ih, hasPlaceholder_cons_iff, Segment.placeholder_mem_single_iff]

/-- Plain characters are copied. -/
theorem bindFrom_map_other (bindings bound : List Binding) (chars : Text) :
    bindFrom bindings bound (chars.map .other) = (chars, bound) := by
  rw [bindFrom_of_forall_kept, Segment.flatMap_text_map_other]
  intro segment hsegment
  obtain ⟨c, -, rfl⟩ := List.mem_map.mp hsegment
  rfl

/-- A segment binds like what it is taken for, if it is no doubled placeholder with a value. -/
theorem bindFrom_single {bindings : List Binding} {before : Text} {segment : Segment}
    (h : ∀ name, segment = .placeholder name → IsDoubledBehind name before → lookup? bindings name = none)
    (bound : List Binding) :
    bindFrom bindings bound (segment.single before) = bindFrom bindings bound [segment] := by
  cases segment with
  | quoted run => rfl
  | other c => rfl
  | placeholder name =>
    rw [Segment.single]
    split
    · next hdoubled =>
      rw [bindFrom_map_other, bindFrom_cons_of_unknown _ (h name rfl hdoubled)]
      simp [bindFrom]
    · rfl

/-- **Without a value for a doubled placeholder, binding is binding of the others.** -/
theorem bindFrom_keepDoubled {bindings : List Binding} {before : Text} {parts : List Segment}
    (h : ∀ name, HasPlaceholder name (IsDoubledBehind name) before parts → lookup? bindings name = none)
    (bound : List Binding) :
    bindFrom bindings bound (keepDoubled before parts) = bindFrom bindings bound parts := by
  induction parts generalizing before bound with
  | nil => rfl
  | cons segment rest ih =>
    simp only [hasPlaceholder_cons_iff] at h
    have hsegment := bindFrom_single (fun name hname hdoubled => h name (.inl ⟨hname, hdoubled⟩)) bound
    have hrest := ih fun name hname => h name (.inr hname)
    rw [keepDoubled, bindFrom_append, hsegment, hrest, ← bindFrom_append, List.singleton_append]

/-- A name with a value is not written as it is, but as a number. -/
theorem head?_bindFrom_of_lookup? {bindings : List Binding} {name : Text} {value : Value}
    (h : lookup? bindings name = some value) (bound : List Binding) (rest : List Segment) :
    (bindFrom bindings bound (.placeholder name :: rest)).1.head? = some '?' := by
  cases hbound : bound.findIdx? (·.name == name) with
  | some position => rw [bindFrom_cons_of_bound h hbound]; rfl
  | none => rw [bindFrom_cons_of_new h hbound]; rfl

/-- **Where the two bindings write the same text, no doubled placeholder has a value**: the first one that has is
written as a number by the one, and as it is by the other. -/
theorem lookup?_of_bindFrom_keepDoubled {bindings bound : List Binding} {before : Text}
    {parts : List Segment} (hsplit : Segment.IsSplit parts)
    (h : (bindFrom bindings bound (keepDoubled before parts)).1 = (bindFrom bindings bound parts).1)
    {name : Text} (hname : HasPlaceholder name (IsDoubledBehind name) before parts) :
    lookup? bindings name = none := by
  induction parts generalizing before bound with
  | nil =>
    obtain ⟨front, back, hparts, -⟩ := hname
    simp at hparts
  | cons segment rest ih =>
    obtain ⟨hends, hrest⟩ := hsplit
    have hunknown : ∀ name, segment = .placeholder name → IsDoubledBehind name before →
        lookup? bindings name = none := by
      rintro name rfl hdoubled
      obtain ⟨c, run, rfl, hc, -⟩ := hends
      cases hvalue : lookup? bindings (c :: run) with
      | none => rfl
      | some value =>
        have hnumber := head?_bindFrom_of_lookup? hvalue bound rest
        rw [← h, keepDoubled, Segment.single, if_pos hdoubled, bindFrom_append, bindFrom_map_other] at hnumber
        obtain rfl : c = '?' := Option.some_inj.mp hnumber
        cases hc
    -- the segment binds alike, so that the text behind it is the same
    have hsegment := bindFrom_single hunknown bound
    have hparts := bindFrom_append bindings bound [segment] rest
    rw [List.singleton_append] at hparts
    rw [keepDoubled, bindFrom_append, hsegment, hparts] at h
    rcases hasPlaceholder_cons_iff.mp hname with ⟨hfirst, hdoubled⟩ | hlater
    · exact hunknown name hfirst hdoubled
    · exact ih hrest (List.append_cancel_left h) hlater

/-! ## The law -/

/-- The placeholders of a text are read behind what stands in front of them. -/
theorem hasPlaceholder_segments_iff {sql name : Text} {p : Text → Prop} :
    HasPlaceholder name p [] (segments sql) ↔ ∃ before, ReadsBehind sql before name ∧ p before := by
  constructor
  · rintro ⟨front, back, hsegments, hp⟩
    exact ⟨_, ⟨front, back, hsegments, rfl⟩, hp⟩
  · rintro ⟨_, ⟨front, back, hsegments, rfl⟩, hp⟩
    exact ⟨front, back, hsegments, hp⟩

/-- **The law of doubled introducers.**  Binding agrees with binding of single introducers exactly if no parameter
has the name of a placeholder that stands behind its own introducer; and for all parameters exactly if the text has
no such placeholder.  Binding of single introducers reads the same text, with the placeholders that stand behind
something else and no others. -/
theorem toPositional_eq_bindSingles_law (sql : Text) :
    ((keepDoubled [] (segments sql)).flatMap Segment.text = sql
      ∧ ∀ name, .placeholder name ∈ keepDoubled [] (segments sql) ↔ IsSingleIn sql name)
    ∧ (∀ bindings : List Binding, toPositional sql bindings = bindSingles sql bindings
        ↔ ∀ name, IsDoubledIn sql name → name ∉ bindings.map (·.name))
    ∧ ((∀ bindings : List Binding, toPositional sql bindings = bindSingles sql bindings)
        ↔ ∀ name, ¬IsDoubledIn sql name) := by
  have hagree : ∀ bindings : List Binding, toPositional sql bindings = bindSingles sql bindings
      ↔ ∀ name, IsDoubledIn sql name → name ∉ bindings.map (·.name) := by
    intro bindings
    constructor
    · intro h name hdoubled
      have htext : (bindFrom bindings [] (keepDoubled [] (segments sql))).1
          = (bindFrom bindings [] (segments sql)).1 :=
        (congrArg PositionalQuery.sql h).symm
      exact lookup?_eq_none_iff.mp (lookup?_of_bindFrom_keepDoubled (Segment.isSplit_segments sql) htext
        (hasPlaceholder_segments_iff.mpr hdoubled))
    · intro h
      have hnone : ∀ name, HasPlaceholder name (IsDoubledBehind name) [] (segments sql) →
          lookup? bindings name = none :=
        fun name hname => lookup?_eq_none_iff.mpr (h name (hasPlaceholder_segments_iff.mp hname))
      rw [toPositional, bindSingles, bindFrom_keepDoubled hnone]
  refine ⟨⟨?_, fun name => ?_⟩, hagree, ?_⟩
  · rw [flatMap_text_keepDoubled, flatMap_text_segments]
  · exact placeholder_mem_keepDoubled_iff.trans hasPlaceholder_segments_iff
  · constructor
    · intro h name hdoubled
      exact (hagree [⟨name, .null⟩]).mp (h _) name hdoubled (by simp)
    · intro h bindings
      exact (hagree bindings).mpr fun name hdoubled => absurd hdoubled (h name)

/-- Casts and system variables are kept beside parameters of other names. -/
example :
    toPositional "SELECT o.day::date, @@identity FROM o WHERE o.day = :day AND o.id = @id".toList
        [⟨":day".toList, .text "2024-01-01".toList⟩, ⟨"@id".toList, .int 7⟩]
      = ⟨"SELECT o.day::date, @@identity FROM o WHERE o.day = ?1 AND o.id = ?2".toList,
          [.text "2024-01-01".toList, .int 7]⟩ := by
  decide +kernel

/-- A parameter that is called like a type takes the place of the type in a cast. -/
theorem cast_is_bound :
    IsDoubledIn "SELECT x::date FROM t WHERE d = :date".toList ":date".toList
    ∧ toPositional "SELECT x::date FROM t WHERE d = :date".toList
        [⟨":date".toList, .text "2024-01-01".toList⟩]
      = ⟨"SELECT x:?1 FROM t WHERE d = ?1".toList, [.text "2024-01-01".toList]⟩
    ∧ bindSingles "SELECT x::date FROM t WHERE d = :date".toList
        [⟨":date".toList, .text "2024-01-01".toList⟩]
      = ⟨"SELECT x::date FROM t WHERE d = ?1".toList, [.text "2024-01-01".toList]⟩ := by
  have hsegments : segments "SELECT x::date FROM t WHERE d = :date".toList
      = "SELECT x:".toList.map .other
        ++ .placeholder ":date".toList :: segments " FROM t WHERE d = :date".toList := by
    decide +kernel
  refine ⟨⟨"SELECT x:".toList, ⟨_, _, hsegments, ?_⟩, rfl⟩, ?_, ?_⟩ <;> decide +kernel

end BulkDml
