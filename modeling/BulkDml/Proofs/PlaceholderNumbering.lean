import BulkDml.Proofs.InertText
import BulkDml.Proofs.SegmentSplit
import Mathlib.Data.List.Induction

/-! # The numbers of placeholders

Binding gives the placeholders of a text that have a value the numbers 1, 2, … in the order in which their
names first appear.

* `IsLast` — the binding that counts among those of its name;
* `IsNumbering` — the bindings that get a number, in the order of their numbers;
* `Segment.positionalText` — a segment with the number of its name in its place;
* `IsNumbering.step`, `isNumbering_bindFrom` — what one step of binding adds, and what holds however far
  binding has come;
* `toPositional_law` — the split of a text, the numbers, the values, and what does not change them.
-/

namespace BulkDml

/-! ## The binding that counts -/

/-- Whether a binding is the last one of its name in a list of bindings. -/
def IsLast (bindings : List Binding) (binding : Binding) : Prop :=
  ∃ before after : List Binding,
    bindings = before ++ binding :: after ∧ binding.name ∉ after.map (·.name)

/-- The value of a name is the one that the last binding of the name has. -/
theorem lookup?_eq_getLast? (bindings : List Binding) (name : Text) :
    lookup? bindings name = ((bindings.filter (·.name == name)).getLast?).map (·.value) := by
  rw [lookup?, ← List.head?_filter, List.filter_reverse, List.head?_reverse]

/-- A value of a name comes from the last binding of the name. -/
theorem isLast_of_lookup? {bindings : List Binding} {name : Text} {value : Value}
    (h : lookup? bindings name = some value) : IsLast bindings ⟨name, value⟩ := by
  obtain ⟨binding, hfind, rfl⟩ := Option.map_eq_some_iff.mp h
  obtain ⟨hname, after, before, hsplit, hafter⟩ := List.find?_eq_some_iff_append.mp hfind
  have hbinding : binding.name = name := by simpa using hname
  subst hbinding
  refine ⟨before.reverse, after.reverse, ?_, ?_⟩
  · rw [← List.reverse_reverse bindings, hsplit]
    simp
  · intro hmem
    obtain ⟨later, hlater, hsame⟩ := List.mem_map.mp hmem
    have hne := hafter later (List.mem_reverse.mp hlater)
    simp [hsame] at hne

/-- A name without a value is the name of no binding. -/
theorem lookup?_eq_none_iff {bindings : List Binding} {name : Text} :
    lookup? bindings name = none ↔ name ∉ bindings.map (·.name) := by
  rw [lookup?, Option.map_eq_none_iff, List.find?_eq_none]
  simp

/-! ## Numberings -/

/-- Whether a list of bindings is what the placeholders of a list of segments are numbered by: the first
has the number 1, the next the number 2, and so on. -/
structure IsNumbering (bindings : List Binding) (parts : List Segment) (numbered : List Binding) :
    Prop where
  /-- No name has two numbers. -/
  nodup : (numbered.map (·.name)).Nodup
  /-- The names with a number are the placeholders that have a binding. -/
  mem_iff : ∀ name, name ∈ numbered.map (·.name)
    ↔ .placeholder name ∈ parts ∧ name ∈ bindings.map (·.name)
  /-- The smaller of two numbers belongs to the name that appears first. -/
  ordered : (numbered.map (·.name)).Pairwise fun earlier later =>
    parts.idxOf (.placeholder earlier) < parts.idxOf (.placeholder later)
  /-- Every value is that of the last binding of its name. -/
  last : ∀ binding ∈ numbered, IsLast bindings binding

/-- The text of a segment under a numbering: the number of a name stands in the place of the name. -/
def Segment.positionalText (numbered : List Binding) : Segment → Text
  | placeholder name => match numbered.findIdx? (·.name == name) with
    | some position => positional position
    | none => name
  | quoted text => text
  | other c => [c]

/-- A segment that is no placeholder is written as it is. -/
theorem Segment.positionalText_of_kept (numbered : List Binding) {segment : Segment}
    (h : segment.isPlaceholder = false) : segment.positionalText numbered = segment.text := by
  cases segment with
  | placeholder name => cases h
  | quoted text => rfl
  | other c => rfl

/-- A name without a number is written as it is. -/
theorem Segment.positionalText_of_unnumbered {numbered : List Binding} {name : Text}
    (h : name ∉ numbered.map (·.name)) : (placeholder name).positionalText numbered = name := by
  rw [positionalText, findIdx?_name_eq_none_iff.mpr h]

/-- A further number changes the text of the placeholders of its name only. -/
theorem Segment.positionalText_snoc (numbered : List Binding) {binding : Binding} {segment : Segment}
    (h : segment ≠ .placeholder binding.name) :
    segment.positionalText (numbered ++ [binding]) = segment.positionalText numbered := by
  cases segment with
  | quoted text => rfl
  | other c => rfl
  | placeholder name =>
    have hname : (binding.name == name) = false := by
      rw [beq_eq_false_iff_ne]
      rintro rfl
      exact h rfl
    have hsingle : [binding].findIdx? (·.name == name) = none := by simp [hname]
    simp only [positionalText, List.findIdx?_append, hsingle, Option.map_none, Option.or_none]

namespace IsNumbering

variable {bindings numbered : List Binding} {seen : List Segment}

/-- Nothing has a number before the first segment. -/
theorem nil (bindings : List Binding) : IsNumbering bindings [] [] where
  nodup := List.nodup_nil
  mem_iff := by simp
  ordered := List.Pairwise.nil
  last := by simp

/-- The names with a number are placeholders of the text. -/
theorem placeholder_mem (h : IsNumbering bindings seen numbered) {name : Text}
    (hname : name ∈ numbered.map (·.name)) : .placeholder name ∈ seen :=
  ((h.mem_iff name).mp hname).1

/-- A name that has a value and no number yet is no placeholder so far. -/
theorem placeholder_notMem (h : IsNumbering bindings seen numbered) {name : Text}
    (hbound : name ∈ bindings.map (·.name)) (hnew : name ∉ numbered.map (·.name)) :
    .placeholder name ∉ seen := by
  intro hseen
  exact hnew ((h.mem_iff name).mpr ⟨hseen, hbound⟩)

/-- The order of the names stays the same behind a further segment. -/
theorem ordered_snoc (h : IsNumbering bindings seen numbered) (segment : Segment) :
    (numbered.map (·.name)).Pairwise fun earlier later =>
      (seen ++ [segment]).idxOf (.placeholder earlier)
        < (seen ++ [segment]).idxOf (.placeholder later) := by
  refine List.Pairwise.imp_of_mem ?_ h.ordered
  intro earlier later hearlier hlater hlt
  rw [List.idxOf_append_of_mem (h.placeholder_mem hearlier),
    List.idxOf_append_of_mem (h.placeholder_mem hlater)]
  exact hlt

/-- A segment that is no placeholder, or one of a name that has no value or a number already, adds no
number. -/
theorem snoc_of_old (h : IsNumbering bindings seen numbered) {segment : Segment}
    (hold : ∀ name, segment = .placeholder name → name ∈ bindings.map (·.name) →
      name ∈ numbered.map (·.name)) :
    IsNumbering bindings (seen ++ [segment]) numbered where
  nodup := h.nodup
  mem_iff := by
    intro name
    constructor
    · intro hname
      obtain ⟨hseen, hbound⟩ := (h.mem_iff name).mp hname
      exact ⟨List.mem_append_left _ hseen, hbound⟩
    · rintro ⟨hmem, hbound⟩
      rcases List.mem_append.mp hmem with hseen | hlast
      · exact (h.mem_iff name).mpr ⟨hseen, hbound⟩
      · exact hold name (List.mem_singleton.mp hlast).symm hbound
  ordered := h.ordered_snoc segment
  last := h.last

/-- The placeholder of a name that has a value and no number yet gives its name the next number. -/
theorem snoc_of_new (h : IsNumbering bindings seen numbered) {name : Text} {value : Value}
    (hvalue : lookup? bindings name = some value) (hnew : name ∉ numbered.map (·.name)) :
    IsNumbering bindings (seen ++ [.placeholder name]) (numbered ++ [⟨name, value⟩]) := by
  have hbound : name ∈ bindings.map (·.name) := mem_map_name_of_lookup? hvalue
  have hseen : .placeholder name ∉ seen := h.placeholder_notMem hbound hnew
  have hnames : (numbered ++ [(⟨name, value⟩ : Binding)]).map (·.name)
      = numbered.map (·.name) ++ [name] := by simp
  constructor
  · rw [hnames]
    exact List.Nodup.append h.nodup (List.nodup_singleton _) (by simpa using hnew)
  · intro other
    rw [hnames, List.mem_append, List.mem_append, h.mem_iff other, List.mem_singleton,
      List.mem_singleton, Segment.placeholder.injEq]
    constructor
    · rintro (⟨hother, hvalue⟩ | rfl)
      · exact ⟨Or.inl hother, hvalue⟩
      · exact ⟨Or.inr rfl, hbound⟩
    · rintro ⟨hother | rfl, hvalue⟩
      · exact Or.inl ⟨hother, hvalue⟩
      · exact Or.inr rfl
  · rw [hnames, List.pairwise_append]
    refine ⟨h.ordered_snoc _, List.pairwise_singleton _ _, ?_⟩
    -- every name with a number appears in `seen`, and the new one behind it
    intro earlier hearlier later hlater
    rw [List.mem_singleton.mp hlater, List.idxOf_append_of_mem (h.placeholder_mem hearlier),
      List.idxOf_append_of_notMem hseen]
    have hlt := List.idxOf_lt_length_of_mem (h.placeholder_mem hearlier)
    omega
  · intro binding hmem
    rcases List.mem_append.mp hmem with hmem | hmem
    · exact h.last binding hmem
    · rw [List.mem_singleton.mp hmem]
      exact isLast_of_lookup? hvalue

/-- **One step of binding.**  Binding a further segment gives the numbering of all segments so far.  It writes
the segment with the number of its name, and the segments in front keep theirs. -/
theorem step (h : IsNumbering bindings seen numbered) (segment : Segment) :
    IsNumbering bindings (seen ++ [segment]) (bindFrom bindings numbered [segment]).2
      ∧ (bindFrom bindings numbered [segment]).1
          = segment.positionalText (bindFrom bindings numbered [segment]).2
      ∧ ∀ earlier ∈ seen, earlier.positionalText (bindFrom bindings numbered [segment]).2
          = earlier.positionalText numbered := by
  cases hkept : segment.isPlaceholder with
  | false =>
    rw [bindFrom_cons_of_kept _ _ hkept]
    refine ⟨h.snoc_of_old ?_, ?_, fun _ _ => rfl⟩
    · rintro name rfl
      cases hkept
    · rw [Segment.positionalText_of_kept _ hkept]
      exact List.append_nil _
  | true =>
    obtain ⟨name, rfl⟩ := Segment.exists_of_isPlaceholder hkept
    cases hvalue : lookup? bindings name with
    | none =>
      have hunbound := lookup?_eq_none_iff.mp hvalue
      have hnone : name ∉ numbered.map (·.name) := by
        intro hmem
        exact hunbound ((h.mem_iff name).mp hmem).2
      rw [bindFrom_cons_of_unknown _ hvalue]
      refine ⟨h.snoc_of_old ?_, ?_, fun _ _ => rfl⟩
      · intro other hother hbound
        cases hother
        exact absurd hbound hunbound
      · show name ++ [] = (Segment.placeholder name).positionalText numbered
        rw [Segment.positionalText_of_unnumbered hnone, List.append_nil]
    | some value =>
      cases hposition : numbered.findIdx? (·.name == name) with
      | some position =>
        rw [bindFrom_cons_of_bound hvalue hposition]
        refine ⟨h.snoc_of_old ?_, ?_, fun _ _ => rfl⟩
        · intro other hother _
          cases hother
          by_contra hnone
          rw [findIdx?_name_eq_none_iff.mpr hnone] at hposition
          cases hposition
        · show positional position ++ [] = (Segment.placeholder name).positionalText numbered
          rw [Segment.positionalText, hposition, List.append_nil]
      | none =>
        have hnew := findIdx?_name_eq_none_iff.mp hposition
        rw [bindFrom_cons_of_new hvalue hposition]
        refine ⟨h.snoc_of_new hvalue hnew, ?_, ?_⟩
        · show positional numbered.length ++ []
            = (Segment.placeholder name).positionalText (numbered ++ [⟨name, value⟩])
          rw [Segment.positionalText, List.findIdx?_append, hposition]
          simp
        · -- the new name is none of the placeholders in front
          have hseen := h.placeholder_notMem (mem_map_name_of_lookup? hvalue) hnew
          intro earlier hearlier
          refine Segment.positionalText_snoc numbered ?_
          rintro rfl
          exact hseen hearlier

end IsNumbering

/-- **The run of binding.**  However far it has come, the bindings that have a position are the numbering of
the segments so far, and these have been written with their numbers. -/
theorem isNumbering_bindFrom (bindings : List Binding) (parts : List Segment) :
    IsNumbering bindings parts (bindFrom bindings [] parts).2
      ∧ (bindFrom bindings [] parts).1
          = parts.flatMap (Segment.positionalText (bindFrom bindings [] parts).2) := by
  -- the induction takes the last segment off, since the numbers depend on what stands in front
  induction parts using List.reverseRecOn with
  | nil => exact ⟨.nil bindings, rfl⟩
  | append_singleton seen segment ih =>
    obtain ⟨hnumbered, htext⟩ := ih
    obtain ⟨hnext, hwritten, hkept⟩ := hnumbered.step segment
    rw [bindFrom_append]
    refine ⟨hnext, ?_⟩
    dsimp only
    rw [List.flatMap_append, List.flatMap_singleton, List.flatMap_congr hkept, ← htext, ← hwritten]

/-- Binding writes the numbering of the segments, and gives its values. -/
theorem exists_isNumbering (sql : Text) (bindings : List Binding) :
    ∃ numbered, IsNumbering bindings (segments sql) numbered
      ∧ toPositional sql bindings
        = ⟨(segments sql).flatMap (Segment.positionalText numbered), numbered.map (·.value)⟩ := by
  obtain ⟨hnumbered, htext⟩ := isNumbering_bindFrom bindings (segments sql)
  refine ⟨_, hnumbered, ?_⟩
  rw [toPositional, ← htext]

/-! ## What does not matter -/

/-- Binding depends on the values of the placeholders only. -/
theorem bindFrom_congr {bindings others : List Binding} (bound : List Binding) {parts : List Segment}
    (h : ∀ name, .placeholder name ∈ parts → lookup? others name = lookup? bindings name) :
    bindFrom others bound parts = bindFrom bindings bound parts := by
  induction parts generalizing bound with
  | nil => rfl
  | cons segment rest ih =>
    have hrest := fun bound => ih bound fun name hname => h name (List.mem_cons_of_mem _ hname)
    cases hkept : segment.isPlaceholder with
    | false => rw [bindFrom_cons_of_kept _ _ hkept, bindFrom_cons_of_kept _ _ hkept, hrest]
    | true =>
      obtain ⟨name, rfl⟩ := Segment.exists_of_isPlaceholder hkept
      have hsame := h name List.mem_cons_self
      cases hvalue : lookup? bindings name with
      | none =>
        rw [hvalue] at hsame
        rw [bindFrom_cons_of_unknown _ hvalue, bindFrom_cons_of_unknown _ hsame, hrest]
      | some value =>
        rw [hvalue] at hsame
        cases hposition : bound.findIdx? (·.name == name) with
        | some position =>
          rw [bindFrom_cons_of_bound hvalue hposition, bindFrom_cons_of_bound hsame hposition,
            hrest]
        | none =>
          rw [bindFrom_cons_of_new hvalue hposition, bindFrom_cons_of_new hsame hposition, hrest]

/-- Bindings that give every placeholder of a text the same value bind it alike. -/
theorem toPositional_congr {sql : Text} {bindings others : List Binding}
    (h : ∀ name, .placeholder name ∈ segments sql → lookup? others name = lookup? bindings name) :
    toPositional sql others = toPositional sql bindings := by
  rw [toPositional, toPositional, bindFrom_congr [] h]

/-- A binding that is no placeholder of the text may be left out. -/
theorem toPositional_filter {sql : Text} {bindings : List Binding} {keep : Binding → Bool}
    (h : ∀ binding ∈ bindings, .placeholder binding.name ∈ segments sql → keep binding = true) :
    toPositional sql (bindings.filter keep) = toPositional sql bindings := by
  refine toPositional_congr ?_
  intro name hname
  have hsame : (bindings.filter keep).filter (·.name == name) = bindings.filter (·.name == name) := by
    rw [List.filter_filter]
    refine List.filter_congr ?_
    intro binding hmem
    by_cases hbinding : binding.name = name
    · subst hbinding
      rw [h binding hmem hname, Bool.and_true]
    · simp [hbinding]
  rw [lookup?_eq_getLast?, lookup?_eq_getLast?, hsame]

/-- Bindings may be moved past others that have another name. -/
theorem toPositional_reorder (sql : Text) {bindings others : List Binding}
    (h : ∀ name, others.filter (·.name == name) = bindings.filter (·.name == name)) :
    toPositional sql others = toPositional sql bindings := by
  refine toPositional_congr ?_
  intro name _
  rw [lookup?_eq_getLast?, lookup?_eq_getLast?, h name]

/-- Under distinct names, the order of the bindings does not matter. -/
theorem toPositional_perm (sql : Text) {bindings others : List Binding} (h : others.Perm bindings)
    (hnodup : (bindings.map (·.name)).Nodup) :
    toPositional sql others = toPositional sql bindings := by
  refine toPositional_congr ?_
  intro name _
  cases hvalue : lookup? others name with
  | none =>
    have hunbound := lookup?_eq_none_iff.mp hvalue
    rw [(h.map _).mem_iff] at hunbound
    exact (lookup?_eq_none_iff.mpr hunbound).symm
  | some value =>
    -- the binding that is found among the others is one of the bindings, and the only one of its name
    obtain ⟨before, after, hothers, -⟩ := isLast_of_lookup? hvalue
    have hmem : ⟨name, value⟩ ∈ bindings := by
      rw [← h.mem_iff, hothers]
      simp
    exact (lookup?_of_mem hnodup hmem).symm

/-! ## Binding a second time -/

namespace Segment

/-- A complete segment has at least one character. -/
theorem EndsBefore.text_ne_nil {segment : Segment} {after : Text} (h : segment.EndsBefore after) :
    segment.text ≠ [] := by
  cases segment with
  | quoted run =>
    obtain ⟨opening, close, content, -, ⟨rfl, -⟩ | ⟨rfl, -⟩⟩ := h
    all_goals exact List.cons_ne_nil _ _
  | placeholder name =>
    obtain ⟨c, run, rfl, -⟩ := h
    exact List.cons_ne_nil c run
  | other c => exact List.cons_ne_nil c []

/-- A complete segment stays complete if the text behind it starts with a question mark in the place of
another character, since that closes nothing and is in no name. -/
theorem EndsBefore.congr {segment : Segment} {after behind : Text} (h : segment.EndsBefore after)
    (hhead : behind.head? = after.head? ∨ behind.head? = some '?' ∧ after ≠ []) :
    segment.EndsBefore behind := by
  cases segment with
  | quoted run =>
    obtain ⟨opening, close, content, hclose, hrun⟩ := h
    have hclosing : '?' ≠ close := by
      rintro rfl
      have hquote := head?_ne_of_startsClosing hclose (Text.startsClosing_cons '?' [])
      exact hquote rfl
    refine ⟨opening, close, content, hclose, ?_⟩
    rcases hrun with ⟨hrun, hafter⟩ | ⟨hrun, rfl⟩
    · refine Or.inl ⟨hrun, ?_⟩
      rcases hhead with hhead | ⟨hhead, -⟩
      · rwa [hhead]
      · rw [hhead]
        simpa using hclosing
    · rcases hhead with hhead | ⟨-, hne⟩
      · exact Or.inr ⟨hrun, List.head?_eq_none_iff.mp hhead⟩
      · exact absurd rfl hne
  | placeholder name =>
    obtain ⟨c, run, hname, hc, hne, hrun, hafter⟩ := h
    refine ⟨c, run, hname, hc, hne, hrun, ?_⟩
    rcases hhead with hhead | ⟨hhead, -⟩
    · rwa [hhead]
    · rw [hhead]
      decide
  | other c =>
    obtain ⟨hclose, hname⟩ := h
    refine ⟨hclose, ?_⟩
    rcases hhead with hhead | ⟨hhead, -⟩
    · rwa [hhead]
    · rw [hhead]
      rintro ⟨-, hmark⟩
      exact absurd hmark (by decide)

/-- The segments that a segment turns into when numbers are written in the place of names. -/
def rewritten (numbered : List Binding) : Segment → List Segment
  | placeholder name => match numbered.findIdx? (·.name == name) with
    | some position => (positional position).map other
    | none => [placeholder name]
  | quoted text => [quoted text]
  | other c => [other c]

/-- The characters of a text, each a segment of its own, are the text. -/
theorem flatMap_text_map_other (chars : Text) : (chars.map other).flatMap text = chars := by
  induction chars with
  | nil => rfl
  | cons c rest ih =>
    rw [List.map_cons, List.flatMap_cons, ih]
    rfl

/-- The text of what a segment turns into. -/
theorem flatMap_text_rewritten (numbered : List Binding) (segment : Segment) :
    (segment.rewritten numbered).flatMap text = segment.positionalText numbered := by
  cases segment with
  | quoted run => exact List.flatMap_singleton text _
  | other c => exact List.flatMap_singleton text _
  | placeholder name =>
    cases hposition : numbered.findIdx? (·.name == name) with
    | none =>
      simp only [rewritten, positionalText, hposition]
      exact List.flatMap_singleton text _
    | some position =>
      simp only [rewritten, positionalText, hposition]
      exact flatMap_text_map_other _

/-- Plain characters in front of a split make a split. -/
theorem isSplit_map_other_append {chars : Text} {rest : List Segment}
    (hchars : ∀ c ∈ chars, isPlain c = true) (hrest : IsSplit rest) :
    IsSplit (chars.map other ++ rest) := by
  induction chars with
  | nil => exact hrest
  | cons c tail ih =>
    rw [List.forall_mem_cons] at hchars
    obtain ⟨hplain, htail⟩ := hchars
    simp only [isPlain, Bool.and_eq_true, Option.isNone_iff_eq_none, Bool.not_eq_true'] at hplain
    refine ⟨⟨hplain.1, ?_⟩, ih htail⟩
    rintro ⟨hintroducer, -⟩
    rw [hplain.2] at hintroducer
    cases hintroducer

/-- Numbers are written with plain characters. -/
theorem isPlain_of_mem_positional {c : Char} {position : Nat} (h : c ∈ positional position) :
    isPlain c = true := by
  rcases List.mem_cons.mp h with rfl | hdigit
  · decide
  · exact isPlain_of_isBareChar (isBareChar_of_isDigit (Text.isDigit_of_mem_ofNat hdigit))

/-- Numbers in the place of names change the first character of a split to a question mark, if at all. -/
theorem head?_flatMap_positionalText (numbered : List Binding) {parts : List Segment}
    (h : IsSplit parts) :
    (parts.flatMap (positionalText numbered)).head? = (parts.flatMap text).head?
      ∨ (parts.flatMap (positionalText numbered)).head? = some '?' ∧ parts.flatMap text ≠ [] := by
  cases parts with
  | nil => exact Or.inl rfl
  | cons segment rest =>
    have hne := h.1.text_ne_nil
    have hkept : ∀ behind : Text, (segment.text ++ behind).head? = segment.text.head? := by
      intro behind
      exact List.head?_append_of_ne_nil _ hne
    have hsame : segment.positionalText numbered = segment.text →
        ((segment :: rest).flatMap (positionalText numbered)).head?
          = ((segment :: rest).flatMap text).head? := by
      intro hsegment
      rw [List.flatMap_cons, List.flatMap_cons, hsegment, hkept, hkept]
    cases segment with
    | quoted run => exact Or.inl (hsame rfl)
    | other c => exact Or.inl (hsame rfl)
    | placeholder name =>
      cases hposition : numbered.findIdx? (·.name == name) with
      | none =>
        refine Or.inl (hsame ?_)
        exact positionalText_of_unnumbered (findIdx?_name_eq_none_iff.mp hposition)
      | some position =>
        refine Or.inr ⟨?_, List.append_ne_nil_of_left_ne_nil hne _⟩
        rw [List.flatMap_cons, positionalText, hposition]
        rfl

/-- What a split turns into is a split. -/
theorem isSplit_flatMap_rewritten (numbered : List Binding) {parts : List Segment}
    (h : IsSplit parts) : IsSplit (parts.flatMap (rewritten numbered)) := by
  induction parts with
  | nil => exact h
  | cons segment rest ih =>
    obtain ⟨hsegment, hrest⟩ := h
    have htext : (rest.flatMap (rewritten numbered)).flatMap text
        = rest.flatMap (positionalText numbered) := by
      rw [List.flatMap_assoc]
      exact List.flatMap_congr fun segment _ => flatMap_text_rewritten numbered segment
    -- a segment that is kept is as complete as it was in front of the old text
    have hkept : IsSplit (segment :: rest.flatMap (rewritten numbered)) := by
      refine ⟨hsegment.congr ?_, ih hrest⟩
      rw [htext]
      exact head?_flatMap_positionalText numbered hrest
    rw [List.flatMap_cons]
    cases segment with
    | quoted run => exact hkept
    | other c => exact hkept
    | placeholder name =>
      cases hposition : numbered.findIdx? (·.name == name) with
      | none =>
        rw [rewritten, hposition]
        exact hkept
      | some position =>
        rw [rewritten, hposition]
        exact isSplit_map_other_append (fun _ => isPlain_of_mem_positional) (ih hrest)

/-- Only names without a number are left among the placeholders. -/
theorem placeholder_mem_flatMap_rewritten {numbered : List Binding} {parts : List Segment}
    {name : Text} (h : .placeholder name ∈ parts.flatMap (rewritten numbered)) :
    .placeholder name ∈ parts ∧ name ∉ numbered.map (·.name) := by
  obtain ⟨segment, hmem, hname⟩ := List.mem_flatMap.mp h
  cases segment with
  | quoted run => cases List.mem_singleton.mp hname
  | other c => cases List.mem_singleton.mp hname
  | placeholder other =>
    cases hposition : numbered.findIdx? (·.name == other) with
    | none =>
      rw [rewritten, hposition] at hname
      cases List.mem_singleton.mp hname
      exact ⟨hmem, findIdx?_name_eq_none_iff.mp hposition⟩
    | some position =>
      rw [rewritten, hposition] at hname
      obtain ⟨c, -, hc⟩ := List.mem_map.mp hname
      cases hc

/-- Without numbers, every segment is written as it is. -/
theorem positionalText_nil (segment : Segment) : segment.positionalText [] = segment.text := by
  cases segment with
  | quoted run => rfl
  | placeholder name => rfl
  | other c => rfl

end Segment

/-- Binding a text a second time changes nothing, and finds no value to bind. -/
theorem toPositional_toPositional (sql : Text) (bindings : List Binding) :
    toPositional (toPositional sql bindings).sql bindings
      = ⟨(toPositional sql bindings).sql, []⟩ := by
  obtain ⟨numbered, hnumbered, hfirst⟩ := exists_isNumbering sql bindings
  have hsegments : segments (toPositional sql bindings).sql
      = (segments sql).flatMap (Segment.rewritten numbered) := by
    have hsplit := Segment.isSplit_flatMap_rewritten numbered (Segment.isSplit_segments sql)
    have htext : ((segments sql).flatMap (Segment.rewritten numbered)).flatMap Segment.text
        = (toPositional sql bindings).sql := by
      rw [hfirst, List.flatMap_assoc]
      exact List.flatMap_congr fun segment _ => Segment.flatMap_text_rewritten numbered segment
    rw [← htext, Segment.segments_flatMap_text hsplit]
  obtain ⟨again, hagain, hsecond⟩ := exists_isNumbering (toPositional sql bindings).sql bindings
  -- a name that got a number the second time has a value, and would have got one the first time
  have hnone : again = [] := by
    rw [List.eq_nil_iff_forall_not_mem]
    intro binding hmem
    obtain ⟨hplace, hbound⟩ := (hagain.mem_iff binding.name).mp (List.mem_map_of_mem hmem)
    rw [hsegments] at hplace
    obtain ⟨hplace, hnew⟩ := Segment.placeholder_mem_flatMap_rewritten hplace
    exact hnew ((hnumbered.mem_iff binding.name).mpr ⟨hplace, hbound⟩)
  have hkept : (segments (toPositional sql bindings).sql).flatMap (Segment.positionalText [])
      = (toPositional sql bindings).sql := by
    rw [List.flatMap_congr fun segment _ => Segment.positionalText_nil segment,
      flatMap_text_segments]
  rw [hsecond, hnone, hkept]
  rfl

/-! ## The law of binding -/

/-- **The law of binding.**  A text has exactly one split into quoted runs, placeholders and other
characters.  The names of its placeholders that have a binding are numbered in order of first appearance;
the text comes back with the numbers in the place of these names and is otherwise the same, and the values
are those of the last bindings of the names.  Bindings that do not appear may be left out, bindings of
different names may be moved past each other, and distinct names bind in every order alike.  Binding a
second time changes nothing. -/
theorem toPositional_law (sql : Text) (bindings : List Binding) :
    ∃ (parts : List Segment) (numbered : List Binding),
      (∀ split : List Segment, split.flatMap Segment.text = sql ∧ Segment.IsSplit split
        ↔ split = parts)
      ∧ IsNumbering bindings parts numbered
      ∧ toPositional sql bindings
        = ⟨parts.flatMap (Segment.positionalText numbered), numbered.map (·.value)⟩
      ∧ (∀ keep : Binding → Bool,
        (∀ binding ∈ bindings, .placeholder binding.name ∈ parts → keep binding = true) →
          toPositional sql (bindings.filter keep) = toPositional sql bindings)
      ∧ (∀ others : List Binding,
        (∀ name, others.filter (·.name == name) = bindings.filter (·.name == name)) →
          toPositional sql others = toPositional sql bindings)
      ∧ (∀ others : List Binding, others.Perm bindings → (bindings.map (·.name)).Nodup →
        toPositional sql others = toPositional sql bindings)
      ∧ toPositional (toPositional sql bindings).sql bindings
        = ⟨(toPositional sql bindings).sql, []⟩ := by
  obtain ⟨numbered, hnumbered, htext⟩ := exists_isNumbering sql bindings
  refine ⟨segments sql, numbered, ?_, hnumbered, htext, ?_, ?_, ?_, ?_⟩
  · exact fun split => Segment.isSplit_iff
  · exact fun keep hkeep => toPositional_filter hkeep
  · exact fun others hothers => toPositional_reorder sql hothers
  · exact fun others hperm hnodup => toPositional_perm sql hperm hnodup
  · exact toPositional_toPositional sql bindings

example :
    toPositional "@b, '@a', @a, @a1, @@b".toList
        [⟨"@a".toList, .int 1⟩, ⟨"@b".toList, .int 2⟩, ⟨"@a".toList, .int 3⟩]
      = ⟨"?1, '@a', ?2, @a1, @?1".toList, [.int 2, .int 3]⟩ := by
  decide +kernel

end BulkDml
