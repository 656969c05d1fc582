import BulkDml.Proofs.PlaceholderNumbering

/-! # Where a text can be cut

The segments of two texts one after the other are those of the first and those of the second, unless a
quoted run or a name goes on over the cut.

* `Text.EndsPlain` — texts behind which the segments start anew;
* `Text.EndsPlain.segments_append` — the segments on both sides of such a cut;
* `ReadsBehind` — a placeholder that is read at a given place of a text;
* `BindsBehind`, `bindsBehind_iff` — a placeholder that is bound to a given value there.
-/

namespace BulkDml

/-! ## Plain ends -/

/-- Whether a text ends outside of quoted runs and names: its last segment, if it has any, is a character
that introduces no name. -/
def Text.EndsPlain (text : Text) : Prop :=
  ∀ segment, (segments text).getLast? = some segment →
    ∃ c, segment = .other c ∧ isIntroducer c = false

namespace Segment

/-- A split behind a split that ends plainly makes a split with it. -/
theorem isSplit_append {parts more : List Segment} (hparts : IsSplit parts)
    (hlast : ∀ segment, parts.getLast? = some segment →
      ∃ c, segment = .other c ∧ isIntroducer c = false)
    (hmore : IsSplit more) : IsSplit (parts ++ more) := by
  induction parts with
  | nil => exact hmore
  | cons segment rest ih =>
    obtain ⟨hsegment, hrest⟩ := hparts
    cases rest with
    | nil =>
      -- the last segment is complete in front of every text
      obtain ⟨c, rfl, hc⟩ := hlast segment rfl
      refine ⟨⟨hsegment.1, ?_⟩, hmore⟩
      rintro ⟨hintroducer, -⟩
      rw [hc] at hintroducer
      cases hintroducer
    | cons second rest =>
      have hne : (second :: rest).flatMap text ≠ [] :=
        List.append_ne_nil_of_left_ne_nil hrest.1.text_ne_nil _
      have hhead : (((second :: rest) ++ more).flatMap text).head?
          = ((second :: rest).flatMap text).head? := by
        rw [List.flatMap_append, List.head?_append_of_ne_nil _ hne]
      refine ⟨hsegment.congr (Or.inl hhead), ih hrest ?_⟩
      intro last h
      exact hlast last (by rw [List.getLast?_cons_cons, h])

end Segment

namespace Text.EndsPlain

/-- Behind a text that ends plainly, the segments start anew. -/
theorem segments_append {before : Text} (h : before.EndsPlain) (rest : Text) :
    segments (before ++ rest) = segments before ++ segments rest := by
  have hsplit := Segment.isSplit_append (Segment.isSplit_segments before) h
    (Segment.isSplit_segments rest)
  have htext : (segments before ++ segments rest).flatMap Segment.text = before ++ rest := by
    rw [List.flatMap_append, flatMap_text_segments, flatMap_text_segments]
  rw [← htext, Segment.segments_flatMap_text hsplit]

/-- The empty text ends plainly. -/
theorem nil : Text.EndsPlain [] := by
  intro segment h
  rw [segments_nil] at h
  cases h

/-- A text ends plainly if its last segment is a character that introduces no name. -/
theorem of_getLast? {text : Text} {c : Char} (h : (segments text).getLast? = some (.other c))
    (hc : isIntroducer c = false) : text.EndsPlain := by
  intro segment hsegment
  exact ⟨c, Option.some_inj.mp (hsegment.symm.trans h), hc⟩

/-- Two texts that end plainly make one that does. -/
theorem append {before rest : Text} (hbefore : before.EndsPlain) (hrest : rest.EndsPlain) :
    Text.EndsPlain (before ++ rest) := by
  intro segment h
  rw [hbefore.segments_append, List.getLast?_append] at h
  cases hlast : (segments rest).getLast? with
  | none =>
    rw [hlast] at h
    exact hbefore segment h
  | some last =>
    rw [hlast] at h
    obtain rfl : last = segment := by simpa using h
    exact hrest last hlast

/-- Plain characters end plainly. -/
theorem of_forall_plain {text : Text} (h : ∀ c ∈ text, isPlain c = true) : text.EndsPlain := by
  induction text with
  | nil => exact nil
  | cons c tail ih =>
    rw [List.forall_mem_cons] at h
    have hsingle : Text.EndsPlain [c] := by
      intro segment hlast
      rw [segments_cons_of_plain h.1, segments_nil, List.getLast?_singleton] at hlast
      refine ⟨c, (Option.some_inj.mp hlast).symm, ?_⟩
      have hplain := h.1
      simp only [isPlain, Bool.and_eq_true, Bool.not_eq_true'] at hplain
      exact hplain.2
    exact hsingle.append (ih h.2)

/-- Plain characters behind a text end plainly with it, if the segments start anew in front of them. -/
theorem of_segments_append {text tail : Text} (htail : ∀ c ∈ tail, isPlain c = true) (hne : tail ≠ [])
    (h : segments (text ++ tail) = segments text ++ segments tail) :
    Text.EndsPlain (text ++ tail) := by
  intro segment hlast
  have hsegments : segments tail ≠ [] := by
    obtain ⟨c, rest, rfl⟩ := List.exists_cons_of_ne_nil hne
    rw [segments_cons]
    exact List.cons_ne_nil _ _
  rw [h, List.getLast?_append_of_ne_nil _ hsegments] at hlast
  exact of_forall_plain htail segment hlast

end Text.EndsPlain

/-! ## Placeholders at their place -/

/-- Whether a placeholder is read in a text behind the given part of it. -/
def ReadsBehind (sql before name : Text) : Prop :=
  ∃ front back : List Segment,
    segments sql = front ++ .placeholder name :: back ∧ front.flatMap Segment.text = before

/-- Whether binding a text puts a number in the place of the placeholder behind the given part of it, and
the value with this number is the given one. -/
def BindsBehind (sql : Text) (bindings : List Binding) (before name : Text) (value : Value) : Prop :=
  ∃ (front back : List Segment) (numbered : List Binding) (position : Nat),
    segments sql = front ++ .placeholder name :: back
      ∧ front.flatMap Segment.text = before
      ∧ IsNumbering bindings (segments sql) numbered
      ∧ toPositional sql bindings
        = ⟨front.flatMap (Segment.positionalText numbered) ++ (positional position
            ++ back.flatMap (Segment.positionalText numbered)), numbered.map (·.value)⟩
      ∧ numbered[position]? = some ⟨name, value⟩

/-- Behind a text that ends plainly, a placeholder is read where it is read without the text. -/
theorem ReadsBehind.of_endsPlain {before rest name : Text} {front back : List Segment}
    (h : before.EndsPlain) (hplace : segments rest = front ++ .placeholder name :: back) :
    ReadsBehind (before ++ rest) (before ++ front.flatMap Segment.text) name := by
  refine ⟨segments before ++ front, back, ?_, ?_⟩
  · rw [h.segments_append, hplace, List.append_assoc]
  · rw [List.flatMap_append, flatMap_text_segments]

/-- The value of the last binding of a name is the value of the name. -/
theorem IsLast.lookup?_eq {bindings : List Binding} {binding : Binding} (h : IsLast bindings binding) :
    lookup? bindings binding.name = some binding.value := by
  obtain ⟨before, after, rfl, hafter⟩ := h
  have hnone : after.filter (·.name == binding.name) = [] := by
    rw [List.filter_eq_nil_iff]
    intro other hmem
    rw [beq_iff_eq]
    rintro hsame
    exact hafter (List.mem_map.mpr ⟨other, hmem, hsame⟩)
  rw [lookup?_eq_getLast?, List.filter_append, List.filter_cons_of_pos (by simp), hnone]
  simp

/-- A placeholder that is read is bound to the value that its name has, if any. -/
theorem bindsBehind_iff {sql : Text} {bindings : List Binding} {before name : Text} {value : Value} :
    BindsBehind sql bindings before name value
      ↔ ReadsBehind sql before name ∧ lookup? bindings name = some value := by
  constructor
  · rintro ⟨front, back, numbered, position, hsegments, hbefore, hnumbered, -, hentry⟩
    refine ⟨⟨front, back, hsegments, hbefore⟩, ?_⟩
    exact (hnumbered.last _ (List.mem_of_getElem? hentry)).lookup?_eq
  · rintro ⟨⟨front, back, hsegments, hbefore⟩, hvalue⟩
    obtain ⟨numbered, hnumbered, hpositional⟩ := exists_isNumbering sql bindings
    have hmem : name ∈ numbered.map (·.name) := by
      rw [hnumbered.mem_iff, hsegments]
      exact ⟨by simp, mem_map_name_of_lookup? hvalue⟩
    -- the name has a number, and the entry with this number is the binding that counts
    cases hposition : numbered.findIdx? (·.name == name) with
    | none => exact absurd hmem (findIdx?_name_eq_none_iff.mp hposition)
    | some position =>
      obtain ⟨hlt, hname, -⟩ := List.findIdx?_eq_some_iff_getElem.mp hposition
      have hentry : numbered[position].name = name := by simpa using hname
      have hlast := (hnumbered.last _ (List.getElem_mem hlt)).lookup?_eq
      rw [hentry, hvalue] at hlast
      refine ⟨front, back, numbered, position, hsegments, hbefore, hnumbered, ?_, ?_⟩
      · rw [hpositional, hsegments, List.flatMap_append, List.flatMap_cons,
          Segment.positionalText, hposition]
      · rw [List.getElem?_eq_getElem hlt, ← hentry, Option.some_inj.mp hlast]

end BulkDml
