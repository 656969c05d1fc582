import BulkDml.Placeholder
import Mathlib.Data.List.Nodup
import Mathlib.Data.List.TakeWhile

/-! # Binding a text segment by segment

Binding copies every segment but the placeholders that have a value, and numbers those in order of first
appearance.

* `segments_placeholder`, `isNameChar_of_placeholder_mem` — what is cut off a text as a placeholder;
* `bindFrom_append` — binding goes through a text from left to right;
* `bound_bindFrom` — the names that get a position are distinct, known, and placeholders of the text;
* `lookup?_of_mem` — under distinct names, every binding is found.
-/

namespace BulkDml

/-! ## Placeholders in a text -/

/-- A placeholder is cut off a text that does not prolong its name. -/
theorem segments_placeholder {c : Char} {name rest : Text} (hc : isIntroducer c = true)
    (hne : name ≠ []) (hname : ∀ d ∈ name, isNameChar d = true)
    (hrest : rest.head?.all (!isNameChar ·) = true) :
    segments (c :: name ++ rest) = .placeholder (c :: name) :: segments rest := by
  have hclose : closingQuote? c = none := by
    unfold closingQuote?
    split
    all_goals first
      | rfl
      | exact absurd hc (by decide)
  have hhead : (name ++ rest).head?.any isNameChar = true := by
    obtain ⟨d, tail, rfl⟩ := List.exists_cons_of_ne_nil hne
    exact hname d List.mem_cons_self
  have hrun := Text.takeWhile_dropWhile_run hname hrest
  rw [List.cons_append, segments_cons, Segment.next, hclose]
  simp only [hc, hhead, Bool.and_self, if_true]
  rw [hrun.1, hrun.2]

/-- Only name characters stand behind the character that introduces a placeholder. -/
theorem isNameChar_of_placeholder_mem {c d : Char} {name text : Text}
    (h : .placeholder (c :: name) ∈ segments text) (hd : d ∈ name) : isNameChar d = true := by
  fun_induction segments text with
  | case1 => cases h
  | case2 first rest ih =>
    rcases List.mem_cons.mp h with hfirst | hlater
    · -- the first segment: a placeholder is an introducer and a longest run of name characters
      unfold Segment.next at hfirst
      split at hfirst
      · cases hfirst
      · split at hfirst
        · obtain ⟨-, rfl⟩ : c = first ∧ name = rest.takeWhile isNameChar := by simpa using hfirst
          exact List.mem_takeWhile_imp hd
        · cases hfirst
    · exact ih hlater

/-! ## Going through segments -/

/-- Whether a segment is a placeholder. -/
def Segment.isPlaceholder : Segment → Bool
  | placeholder _ => true
  | quoted _ | other _ => false

/-- A placeholder has a name. -/
theorem Segment.exists_of_isPlaceholder {segment : Segment} (h : segment.isPlaceholder = true) :
    ∃ name, segment = .placeholder name := by
  cases segment with
  | placeholder name => exact ⟨name, rfl⟩
  | quoted text => cases h
  | other c => cases h

/-- A segment that is no placeholder is copied. -/
theorem bindFrom_cons_of_kept (bindings bound : List Binding) {segment : Segment}
    (h : segment.isPlaceholder = false) (rest : List Segment) :
    bindFrom bindings bound (segment :: rest)
      = (segment.text ++ (bindFrom bindings bound rest).1, (bindFrom bindings bound rest).2) := by
  cases segment with
  | placeholder name => cases h
  | quoted text => rw [bindFrom]; simp
  | other c => rw [bindFrom]; simp

/-- A name without a value is copied. -/
theorem bindFrom_cons_of_unknown {bindings : List Binding} (bound : List Binding) {name : Text}
    (h : lookup? bindings name = none) (rest : List Segment) :
    bindFrom bindings bound (.placeholder name :: rest)
      = (name ++ (bindFrom bindings bound rest).1, (bindFrom bindings bound rest).2) := by
  rw [bindFrom, h]

/-- A name that has a position already keeps it. -/
theorem bindFrom_cons_of_bound {bindings bound : List Binding} {name : Text} {value : Value}
    {position : Nat} (h : lookup? bindings name = some value)
    (hbound : bound.findIdx? (·.name == name) = some position) (rest : List Segment) :
    bindFrom bindings bound (.placeholder name :: rest)
      = (positional position ++ (bindFrom bindings bound rest).1,
          (bindFrom bindings bound rest).2) := by
  rw [bindFrom, h]
  simp only [hbound]

/-- A name that is met for the first time gets the next position. -/
theorem bindFrom_cons_of_new {bindings bound : List Binding} {name : Text} {value : Value}
    (h : lookup? bindings name = some value)
    (hbound : bound.findIdx? (·.name == name) = none) (rest : List Segment) :
    bindFrom bindings bound (.placeholder name :: rest)
      = (positional bound.length ++ (bindFrom bindings (bound ++ [⟨name, value⟩]) rest).1,
          (bindFrom bindings (bound ++ [⟨name, value⟩]) rest).2) := by
  rw [bindFrom, h]
  simp only [hbound]

/-- Binding goes through a list of segments from left to right. -/
theorem bindFrom_append (bindings bound : List Binding) (first rest : List Segment) :
    bindFrom bindings bound (first ++ rest)
      = ((bindFrom bindings bound first).1
            ++ (bindFrom bindings (bindFrom bindings bound first).2 rest).1,
          (bindFrom bindings (bindFrom bindings bound first).2 rest).2) := by
  induction first generalizing bound with
  | nil => rfl
  | cons segment first ih =>
    -- The cases are those of `bindFrom`; each goes on with the names that have a position by then.
    rw [List.cons_append]
    cases hkept : segment.isPlaceholder with
    | false =>
      simp only [bindFrom_cons_of_kept _ _ hkept, ih, List.append_assoc]
    | true =>
      obtain ⟨name, rfl⟩ := Segment.exists_of_isPlaceholder hkept
      cases hvalue : lookup? bindings name with
      | none => simp only [bindFrom_cons_of_unknown _ hvalue, ih, List.append_assoc]
      | some value =>
        cases hbound : bound.findIdx? (·.name == name) with
        | none => simp only [bindFrom_cons_of_new hvalue hbound, ih, List.append_assoc]
        | some position =>
          simp only [bindFrom_cons_of_bound hvalue hbound, ih, List.append_assoc]

/-- Segments without a placeholder are copied. -/
theorem bindFrom_of_forall_kept (bindings bound : List Binding) {parts : List Segment}
    (h : ∀ segment ∈ parts, segment.isPlaceholder = false) :
    bindFrom bindings bound parts = (parts.flatMap Segment.text, bound) := by
  induction parts with
  | nil => rfl
  | cons segment rest ih =>
    rw [List.forall_mem_cons] at h
    rw [bindFrom_cons_of_kept _ _ h.1, ih h.2]
    rfl

/-! ## The names that get a position -/

/-- A value is known of the names of the bindings only. -/
theorem mem_map_name_of_lookup? {bindings : List Binding} {name : Text} {value : Value}
    (h : lookup? bindings name = some value) : name ∈ bindings.map (·.name) := by
  obtain ⟨binding, hfind, -⟩ := Option.map_eq_some_iff.mp h
  refine List.mem_map.mpr ⟨binding, List.mem_reverse.mp (List.mem_of_find?_eq_some hfind), ?_⟩
  simpa using List.find?_some hfind

/-- A name that has no position is not among those that have one. -/
theorem findIdx?_name_eq_none_iff {bound : List Binding} {name : Text} :
    bound.findIdx? (·.name == name) = none ↔ name ∉ bound.map (·.name) := by
  rw [List.findIdx?_eq_none_iff]
  simp

/-- The names that have a position stay distinct, and each new one is a placeholder of the text that has
a value. -/
theorem bound_bindFrom (bindings : List Binding) {bound : List Binding} (parts : List Segment)
    (h : (bound.map (·.name)).Nodup) :
    ((bindFrom bindings bound parts).2.map (·.name)).Nodup
      ∧ ∀ binding ∈ (bindFrom bindings bound parts).2,
          binding ∈ bound
            ∨ .placeholder binding.name ∈ parts ∧ binding.name ∈ bindings.map (·.name) := by
  induction parts generalizing bound with
  | nil => exact ⟨h, fun binding hmem => Or.inl hmem⟩
  | cons segment rest ih =>
    -- only a name that is met for the first time adds to the names that have a position
    have hkeep : ((bindFrom bindings bound rest).2.map (·.name)).Nodup
        ∧ ∀ binding ∈ (bindFrom bindings bound rest).2,
            binding ∈ bound
              ∨ .placeholder binding.name ∈ segment :: rest
                  ∧ binding.name ∈ bindings.map (·.name) := by
      refine ⟨(ih h).1, ?_⟩
      intro binding hmem
      rcases (ih h).2 binding hmem with hold | ⟨hplace, hname⟩
      · exact Or.inl hold
      · exact Or.inr ⟨List.mem_cons_of_mem _ hplace, hname⟩
    cases hkept : segment.isPlaceholder with
    | false =>
      rw [bindFrom_cons_of_kept _ _ hkept]
      exact hkeep
    | true =>
      obtain ⟨name, rfl⟩ := Segment.exists_of_isPlaceholder hkept
      cases hvalue : lookup? bindings name with
      | none =>
        rw [bindFrom_cons_of_unknown _ hvalue]
        exact hkeep
      | some value =>
        cases hbound : bound.findIdx? (·.name == name) with
        | some position =>
          rw [bindFrom_cons_of_bound hvalue hbound]
          exact hkeep
        | none =>
          rw [bindFrom_cons_of_new hvalue hbound]
          have hnew : name ∉ bound.map (·.name) := findIdx?_name_eq_none_iff.mp hbound
          have hnodup : ((bound ++ [(⟨name, value⟩ : Binding)]).map (·.name)).Nodup := by
            rw [List.map_append]
            exact List.Nodup.append h (List.nodup_singleton _) (by simpa using hnew)
          refine ⟨(ih hnodup).1, ?_⟩
          intro binding hmem
          rcases (ih hnodup).2 binding hmem with hold | ⟨hplace, hname⟩
          · rcases List.mem_append.mp hold with hold | hold
            · exact Or.inl hold
            · -- the new name is this placeholder, and it has a value
              rw [List.mem_singleton.mp hold]
              exact Or.inr ⟨List.mem_cons_self, mem_map_name_of_lookup? hvalue⟩
          · exact Or.inr ⟨List.mem_cons_of_mem _ hplace, hname⟩

/-- Under distinct names, every binding is found by its name. -/
theorem lookup?_of_mem {bindings : List Binding} (hnodup : (bindings.map (·.name)).Nodup)
    {binding : Binding} (h : binding ∈ bindings) :
    lookup? bindings binding.name = some binding.value := by
  have hfind : bindings.reverse.find? (·.name == binding.name) = some binding := by
    cases hfound : bindings.reverse.find? (·.name == binding.name) with
    | none =>
      have hnone := List.find?_eq_none.mp hfound binding (List.mem_reverse.mpr h)
      simp at hnone
    | some other =>
      -- what is found has the same name, and names are distinct
      have hmem : other ∈ bindings := List.mem_reverse.mp (List.mem_of_find?_eq_some hfound)
      have hname : other.name = binding.name := by simpa using List.find?_some hfound
      rw [List.inj_on_of_nodup_map hnodup hmem h hname]
  rw [lookup?, hfind]
  rfl

end BulkDml
