import BulkDml.Proofs.RenamedStatement
import Mathlib.Data.List.SplitBy

/-! # Renaming whole names

A text falls into longest runs of name characters and of other characters.  A table whose name consists of name
characters stands by itself exactly where it is such a run, so that renaming it exchanges runs: nothing inside
of a longer name is touched, no run is missed, and what is put in is not looked at again.

* `nameRuns` — the runs of a text;
* `renameTable_append` — texts whose names do not run into each other are renamed apart;
* `renameTable_eq_renameRuns` — renaming exchanges the runs that are the old name;
* `nameRuns_renameRuns` — the runs of the renamed text are those of the text, with this exchange;
* `mentionsTable_eq_true_iff_mem_nameRuns` — the name stands by itself in the texts that have it as a run;
* `renameTable_plainName_law` — renaming, renaming to the same name, and renaming back.
-/

namespace BulkDml

/-- The longest runs of a text, each of name characters only or of other characters only. -/
def nameRuns (text : Text) : List Text := text.splitBy fun c d => isNameChar c == isNameChar d

/-- Whether a name consists of name characters. -/
def Text.IsPlainName (name : Text) : Prop := name ≠ [] ∧ ∀ c ∈ name, isNameChar c = true

instance (name : Text) : Decidable name.IsPlainName :=
  decidable_of_iff (name ≠ [] ∧ name.all isNameChar = true) (and_congr_right fun _ => List.all_eq_true)

/-- The new name in the place of the old one, and any other run itself. -/
def renameRun (old new run : Text) : Text := if run = old then new else run

/-- The text with every run that is the old name exchanged for the new one. -/
def renameRuns (old new text : Text) : Text := ((nameRuns text).map (renameRun old new)).flatten

/-- Whether no name runs on from one text to the other. -/
def IsJoint (left right : Text) : Prop :=
  left.getLast?.any isNameChar = false ∨ right.head?.any isNameChar = false

/-! ## Runs are renamed apart -/

/-- A run has characters of one kind. -/
theorem isNameChar_of_mem_nameRuns {text run : Text} (h : run ∈ nameRuns text) :
    (∀ c ∈ run, isNameChar c = true) ∨ ∀ c ∈ run, isNameChar c = false := by
  have hchain := List.isChain_of_mem_splitBy h
  clear h
  induction run with
  | nil => exact .inl (by simp)
  | cons first rest ih =>
    simp only [List.forall_mem_cons]
    cases rest with
    | nil => cases isNameChar first <;> simp
    | cons second more =>
      -- the first character is of the kind of the second one
      obtain ⟨hsame, hrest⟩ := List.isChain_cons_cons.mp hchain
      rw [beq_iff_eq] at hsame
      rcases ih hrest with hall | hall
      · exact .inl ⟨hsame.trans (hall second List.mem_cons_self), hall⟩
      · exact .inr ⟨hsame.trans (hall second List.mem_cons_self), hall⟩

/-- Neighbouring runs are joints. -/
theorem isChain_isJoint_nameRuns (text : Text) : (nameRuns text).IsChain IsJoint := by
  refine (List.isChain_getLast_head_splitBy _ text).imp ?_
  rintro left right ⟨hleft, hright, hkinds⟩
  rw [IsJoint, List.getLast?_eq_some_getLast hleft, List.head?_eq_some_head hright]
  revert hkinds
  simp only [Option.any_some]
  cases isNameChar (left.getLast hleft) <;> cases isNameChar (right.head hright) <;> simp

section

variable {old : Text} (hold : old.IsPlainName)

include hold

/-- A character that is no name character is not in the name. -/
theorem notMem_of_isPlainName {mark : Char} (hmark : isNameChar mark = false) : mark ∉ old := by
  intro hmem
  rw [hold.2 mark hmem] at hmark
  cases hmark

/-- Texts whose names do not run into each other are renamed apart. -/
theorem renameTable_append (new : Text) {left right : Text} (h : IsJoint left right) :
    renameTable old new (left ++ right) = renameTable old new left ++ renameTable old new right := by
  simp only [renameTable_eq_fillPlaces]
  rw [tablePlaces_append (fun _ hc => hc) hold.2 h, fillPlaces_append]

/-- Runs are renamed one by one. -/
theorem renameTable_flatten (new : Text) {runs : List Text} (hne : [] ∉ runs)
    (h : runs.IsChain IsJoint) :
    renameTable old new runs.flatten = (runs.map (renameTable old new)).flatten := by
  induction runs with
  | nil => exact renameAfter_nil old new none
  | cons run rest ih =>
    rw [List.mem_cons, not_or] at hne
    have hjoint : IsJoint run rest.flatten := by
      cases rest with
      | nil => exact .inr rfl
      | cons second more =>
        have hsecond : second ≠ [] := fun hnil => hne.2 (hnil ▸ List.mem_cons_self)
        rw [IsJoint, List.flatten_cons, List.head?_append_of_ne_nil _ hsecond]
        exact (List.isChain_cons_cons.mp h).1
    rw [List.flatten_cons, renameTable_append hold new hjoint, ih hne.2 h.tail, List.map_cons,
      List.flatten_cons]

/-- A text without name characters holds no place of a plain name. -/
theorem tablePlaces_of_no_nameChar {run : Text} (h : ∀ c ∈ run, isNameChar c = false) :
    tablePlaces old run = run.map some := by
  induction run with
  | nil => rw [tablePlaces, placesAfter]; rfl
  | cons mark rest ih =>
    rw [List.forall_mem_cons] at h
    have hcut := tablePlaces_append_cons (notMem_of_isPlainName hold h.1) h.1 [] rest
    rw [List.nil_append, ih h.2] at hcut
    rw [hcut, tablePlaces, placesAfter]
    rfl

/-- A run is renamed if it is the name, and kept otherwise. -/
theorem renameTable_run (new : Text) {run : Text}
    (h : (∀ c ∈ run, isNameChar c = true) ∨ ∀ c ∈ run, isNameChar c = false) :
    renameTable old new run = renameRun old new run := by
  rw [renameTable_eq_fillPlaces, renameRun]
  split
  · next hrun =>
    rw [hrun, tablePlaces, placesAfter_self hold.1 rfl]
    simp
  · next hrun =>
    rcases h with hname | hother
    · rw [tablePlaces_word (Ne.symm hrun) hname, fillPlaces_map_some]
    · rw [tablePlaces_of_no_nameChar hold hother, fillPlaces_map_some]

/-- **Renaming exchanges the runs that are the old name**, and nothing else. -/
theorem renameTable_eq_renameRuns (new text : Text) :
    renameTable old new text = renameRuns old new text := by
  have hruns : (nameRuns text).map (renameTable old new) = (nameRuns text).map (renameRun old new) :=
    List.map_congr_left fun run hrun => renameTable_run hold new (isNameChar_of_mem_nameRuns hrun)
  have hflatten := renameTable_flatten hold new (List.nil_notMem_splitBy _ text)
    (isChain_isJoint_nameRuns text)
  rwa [List.flatten_splitBy, ← nameRuns, hruns] at hflatten

/-- A text in which the old name is no run stays as it is. -/
theorem renameTable_of_notMem_nameRuns {text : Text} (h : old ∉ nameRuns text) (new : Text) :
    renameTable old new text = text := by
  have hkept : (nameRuns text).map (renameRun old new) = nameRuns text := by
    refine (List.map_congr_left ?_).trans (List.map_id _)
    intro run hrun
    exact if_neg (ne_of_mem_of_not_mem hrun h)
  rw [renameTable_eq_renameRuns hold, renameRuns, hkept, nameRuns, List.flatten_splitBy]

end

/-! ## Renaming back -/

section

variable {old new : Text} (hold : old.IsPlainName) (hnew : new.IsPlainName)

include hold hnew

/-- Exchanging names keeps the kind of the characters at both ends of a run. -/
theorem isNameChar_ends_renameRun {run : Text} (h : run ≠ []) :
    ∃ h' : renameRun old new run ≠ [],
      isNameChar ((renameRun old new run).getLast h') = isNameChar (run.getLast h)
        ∧ isNameChar ((renameRun old new run).head h') = isNameChar (run.head h) := by
  unfold renameRun
  split
  · next hrun =>
    subst hrun
    refine ⟨hnew.1, ?_, ?_⟩
    · rw [hnew.2 _ (List.getLast_mem _), hold.2 _ (List.getLast_mem _)]
    · rw [hnew.2 _ (List.head_mem _), hold.2 _ (List.head_mem _)]
  · exact ⟨h, rfl, rfl⟩

/-- **The runs of a renamed text** are those of the text, with the old name exchanged for the new one. -/
theorem nameRuns_renameRuns (text : Text) :
    nameRuns (renameRuns old new text) = (nameRuns text).map (renameRun old new) := by
  have hruns : ∀ run ∈ nameRuns text, run ≠ [] := fun run hrun => List.ne_nil_of_mem_splitBy hrun
  refine List.splitBy_eq_iff.mpr ⟨rfl, ?_, ?_, ?_⟩
  · intro hmem
    obtain ⟨run, hrun, hnil⟩ := List.mem_map.mp hmem
    exact (isNameChar_ends_renameRun hold hnew (hruns run hrun)).1 hnil
  · intro renamed hmem
    obtain ⟨run, hrun, rfl⟩ := List.mem_map.mp hmem
    unfold renameRun
    split
    · refine (List.pairwise_of_forall_mem_list ?_).isChain
      intro c hc d hd
      rw [hnew.2 c hc, hnew.2 d hd]
      rfl
    · exact List.isChain_of_mem_splitBy hrun
  · rw [List.isChain_map]
    refine (List.isChain_getLast_head_splitBy _ text).imp ?_
    rintro left right ⟨hleft, hright, hkinds⟩
    obtain ⟨hleft', hlast, -⟩ := isNameChar_ends_renameRun hold hnew hleft
    obtain ⟨hright', -, hhead⟩ := isNameChar_ends_renameRun hold hnew hright
    exact ⟨hleft', hright', by rw [hlast, hhead, hkinds]⟩

/-- Names that are exchanged for a new one come back. -/
theorem renameRuns_renameRuns {text : Text} (h : new ∉ nameRuns text) :
    renameRuns new old (renameRuns old new text) = text := by
  have hback : ∀ run ∈ nameRuns text, renameRun new old (renameRun old new run) = run := by
    intro run hrun
    unfold renameRun
    split
    · next hsame => rw [if_pos rfl, hsame]
    · exact if_neg (ne_of_mem_of_not_mem hrun h)
  have hmap : (nameRuns text).map (renameRun new old ∘ renameRun old new) = nameRuns text :=
    (List.map_congr_left hback).trans (List.map_id' _)
  rw [renameRuns, nameRuns_renameRuns hold hnew, List.map_map, hmap, nameRuns, List.flatten_splitBy]

end

/-- **A plain name stands by itself in the texts that have it as a run**, and in no others. -/
theorem mentionsTable_eq_true_iff_mem_nameRuns {old text : Text} (hold : old.IsPlainName) :
    mentionsTable old text = true ↔ old ∈ nameRuns text := by
  -- another plain name, which a renaming can be seen by
  have hnew : Text.IsPlainName ('a' :: old) :=
    ⟨List.cons_ne_nil _ _, List.forall_mem_cons.mpr ⟨by decide, hold.2⟩⟩
  have hne : old ≠ 'a' :: old := (List.cons_ne_self 'a' old).symm
  have hkept : mentionsTable old text = false ↔ renameTable old ('a' :: old) text = text := by
    rw [renameTable_eq_self_iff, or_iff_right hne]
  rw [← not_iff_not, Bool.not_eq_true, hkept]
  constructor
  · intro hsame hmem
    have hruns := nameRuns_renameRuns hold hnew text
    rw [← renameTable_eq_renameRuns hold, hsame] at hruns
    have hrun := List.map_inj_left.mp (hruns.symm.trans (List.map_id _).symm) old hmem
    rw [renameRun, if_pos rfl] at hrun
    exact hne hrun.symm
  · intro hruns
    exact renameTable_of_notMem_nameRuns hold hruns _

/-- **The law of plain names.**  A table whose name consists of name characters is renamed exactly where the
name is a longest run of such characters, and every other run is kept.  So renaming it to the same name changes
nothing, and a new name of this kind that is no run of the text can be renamed back. -/
theorem renameTable_plainName_law {old : Text} (hold : old.IsPlainName) :
    (∀ new text : Text, renameTable old new text = renameRuns old new text)
    ∧ (∀ text : Text, renameTable old old text = text)
    ∧ ∀ new text : Text, new.IsPlainName → new ∉ nameRuns text →
        renameTable new old (renameTable old new text) = text := by
  refine ⟨renameTable_eq_renameRuns hold, fun text => renameTable_eq_self_iff.mpr (.inl rfl), ?_⟩
  intro new text hnew hruns
  rw [renameTable_eq_renameRuns hold, renameTable_eq_renameRuns hnew,
    renameRuns_renameRuns hold hnew hruns]

/-- Longer names around and behind the table's own are kept, and the table gets its own name back. -/
theorem renameTable_ordersInJoin :
    Text.IsPlainName "orders".toList ∧ Text.IsPlainName "orders_2024".toList
    ∧ "orders_2024".toList ∉ nameRuns "orders JOIN orders_archive ON my_orders.id=orders.id".toList
    ∧ renameTable "orders".toList "orders_2024".toList
        "orders JOIN orders_archive ON my_orders.id=orders.id".toList
      = "orders_2024 JOIN orders_archive ON my_orders.id=orders_2024.id".toList
    ∧ renameTable "orders_2024".toList "orders".toList
        "orders_2024 JOIN orders_archive ON my_orders.id=orders_2024.id".toList
      = "orders JOIN orders_archive ON my_orders.id=orders.id".toList := by
  have hold : Text.IsPlainName "orders".toList := ⟨by decide, List.all_eq_true.mp rfl⟩
  have hnew : Text.IsPlainName "orders_2024".toList := ⟨by decide, List.all_eq_true.mp rfl⟩
  have hruns : "orders_2024".toList
      ∉ nameRuns "orders JOIN orders_archive ON my_orders.id=orders.id".toList := by
    decide +kernel
  obtain ⟨hrename, -, hback⟩ := renameTable_plainName_law hold
  have hrenamed : renameTable "orders".toList "orders_2024".toList
        "orders JOIN orders_archive ON my_orders.id=orders.id".toList
      = "orders_2024 JOIN orders_archive ON my_orders.id=orders_2024.id".toList := by
    rw [hrename]
    decide +kernel
  refine ⟨hold, hnew, hruns, hrenamed, ?_⟩
  rw [← hrenamed]
  exact hback _ _ hnew hruns

end BulkDml
