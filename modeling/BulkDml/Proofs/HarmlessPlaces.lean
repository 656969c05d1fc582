import BulkDml.Proofs.SegmentCut
import BulkDml.Proofs.TablePlaces

/-! # Places where a new name does no harm

Putting another name into the places of a table changes the text there, and it may change how the rest of
the text is read: the new name may open or close quotes, or hold placeholders itself.  It does neither in a
place outside of quotes, if both names are inert, and in a place inside of quotes, if neither closes them.

* `Text.EndsInQuotes` — a text that ends inside of quotes;
* `IsHarmless` — places where one name can be exchanged for another;
* `filter_segments_fillPlaces` — what is read elsewhere stays the same;
* `values_toPositional_congr` — the values that are bound depend on the placeholders only;
* `IsHarmlessIn`, `IsOutsideLiterals` — renamings that keep the placeholders, and the literals.
-/

namespace BulkDml

/-! ## Inside of quotes -/

/-- A character other than the closing quote belongs to the run. -/
theorem spanQuoted_cons_of_ne {close c : Char} (h : c ≠ close) (rest : Text) :
    spanQuoted close (c :: rest) = (c :: (spanQuoted close rest).1, (spanQuoted close rest).2) := by
  cases rest with
  | nil => rfl
  | cons d tail =>
    rw [spanQuoted, if_neg h]

/-- A text without the closing quote belongs to the run. -/
theorem spanQuoted_append_of_notMem {close : Char} {inner : Text} (h : close ∉ inner) (rest : Text) :
    spanQuoted close (inner ++ rest)
      = (inner ++ (spanQuoted close rest).1, (spanQuoted close rest).2) := by
  induction inner with
  | nil => rfl
  | cons c tail ih =>
    rw [List.mem_cons, not_or] at h
    rw [List.cons_append, spanQuoted_cons_of_ne (Ne.symm h.1), ih h.2, List.cons_append]

/-- Whether a text ends inside of quotes that were opened by the first and are closed by the second of two
characters: its last segment is a quoted run without an end. -/
def Text.EndsInQuotes (text : Text) (opening close : Char) : Prop :=
  closingQuote? opening = some close ∧ ∃ (parts : List Segment) (content : Text),
    segments text = parts ++ [.quoted (opening :: content.doubling close)]

/-- A text that ends plainly does not end inside of quotes. -/
theorem Text.EndsPlain.not_endsInQuotes {text : Text} (h : text.EndsPlain) (opening close : Char) :
    ¬text.EndsInQuotes opening close := by
  rintro ⟨-, parts, content, hsegments⟩
  obtain ⟨c, hc, -⟩ := h _ (by rw [hsegments, List.getLast?_concat])
  cases hc

namespace Segment

/-- The last segment of a split may be exchanged for a split that starts with the same character. -/
theorem isSplit_append_congr {parts more : List Segment} {last : Segment}
    (h : IsSplit (parts ++ [last])) (hmore : IsSplit more)
    (hhead : (more.flatMap text).head? = last.text.head?) : IsSplit (parts ++ more) := by
  induction parts with
  | nil => exact hmore
  | cons segment rest ih =>
    obtain ⟨hsegment, hrest⟩ := h
    refine ⟨hsegment.congr (Or.inl ?_), ih hrest⟩
    cases rest with
    | nil =>
      show (more.flatMap text).head? = (last.text ++ []).head?
      rw [List.append_nil, hhead]
    | cons second tail =>
      have hne := hrest.1.text_ne_nil
      show (second.text ++ (tail ++ more).flatMap text).head?
        = (second.text ++ (tail ++ [last]).flatMap text).head?
      rw [List.head?_append_of_ne_nil _ hne, List.head?_append_of_ne_nil _ hne]

end Segment

/-- Behind a text that ends inside of quotes, the run goes on up to its end. -/
theorem Text.EndsInQuotes.exists_segments_append {before : Text} {opening close : Char}
    (h : before.EndsInQuotes opening close) :
    ∃ (parts : List Segment) (content : Text), ∀ rest, segments (before ++ rest)
      = parts ++ .quoted (opening :: (content ++ (spanQuoted close rest).1))
          :: segments (spanQuoted close rest).2 := by
  obtain ⟨hclose, parts, content, hsegments⟩ := h
  refine ⟨parts, content.doubling close, ?_⟩
  intro rest
  -- the run with what it takes of `rest` is complete in front of what it leaves
  have hrun : Segment.EndsBefore (spanQuoted close rest).2
      (.quoted (opening :: (content.doubling close ++ (spanQuoted close rest).1))) := by
    obtain ⟨inner, hinner⟩ := exists_spanQuoted_eq close rest
    refine ⟨opening, close, content ++ inner, hclose, ?_⟩
    have hdoubling : Text.doubling close (content ++ inner)
        = content.doubling close ++ inner.doubling close := List.flatMap_append
    rcases hinner with ⟨hspan, hbehind⟩ | ⟨hspan, hbehind⟩
    · refine Or.inl ⟨?_, hbehind⟩
      rw [hspan, hdoubling, List.cons_append, List.append_assoc]
    · refine Or.inr ⟨?_, hbehind⟩
      rw [hspan, hdoubling]
  have hsplit := Segment.isSplit_segments before
  rw [hsegments] at hsplit
  have hbehind : Segment.IsSplit (.quoted (opening :: (content.doubling close
      ++ (spanQuoted close rest).1)) :: segments (spanQuoted close rest).2) := by
    refine ⟨?_, Segment.isSplit_segments _⟩
    rw [flatMap_text_segments]
    exact hrun
  have hwhole := Segment.isSplit_append_congr hsplit hbehind rfl
  have htext := flatMap_text_segments before
  rw [hsegments, List.flatMap_append, List.flatMap_singleton] at htext
  rw [← Segment.segments_flatMap_text hwhole, List.flatMap_append, List.flatMap_cons,
    flatMap_text_segments, ← htext]
  simp only [Segment.text, List.append_assoc, List.cons_append, spanQuoted_append]

/-! ## Harmless places -/

/-- Whether one name can be exchanged for another between two texts. -/
inductive IsHarmless (old new before behind : Text) : Prop where
  /-- Outside of quotes, with names that are copied whatever stands around them. -/
  | apart (hbefore : before.EndsPlain) (hbehind : Text.startsClosing behind = false)
      (hold : Text.IsInert old) (hnew : Text.IsInert new)
  /-- Inside of quotes, with names that do not close them. -/
  | enclosed {opening close : Char} (hbefore : before.EndsInQuotes opening close)
      (hold : close ∉ old) (hnew : close ∉ new)

/-- In a harmless place the segments that are kept by a filter stay the same, if it keeps nothing of the
names and of the quotes around them. -/
theorem IsHarmless.filter_segments {old new before behind : Text}
    (h : IsHarmless old new before behind) {keep : Segment → Bool}
    (hold : old.IsInert → ∀ segment ∈ segments old, keep segment = false)
    (hnew : new.IsInert → ∀ segment ∈ segments new, keep segment = false)
    (hquotes : ∀ opening close run, before.EndsInQuotes opening close →
      keep (.quoted (opening :: run)) = false) :
    (segments (before ++ (new ++ behind))).filter keep
      = (segments (before ++ (old ++ behind))).filter keep := by
  cases h with
  | apart hbefore hbehind hinertOld hinertNew =>
    have hnone : ∀ name : Text, (∀ segment ∈ segments name, keep segment = false) →
        (segments name).filter keep = [] := by
      intro name hname
      rw [List.filter_eq_nil_iff]
      intro segment hmem
      rw [hname segment hmem]
      simp
    rw [hbefore.segments_append, hbefore.segments_append, hinertOld.segments_append _ hbehind,
      hinertNew.segments_append _ hbehind, List.filter_append, List.filter_append,
      List.filter_append, List.filter_append, hnone old (hold hinertOld),
      hnone new (hnew hinertNew)]
  | @enclosed opening close hbefore hclosesOld hclosesNew =>
    have hrun := fun run => hquotes opening close run hbefore
    obtain ⟨parts, content, hsegments⟩ := hbefore.exists_segments_append
    rw [hsegments, hsegments, spanQuoted_append_of_notMem hclosesOld,
      spanQuoted_append_of_notMem hclosesNew, List.filter_append, List.filter_append,
      List.filter_cons_of_neg (by simp [hrun]), List.filter_cons_of_neg (by simp [hrun])]

/-- **Filling harmless places with another name changes nothing of what is read elsewhere.** -/
theorem filter_segments_fillPlaces {old new : Text} {keep : Segment → Bool}
    {parts : List (Option Char)}
    (hharmless : ∀ front back, parts = front ++ none :: back →
      IsHarmless old new (fillPlaces old front) (fillPlaces new back))
    (hold : old.IsInert → ∀ segment ∈ segments old, keep segment = false)
    (hnew : new.IsInert → ∀ segment ∈ segments new, keep segment = false)
    (hquotes : ∀ front back opening close run, parts = front ++ none :: back →
      (fillPlaces old front).EndsInQuotes opening close →
        keep (.quoted (opening :: run)) = false) :
    (segments (fillPlaces new parts)).filter keep = (segments (fillPlaces old parts)).filter keep := by
  -- the places up to some point keep the old name, and those behind it have the new one
  suffices hfrom : ∀ front back, parts = front ++ back →
      (segments (fillPlaces old front ++ fillPlaces new back)).filter keep
        = (segments (fillPlaces old parts)).filter keep from hfrom [] parts rfl
  intro front back hparts
  induction back generalizing front with
  | nil => rw [hparts, List.append_nil, fillPlaces_nil, List.append_nil]
  | cons part rest ih =>
    have hnext := ih (front ++ [part]) (by rw [hparts, List.append_assoc]; rfl)
    rw [fillPlaces_append, fillPlaces_cons, fillPlaces_nil, List.append_nil, List.append_assoc]
      at hnext
    rw [← hnext, fillPlaces_cons]
    cases part with
    | some c => rfl
    | none =>
      exact (hharmless front rest hparts).filter_segments hold hnew
        fun opening close run hends => hquotes front rest opening close run hparts hends

/-! ## What is read -/

/-- Whether a segment is the literal of a text. -/
def Segment.isTextLiteral : Segment → Bool
  | quoted text => text.head? == some '\''
  | placeholder _ | other _ => false

/-- The names that get a position depend on the placeholders only. -/
theorem bound_bindFrom_filter (bindings bound : List Binding) (parts : List Segment) :
    (bindFrom bindings bound parts).2
      = (bindFrom bindings bound (parts.filter Segment.isPlaceholder)).2 := by
  induction parts generalizing bound with
  | nil => rfl
  | cons segment rest ih =>
    cases hkept : segment.isPlaceholder with
    | false =>
      rw [bindFrom_cons_of_kept _ _ hkept, List.filter_cons_of_neg (by simp [hkept])]
      exact ih bound
    | true =>
      rw [List.filter_cons_of_pos hkept]
      obtain ⟨name, rfl⟩ := Segment.exists_of_isPlaceholder hkept
      cases hvalue : lookup? bindings name with
      | none =>
        rw [bindFrom_cons_of_unknown _ hvalue, bindFrom_cons_of_unknown _ hvalue]
        exact ih bound
      | some value =>
        cases hposition : bound.findIdx? (·.name == name) with
        | some position =>
          rw [bindFrom_cons_of_bound hvalue hposition, bindFrom_cons_of_bound hvalue hposition]
          exact ih bound
        | none =>
          rw [bindFrom_cons_of_new hvalue hposition, bindFrom_cons_of_new hvalue hposition]
          exact ih _

/-- Texts with the same placeholders are bound to the same values. -/
theorem values_toPositional_congr {sql other : Text}
    (h : (segments other).filter Segment.isPlaceholder = (segments sql).filter Segment.isPlaceholder)
    (bindings : List Binding) :
    (toPositional other bindings).values = (toPositional sql bindings).values := by
  rw [toPositional, toPositional]
  dsimp only
  rw [bound_bindFrom_filter, h, ← bound_bindFrom_filter]

/-- A text without an apostrophe has no literal in it. -/
theorem Segment.isTextLiteral_eq_false {text : Text} (h : '\'' ∉ text) {segment : Segment}
    (hmem : segment ∈ segments text) : segment.isTextLiteral = false := by
  cases segment with
  | placeholder name => rfl
  | other c => rfl
  | quoted run =>
    by_contra hliteral
    have hhead : run.head? = some '\'' := by simpa [isTextLiteral] using hliteral
    -- the characters of a segment are characters of the text
    rw [← flatMap_text_segments text] at h
    exact h (List.mem_flatMap.mpr ⟨_, hmem, List.mem_of_head? hhead⟩)

/-! ## Harmless renamings -/

/-- Whether a text names a table in harmless places only. -/
def IsHarmlessIn (old new text : Text) : Prop :=
  ∀ front back, tablePlaces old text = front ++ none :: back →
    IsHarmless old new (fillPlaces old front) (fillPlaces new back)

/-- Whether a text names a table in no literal. -/
def IsOutsideLiterals (old text : Text) : Prop :=
  ∀ front back, tablePlaces old text = front ++ none :: back →
    ¬(fillPlaces old front).EndsInQuotes '\'' '\''

namespace IsHarmlessIn

variable {old new text : Text}

/-- A harmless renaming keeps the placeholders. -/
theorem filter_isPlaceholder (h : IsHarmlessIn old new text) :
    (segments (renameTable old new text)).filter Segment.isPlaceholder
      = (segments text).filter Segment.isPlaceholder := by
  have hold : old.IsInert → ∀ segment ∈ segments old, segment.isPlaceholder = false :=
    fun hinert => hinert.kept
  have hnew : new.IsInert → ∀ segment ∈ segments new, segment.isPlaceholder = false :=
    fun hinert => hinert.kept
  have hfill := filter_segments_fillPlaces h hold hnew fun _ _ _ _ _ _ _ => rfl
  rwa [fillPlaces_tablePlaces, ← renameTable_eq_fillPlaces] at hfill

/-- A harmless renaming outside of literals keeps the literals, if no apostrophe is in the names. -/
theorem filter_isTextLiteral (h : IsHarmlessIn old new text) (hold : '\'' ∉ old) (hnew : '\'' ∉ new)
    (houtside : IsOutsideLiterals old text) :
    (segments (renameTable old new text)).filter Segment.isTextLiteral
      = (segments text).filter Segment.isTextLiteral := by
  have hquotes : ∀ front back opening close (run : Text),
      tablePlaces old text = front ++ none :: back →
        (fillPlaces old front).EndsInQuotes opening close →
          (Segment.quoted (opening :: run)).isTextLiteral = false := by
    intro front back opening close run hparts hends
    by_contra hliteral
    have hopening : opening = '\'' := by simpa [Segment.isTextLiteral] using hliteral
    subst hopening
    obtain rfl : '\'' = close := Option.some_inj.mp hends.1
    exact houtside front back hparts hends
  have hfill := filter_segments_fillPlaces h
    (fun _ _ hmem => Segment.isTextLiteral_eq_false hold hmem)
    (fun _ _ hmem => Segment.isTextLiteral_eq_false hnew hmem) hquotes
  rwa [fillPlaces_tablePlaces, ← renameTable_eq_fillPlaces] at hfill

end IsHarmlessIn

end BulkDml
