import BulkDml.Proofs.Passage
import BulkDml.Proofs.PlaceholderBinding

/-! # The one way to split a text into segments

Quoted runs, placeholders and other characters can be described without saying how a text is searched for
them.  A list of segments that fits the description is a *split*, and every text has exactly one.

* `Segment.EndsBefore` — a segment that is complete in front of the text behind it;
* `Segment.IsSplit` — a list of segments, each complete in front of what follows it;
* `Segment.isSplit_iff` — the only split of a text are its segments.
-/

namespace BulkDml

/-! ## Quoted runs -/

/-- A text with its marks doubled is one run if nothing follows it. -/
theorem spanQuoted_doubling_end (close : Char) (content : Text) :
    spanQuoted close (content.doubling close) = (content.doubling close, []) := by
  induction content with
  | nil => rfl
  | cons c tail ih =>
    rw [Text.doubling_cons]
    by_cases hc : c = close
    · subst hc
      simp only [if_true, List.cons_append, List.nil_append]
      rw [spanQuoted, if_pos rfl, if_pos rfl, ih]
    · simp only [if_neg hc, List.cons_append, List.nil_append]
      cases hshape : Text.doubling close tail with
      | nil => rfl
      | cons d more =>
        rw [spanQuoted, if_neg hc, ← hshape, ih]

/-- Every run is a text with its marks doubled: either a single mark ends it, and no mark follows, or nothing
does. -/
theorem exists_spanQuoted_eq (close : Char) (text : Text) :
    ∃ content : Text,
      (spanQuoted close text).1 = content.doubling close ++ [close]
          ∧ (spanQuoted close text).2.head? ≠ some close
        ∨ (spanQuoted close text).1 = content.doubling close ∧ (spanQuoted close text).2 = [] := by
  fun_induction spanQuoted close text with
  | case1 => exact ⟨[], Or.inr ⟨rfl, rfl⟩⟩
  | case2 c =>
    by_cases hc : c = close
    · subst hc
      exact ⟨[], Or.inl ⟨rfl, by simp⟩⟩
    · refine ⟨[c], Or.inr ⟨?_, rfl⟩⟩
      rw [Text.doubling_cons, if_neg hc]
      rfl
  | case3 rest run after hspan ih =>
    -- a doubled mark belongs to the content
    rw [hspan] at ih
    obtain ⟨content, hcontent⟩ := ih
    refine ⟨close :: content, ?_⟩
    rw [Text.doubling_cons, if_pos rfl]
    rcases hcontent with ⟨(rfl : run = _), hafter⟩ | ⟨(rfl : run = _), hafter⟩
    · exact Or.inl ⟨rfl, hafter⟩
    · exact Or.inr ⟨rfl, hafter⟩
  | case4 d rest hd =>
    -- a single mark ends the run
    exact ⟨[], Or.inl ⟨rfl, by simpa using hd⟩⟩
  | case5 c d rest hc run after hspan ih =>
    rw [hspan] at ih
    obtain ⟨content, hcontent⟩ := ih
    refine ⟨c :: content, ?_⟩
    rw [Text.doubling_cons, if_neg hc]
    rcases hcontent with ⟨(rfl : run = _), hafter⟩ | ⟨(rfl : run = _), hafter⟩
    · exact Or.inl ⟨rfl, hafter⟩
    · exact Or.inr ⟨rfl, hafter⟩

namespace Segment

/-! ## Complete segments -/

/-- Whether a segment is what stands in front of a text.  A quoted run is a content with its closing quote
doubled, behind the opening quote; it goes up to a single closing quote or to the end of the text.  A
placeholder is a character that introduces one and a longest run of name characters.  Any other character
opens no quotes, and introduces no name. -/
def EndsBefore (after : Text) : Segment → Prop
  | quoted run => ∃ (opening close : Char) (content : Text), closingQuote? opening = some close
      ∧ (run = opening :: content.doubling close ++ [close] ∧ after.head? ≠ some close
        ∨ run = opening :: content.doubling close ∧ after = [])
  | placeholder name => ∃ (c : Char) (run : Text), name = c :: run ∧ isIntroducer c = true ∧ run ≠ []
      ∧ (∀ d ∈ run, isNameChar d = true) ∧ after.head?.all (!isNameChar ·) = true
  | other c => closingQuote? c = none
      ∧ ¬(isIntroducer c = true ∧ after.head?.any isNameChar = true)

/-- The segments of a list that is a split of its text: each is complete in front of what follows. -/
def IsSplit : List Segment → Prop
  | [] => True
  | segment :: rest => segment.EndsBefore (rest.flatMap text) ∧ IsSplit rest

@[simp] theorem isSplit_cons {segment : Segment} {rest : List Segment} :
    IsSplit (segment :: rest) ↔ segment.EndsBefore (rest.flatMap text) ∧ IsSplit rest :=
  Iff.rfl

/-- A complete segment is the first one of the text that it starts. -/
theorem segments_text_append {segment : Segment} {after : Text} (h : segment.EndsBefore after) :
    segments (segment.text ++ after) = segment :: segments after := by
  cases segment with
  | quoted run =>
    obtain ⟨opening, close, content, hclose, ⟨rfl, hafter⟩ | ⟨rfl, rfl⟩⟩ := h
    · have hspan := spanQuoted_doubling close content after hafter
      simp only [text, List.cons_append, List.append_assoc, List.nil_append]
      rw [segments_cons, next, hclose]
      simp only [hspan]
    · have hspan := spanQuoted_doubling_end close content
      rw [text, List.append_nil, segments_cons, next, hclose]
      simp only [hspan]
  | placeholder name =>
    obtain ⟨c, run, rfl, hc, hne, hrun, hafter⟩ := h
    exact segments_placeholder hc hne hrun hafter
  | other c =>
    obtain ⟨hclose, hname⟩ := h
    rw [text, List.cons_append, List.nil_append, segments_cons, next, hclose]
    simp only [Bool.and_eq_true, if_neg hname]

/-- The segment that is taken off a text is complete in front of what is left. -/
theorem endsBefore_next (c : Char) (rest : Text) : (next c rest).1.EndsBefore (next c rest).2 := by
  cases hclose : closingQuote? c with
  | some close =>
    rw [next, hclose]
    obtain ⟨content, ⟨hrun, hafter⟩ | ⟨hrun, hafter⟩⟩ := exists_spanQuoted_eq close rest
    · exact ⟨c, close, content, hclose, Or.inl ⟨by rw [hrun]; rfl, hafter⟩⟩
    · exact ⟨c, close, content, hclose, Or.inr ⟨by rw [hrun], hafter⟩⟩
  | none =>
    rw [next, hclose]
    by_cases hname : (isIntroducer c && rest.head?.any isNameChar) = true
    · -- the run of name characters is not empty, and the longest
      rw [if_pos hname]
      rw [Bool.and_eq_true] at hname
      refine ⟨c, rest.takeWhile isNameChar, rfl, hname.1, ?_, ?_, ?_⟩
      · cases rest with
        | nil => cases hname.2
        | cons d tail =>
          have hd : isNameChar d = true := hname.2
          rw [List.takeWhile_cons_of_pos hd]
          exact List.cons_ne_nil d _
      · intro d hd
        exact List.mem_takeWhile_imp hd
      · have hstop := List.head?_dropWhile_not isNameChar rest
        cases hhead : (rest.dropWhile isNameChar).head? with
        | none => rfl
        | some d =>
          rw [hhead] at hstop
          simpa using hstop
    · rw [if_neg hname]
      rw [Bool.and_eq_true] at hname
      exact ⟨hclose, hname⟩

/-! ## Splits -/

/-- The segments of a text are a split. -/
theorem isSplit_segments (sql : Text) : IsSplit (segments sql) := by
  fun_induction segments sql with
  | case1 => trivial
  | case2 c rest ih =>
    refine ⟨?_, ih⟩
    rw [flatMap_text_segments]
    exact endsBefore_next c rest

/-- A split consists of the segments of its text. -/
theorem segments_flatMap_text {parts : List Segment} (h : IsSplit parts) :
    segments (parts.flatMap text) = parts := by
  induction parts with
  | nil => rw [List.flatMap_nil, segments_nil]
  | cons segment rest ih =>
    rw [isSplit_cons] at h
    rw [List.flatMap_cons, segments_text_append h.1, ih h.2]

/-- **The segments of a text are its only split.** -/
theorem isSplit_iff {sql : Text} {parts : List Segment} :
    parts.flatMap text = sql ∧ IsSplit parts ↔ parts = segments sql := by
  constructor
  · rintro ⟨rfl, hsplit⟩
    exact (segments_flatMap_text hsplit).symm
  · rintro rfl
    exact ⟨flatMap_text_segments sql, isSplit_segments sql⟩

end Segment

end BulkDml
