import BulkDml.Proofs.RoutedStatement

/-! # Routes in texts

A route is given as a text `OLD:NEW`, and behind the tag of a pragma line stands the same.  The text is split at
every colon and must have two parts; the line is split at its first colon, and no other one may follow.

* `Text.splitAll_append_cons` — the parts of a text are split off one by one;
* `Route.parse?_eq_bind_splitFirst` — a route can as well be read at the first colon;
* `Route.parse?_eq_some_iff` — the texts that write a route;
* `Pragma.parse?_lead_append` — behind its tag, a line is read as the route without the line break behind it;
* `Route.parse?_pragma_law` — a text is a route exactly if it makes a pragma, and this has the same tables.
-/

namespace BulkDml

namespace Text

/-- Splitting a text at every mark is splitting a list. -/
theorem splitAll_eq_splitOn (mark : Char) (text : Text) : splitAll mark text = text.splitOn mark := by
  induction text with
  | nil => rw [splitAll, List.splitOn_nil]
  | cons c rest ih =>
    rw [splitAll, List.splitOn_cons_eq_if_modifyHead, ih]
    by_cases hc : c = mark
    · rw [if_pos hc, if_pos (by simpa using hc)]
    · rw [if_neg hc, if_neg (by simpa using hc)]
      obtain ⟨part, parts, hparts⟩ := List.exists_cons_of_ne_nil (List.splitOn_ne_nil mark rest)
      rw [hparts, List.modifyHead_cons]

/-- A text without the mark is its only part. -/
theorem splitAll_of_notMem {mark : Char} {text : Text} (h : mark ∉ text) : splitAll mark text = [text] := by
  rw [splitAll_eq_splitOn, List.splitOn_eq_singleton h]

/-- What stands in front of the first mark is the first part, and the others are those of the rest. -/
theorem splitAll_append_cons {mark : Char} {first : Text} (h : mark ∉ first) (rest : Text) :
    splitAll mark (first ++ mark :: rest) = first :: splitAll mark rest := by
  rw [splitAll_eq_splitOn, splitAll_eq_splitOn, List.splitOn_append_cons_self_of_not_mem h]

/-- Every text has a part. -/
theorem splitAll_ne_nil (mark : Char) (text : Text) : splitAll mark text ≠ [] := by
  rw [splitAll_eq_splitOn]
  exact List.splitOn_ne_nil mark text

end Text

namespace Route

/-- **A route can be read at the first colon**: a further one would start a third part. -/
theorem parse?_eq_bind_splitFirst (text : Text) :
    parse? text = (text.splitFirst ':').bind fun (logical, physical) =>
      if logical.isEmpty || physical.isEmpty || physical.contains ':' then none
      else some ⟨logical, physical⟩ := by
  cases hsplit : text.splitFirst ':' with
  | none =>
    rw [parse?, Text.splitAll_of_notMem (Text.splitFirst_eq_none_iff.mp hsplit)]
    rfl
  | some parts =>
    obtain ⟨logical, physical⟩ := parts
    obtain ⟨hlogical, rfl⟩ := Text.splitFirst_eq_some_iff.mp hsplit
    rw [parse?, Text.splitAll_append_cons hlogical]
    cases hmore : physical.splitFirst ':' with
    | none =>
      have hphysical : ':' ∉ physical := Text.splitFirst_eq_none_iff.mp hmore
      rw [Text.splitAll_of_notMem hphysical]
      simp [hphysical]
    | some more =>
      -- the second colon leaves at least three parts
      obtain ⟨second, rest⟩ := more
      obtain ⟨hsecond, rfl⟩ := Text.splitFirst_eq_some_iff.mp hmore
      obtain ⟨third, others, hrest⟩ := List.exists_cons_of_ne_nil (Text.splitAll_ne_nil ':' rest)
      rw [Text.splitAll_append_cons hsecond, hrest]
      simp

/-- **A text writes a route exactly if it consists of the two names with a colon between them**, and these are not
empty and have no colon of their own. -/
theorem parse?_eq_some_iff {text : Text} {route : Route} :
    parse? text = some route
      ↔ (route.logical ≠ [] ∧ route.physical ≠ [] ∧ ':' ∉ route.logical ∧ ':' ∉ route.physical)
        ∧ route.logical ++ ':' :: route.physical = text := by
  rw [parse?_eq_bind_splitFirst, Option.bind_eq_some_iff]
  constructor
  · rintro ⟨⟨logical, physical⟩, hsplit, hcheck⟩
    obtain ⟨hcolon, rfl⟩ := Text.splitFirst_eq_some_iff.mp hsplit
    dsimp only at hcheck
    split at hcheck
    · cases hcheck
    · next hnames =>
      obtain rfl : (⟨logical, physical⟩ : Route) = route := Option.some_inj.mp hcheck
      simp only [Bool.or_eq_true, List.isEmpty_iff, List.contains_iff_mem, not_or] at hnames
      exact ⟨⟨hnames.1.1, hnames.1.2, hcolon, hnames.2⟩, rfl⟩
  · rintro ⟨⟨hlogical, hphysical, hcolon, hthird⟩, rfl⟩
    refine ⟨(route.logical, route.physical), Text.splitFirst_eq_some_iff.mpr ⟨hcolon, rfl⟩, ?_⟩
    simp [hlogical, hphysical, hthird]

end Route

namespace Pragma

/-- The line break behind a line is behind the fields of the line. -/
theorem dropLineBreak_lead_append (tag text : Text) :
    dropLineBreak (lead tag ++ text) = lead tag ++ dropLineBreak text := by
  obtain ⟨breaks, hbreaks, htext⟩ := exists_dropLineBreak_append text
  have hends : Text.endsInBreak (lead tag ++ dropLineBreak text) = false := by
    by_cases hnil : dropLineBreak text = []
    · rw [hnil, List.append_nil, lead, Text.endsInBreak_append _ (List.cons_ne_nil _ _)]
      rfl
    · rw [Text.endsInBreak_append _ hnil, endsInBreak_dropLineBreak]
  have happend := dropLineBreak_append hbreaks hends
  rwa [List.append_assoc, ← htext] at happend

/-- **Behind its tag, a line is read as the route that is written there**, the line break at its end aside. -/
theorem parse?_lead_append (tag text : Text) :
    parse? tag (lead tag ++ text) = (Route.parse? (dropLineBreak text)).map (Route.pragma tag) := by
  rw [parse?, dropLineBreak_lead_append, Text.after?_append, Route.parse?_eq_bind_splitFirst]
  simp only [Option.bind_eq_bind, Option.bind_some]
  cases (dropLineBreak text).splitFirst ':' with
  | none => rfl
  | some parts =>
    simp only [Option.bind_some]
    split <;> rfl

end Pragma

/-- **Routes and pragmas are written alike.**  A text is a route exactly if it consists of two names that are not
empty, with a colon between them and no other.  If it does not end in a line break, a pragma line with this text
behind its tag, whatever that is, is read exactly then, as the pragma of the route; and the pragma of the route has
this line. -/
theorem Route.parse?_pragma_law (tag : Text) {text : Text} (h : Text.endsInBreak text = false) :
    Pragma.parse? tag (Pragma.lead tag ++ text) = (Route.parse? text).map (Route.pragma tag)
      ∧ ∀ route : Route,
          (Route.parse? text = some route
            ↔ (route.logical ≠ [] ∧ route.physical ≠ [] ∧ ':' ∉ route.logical ∧ ':' ∉ route.physical)
              ∧ route.logical ++ ':' :: route.physical = text)
          ∧ (Route.parse? text = some route → (route.pragma tag).line = Pragma.lead tag ++ text) := by
  refine ⟨?_, fun route => ⟨Route.parse?_eq_some_iff, ?_⟩⟩
  · rw [Pragma.parse?_lead_append, Pragma.dropLineBreak_of_endsInBreak_eq_false h]
  · intro hparse
    obtain ⟨-, htext⟩ := Route.parse?_eq_some_iff.mp hparse
    rw [Pragma.line, List.append_assoc, Route.pragma, htext]

/-- The route of the command line makes the same pragma behind a tag that has a colon of its own. -/
theorem Route.parse?_pragma_regionalTag :
    Text.endsInBreak "[Orders]:[Orders_2024]".toList = false
      ∧ Route.parse? "[Orders]:[Orders_2024]".toList = some ⟨"[Orders]".toList, "[Orders_2024]".toList⟩
      ∧ Pragma.parse? "SHARD:EU".toList "-- SHARD:EU:[Orders]:[Orders_2024]".toList
        = some ⟨"SHARD:EU".toList, "[Orders]".toList, "[Orders_2024]".toList⟩ := by
  have hends : Text.endsInBreak "[Orders]:[Orders_2024]".toList = false := by decide
  obtain ⟨hpragma, hroute⟩ := Route.parse?_pragma_law "SHARD:EU".toList hends
  have hparse : Route.parse? "[Orders]:[Orders_2024]".toList
      = some ⟨"[Orders]".toList, "[Orders_2024]".toList⟩ :=
    (hroute ⟨"[Orders]".toList, "[Orders_2024]".toList⟩).1.mpr ⟨by decide, rfl⟩
  rw [hparse] at hpragma
  exact ⟨hends, hparse, hpragma⟩

end BulkDml
