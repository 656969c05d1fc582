import BulkDml.Proofs.NameRuns

/-! # Places where a name stands by itself

A renaming meets the occurrences of a name from left to right, each behind the end of the one before, whether
that one stood by itself or not.  So an occurrence that is kept can hide one that overlaps it and should not be
kept.  Only names that overlap themselves around a character that is in no name can do this.

* `StandsAt`, `IsMetAt`, `IsReplacedAt` — places where a name stands by itself, where the renaming meets it,
  and where the new name is put;
* `hasPlaceAt_placesAfter` — the places behind a part of the text that the renaming is done with;
* `isReplacedAt_iff` — the new name is put where the name is met and stands by itself;
* `ReplacesEvery` — no place is missed, apart from those that overlap a replaced one;
* `HidesItself` — names of which one occurrence can hide another;
* `replacesEvery_law` — the texts and the names of which no place is missed.
-/

namespace BulkDml

/-! ## Places of a name -/

/-- Whether a name stands by itself at a place of a text: it occurs there, and neither side that is a name
character is next to another one. -/
structure StandsAt (name text : Text) (place : Nat) : Prop where
  /-- The name occurs at the place. -/
  occurs : name <+: text.drop place
  /-- It is not glued to what stands around it. -/
  alone : standsAlone name (text.take place).getLast? (text.drop (place + name.length)) = true

/-- Whether a renaming meets a name at a place of a text: the name occurs there, and no earlier place where it
is met reaches beyond this one. -/
def IsMetAt (name text : Text) (place : Nat) : Prop :=
  name <+: text.drop place
    ∧ ∀ earlier, (_h : earlier < place) → IsMetAt name text earlier → earlier + name.length ≤ place
termination_by place

/-- Whether a renaming puts the new name, whatever it is, in the place of the old one. -/
def IsReplacedAt (old text : Text) (place : Nat) : Prop :=
  ∃ front back : List (Option Char), (fillPlaces old front).length = place
    ∧ ∀ new, renameTable old new text = fillPlaces new (front ++ none :: back)

/-- Whether a renaming misses no place: where the old name stands by itself it is replaced, unless an earlier
replaced one overlaps it. -/
def ReplacesEvery (old text : Text) : Prop :=
  ∀ place, StandsAt old text place →
    (∀ earlier < place, IsReplacedAt old text earlier → earlier + old.length ≤ place) →
      IsReplacedAt old text place

/-- Whether nothing that is met in front of a place reaches beyond it. -/
def IsClearAt (name text : Text) (place : Nat) : Prop :=
  ∀ earlier < place, IsMetAt name text earlier → earlier + name.length ≤ place

/-- A name is met where it occurs, unless something that is met reaches beyond the place. -/
theorem isMetAt_iff {name text : Text} {place : Nat} :
    IsMetAt name text place ↔ name <+: text.drop place ∧ IsClearAt name text place := by
  rw [IsMetAt, IsClearAt]

/-- Two places where a name is met do not overlap. -/
theorem IsMetAt.eq_of_lt {name text : Text} {first second place : Nat} (hfirst : IsMetAt name text first)
    (hsecond : IsMetAt name text second) (hone : first ≤ place ∧ place < first + name.length)
    (hother : second ≤ place ∧ place < second + name.length) : first = second := by
  rcases Nat.lt_trichotomy first second with hlt | heq | hgt
  · have hends := (isMetAt_iff.mp hsecond).2 first hlt hfirst
    omega
  · exact heq
  · have hends := (isMetAt_iff.mp hfirst).2 second hgt hsecond
    omega

/-- The end of an occurrence that is met is clear. -/
theorem IsMetAt.isClearAt_end {name text : Text} {place : Nat} (h : IsMetAt name text place) :
    IsClearAt name text (place + name.length) := by
  intro earlier hearlier hmet
  rcases Nat.lt_or_ge earlier place with hlt | hge
  · have hends := (isMetAt_iff.mp h).2 earlier hlt hmet
    omega
  · have hsame := h.eq_of_lt hmet ⟨hge, hearlier⟩ ⟨Nat.le_refl _, by omega⟩
    omega

/-- The place behind a clear one is clear, if the name does not occur in between. -/
theorem IsClearAt.succ {name text : Text} {place : Nat} (h : IsClearAt name text place)
    (hoccurs : ¬name <+: text.drop place) : IsClearAt name text (place + 1) := by
  intro earlier hearlier hmet
  rcases Nat.lt_or_eq_of_le (Nat.lt_succ_iff.mp hearlier) with hlt | rfl
  · exact Nat.le_succ_of_le (h earlier hlt hmet)
  · exact absurd (isMetAt_iff.mp hmet).1 hoccurs

/-! ## Where the new name is put -/

/-- A name is found at the start of the texts that start with it. -/
theorem occurrence?_eq_some_iff {name text behind : Text} (hne : name ≠ []) :
    occurrence? name text = some behind ↔ text = name ++ behind := by
  have hempty : ¬name.isEmpty = true := by simpa using hne
  rw [occurrence?, if_neg hempty]
  constructor
  · exact Text.eq_append_of_after?
  · rintro rfl
    exact Text.after?_append name behind

/-- Whether some parts have a place behind the given number of characters, the name being in the places. -/
def HasPlaceAt (name : Text) (parts : List (Option Char)) (offset : Nat) : Prop :=
  ∃ front back, parts = front ++ none :: back ∧ (fillPlaces name front).length = offset

/-- A character is no place, and every other place is one character further. -/
theorem hasPlaceAt_some_cons {name : Text} {c : Char} {parts : List (Option Char)} {offset : Nat} :
    HasPlaceAt name (some c :: parts) offset
      ↔ ∃ rest, offset = rest + 1 ∧ HasPlaceAt name parts rest := by
  constructor
  · rintro ⟨front, back, hparts, rfl⟩
    cases front with
    | nil => cases hparts
    | cons part front =>
      obtain ⟨rfl, rfl⟩ := List.cons.inj hparts
      exact ⟨_, by simp, front, back, rfl, rfl⟩
  · rintro ⟨rest, rfl, front, back, rfl, rfl⟩
    exact ⟨some c :: front, back, rfl, by simp⟩

/-- A place is the first, or it is behind the name in the first one. -/
theorem hasPlaceAt_none_cons {name : Text} {parts : List (Option Char)} {offset : Nat} :
    HasPlaceAt name (none :: parts) offset
      ↔ offset = 0 ∨ ∃ rest, offset = name.length + rest ∧ HasPlaceAt name parts rest := by
  constructor
  · rintro ⟨front, back, hparts, rfl⟩
    cases front with
    | nil => exact .inl rfl
    | cons part front =>
      obtain ⟨rfl, rfl⟩ := List.cons.inj hparts
      exact .inr ⟨_, by simp, front, back, rfl, rfl⟩
  · rintro (rfl | ⟨rest, rfl, front, back, rfl, rfl⟩)
    · exact ⟨[], parts, rfl, rfl⟩
    · exact ⟨none :: front, back, rfl, by simp⟩

/-- A place in parts one after the other is in the first ones, or that much further in the others. -/
theorem hasPlaceAt_append_iff {name : Text} {left right : List (Option Char)} {offset : Nat} :
    HasPlaceAt name (left ++ right) offset
      ↔ HasPlaceAt name left offset
        ∨ ∃ rest, offset = (fillPlaces name left).length + rest ∧ HasPlaceAt name right rest := by
  constructor
  · rintro ⟨front, back, hparts, rfl⟩
    rcases List.append_eq_append_iff.mp hparts with ⟨more, rfl, hright⟩ | ⟨more, rfl, hback⟩
    · exact .inr ⟨_, by rw [fillPlaces_append, List.length_append], more, back, hright, rfl⟩
    · cases more with
      | nil => exact .inr ⟨0, by simp, [], back, hback.symm, rfl⟩
      | cons part more =>
        obtain ⟨rfl, rfl⟩ := List.cons.inj hback
        exact .inl ⟨front, more, rfl, rfl⟩
  · rintro (⟨front, back, rfl, rfl⟩ | ⟨_, rfl, front, back, rfl, rfl⟩)
    · exact ⟨front, back ++ right, by simp, rfl⟩
    · exact ⟨left ++ front, back, by simp, by simp⟩

/-- Some part is a place exactly if there is one behind some number of characters. -/
theorem exists_hasPlaceAt_iff {name : Text} {parts : List (Option Char)} :
    (∃ offset, HasPlaceAt name parts offset) ↔ none ∈ parts := by
  constructor
  · rintro ⟨_, front, back, rfl, -⟩
    simp
  · intro h
    obtain ⟨front, back, rfl⟩ := List.append_of_mem h
    exact ⟨_, front, back, rfl, rfl⟩

/-- A place has room for the name. -/
theorem HasPlaceAt.add_length_le {name : Text} {parts : List (Option Char)} {offset : Nat}
    (h : HasPlaceAt name parts offset) : offset + name.length ≤ (fillPlaces name parts).length := by
  obtain ⟨front, back, rfl, rfl⟩ := h
  rw [fillPlaces_append, fillPlaces_cons, Option.elim_none, List.length_append, List.length_append]
  omega

/-- Behind characters every place is that much further. -/
theorem hasPlaceAt_map_some_append {name chars : Text} {parts : List (Option Char)} {offset : Nat} :
    HasPlaceAt name (chars.map some ++ parts) offset
      ↔ ∃ rest, offset = chars.length + rest ∧ HasPlaceAt name parts rest := by
  have hnone : ¬HasPlaceAt name (chars.map some) offset := by
    intro h
    have hmem := exists_hasPlaceAt_iff.mp ⟨offset, h⟩
    simp at hmem
  rw [hasPlaceAt_append_iff, fillPlaces_map_some, or_iff_right hnone]

/-- An occurrence is a place if it stands by itself, and every other place is behind its end. -/
theorem hasPlaceAt_occurrence_append {name : Text} {stands : Bool} {parts : List (Option Char)}
    {offset : Nat} :
    HasPlaceAt name ((if stands then [none] else name.map some) ++ parts) offset
      ↔ (stands = true ∧ offset = 0)
        ∨ ∃ rest, offset = name.length + rest ∧ HasPlaceAt name parts rest := by
  cases stands with
  | true => simpa using hasPlaceAt_none_cons
  | false => simpa using hasPlaceAt_map_some_append

/-- A name stands by itself between two texts if it is glued to neither. -/
theorem standsAt_append_iff {name before behind : Text} :
    StandsAt name (before ++ (name ++ behind)) before.length
      ↔ standsAlone name before.getLast? behind = true := by
  have hoccurs : name <+: (before ++ (name ++ behind)).drop before.length := by
    rw [List.drop_left]
    exact List.prefix_append name behind
  have hdrop : (before ++ (name ++ behind)).drop (before.length + name.length) = behind := by
    rw [← List.append_assoc, ← List.length_append, List.drop_left]
  constructor
  · rintro ⟨-, halone⟩
    rwa [List.take_left, hdrop] at halone
  · intro halone
    exact ⟨hoccurs, by rwa [List.take_left, hdrop]⟩

/-- **Behind a clear place a name has its places where it is met and stands by itself.** -/
theorem hasPlaceAt_placesAfter {name before rest : Text} (hne : name ≠ [])
    (hclear : IsClearAt name (before ++ rest) before.length) (offset : Nat) :
    HasPlaceAt name (placesAfter name before.getLast? rest) offset
      ↔ StandsAt name (before ++ rest) (before.length + offset)
        ∧ IsMetAt name (before ++ rest) (before.length + offset) := by
  generalize hprevious : before.getLast? = previous
  fun_induction placesAfter name previous rest generalizing before offset with
  | case1 previous =>
    refine iff_of_false ?_ ?_
    · rintro ⟨front, back, hparts, -⟩
      simp at hparts
    · rintro ⟨⟨hoccurs, -⟩, -⟩
      rw [List.append_nil, List.drop_eq_nil_of_le (Nat.le_add_right _ _)] at hoccurs
      exact hne (List.prefix_nil.mp hoccurs)
  | case2 previous c rest behind hfound ih =>
    rw [occurrence?_eq_some_iff hne] at hfound
    rw [hfound] at hclear ⊢
    have hmet : IsMetAt name (before ++ (name ++ behind)) before.length := by
      refine isMetAt_iff.mpr ⟨?_, hclear⟩
      rw [List.drop_left]
      exact List.prefix_append name behind
    -- the name belongs to the text in front of all further places
    have hplaces := fun clear rest =>
      @ih (before ++ name) clear rest (List.getLast?_append_of_ne_nil before hne)
    rw [List.append_assoc, List.length_append] at hplaces
    rw [hasPlaceAt_occurrence_append, ← hprevious, ← standsAt_append_iff]
    constructor
    · rintro (⟨hstands, rfl⟩ | ⟨rest, rfl, hrest⟩)
      · exact ⟨hstands, hmet⟩
      · rw [← Nat.add_assoc]
        exact (hplaces hmet.isClearAt_end rest).mp hrest
    · rintro ⟨hstands, hmetOffset⟩
      rcases Nat.eq_zero_or_pos offset with rfl | hpos
      · exact .inl ⟨hstands, rfl⟩
      · have hends := (isMetAt_iff.mp hmetOffset).2 _ (Nat.lt_add_of_pos_right hpos) hmet
        obtain ⟨rest, rfl⟩ := Nat.exists_eq_add_of_le (Nat.add_le_add_iff_left.mp hends)
        rw [← Nat.add_assoc] at hstands hmetOffset
        exact .inr ⟨rest, rfl, (hplaces hmet.isClearAt_end rest).mpr ⟨hstands, hmetOffset⟩⟩
  | case3 previous c rest hnone ih =>
    have hoccurs : ¬name <+: (before ++ c :: rest).drop before.length := by
      rw [List.drop_left]
      rintro ⟨behind, hbehind⟩
      rw [(occurrence?_eq_some_iff hne).mpr hbehind.symm] at hnone
      cases hnone
    -- the next character belongs to the text in front of all further places
    have hplaces := fun clear rest => @ih (before ++ [c]) clear rest List.getLast?_concat
    rw [List.append_assoc, List.length_append] at hplaces
    rw [hasPlaceAt_some_cons]
    constructor
    · rintro ⟨rest, rfl, hrest⟩
      rw [Nat.add_comm rest, ← Nat.add_assoc]
      exact (hplaces (hclear.succ hoccurs) rest).mp hrest
    · rintro ⟨hstands, hmetOffset⟩
      cases offset with
      | zero => exact absurd hstands.occurs hoccurs
      | succ rest =>
        rw [Nat.add_comm rest, ← Nat.add_assoc] at hstands hmetOffset
        exact ⟨rest, rfl, (hplaces (hclear.succ hoccurs) rest).mpr ⟨hstands, hmetOffset⟩⟩

/-- Parts that every name fills to the same text are the same. -/
theorem fillPlaces_ext {parts others : List (Option Char)}
    (h : ∀ name, fillPlaces name parts = fillPlaces name others) : parts = others := by
  -- a name of one character that differs from `c` tells a place from `c`
  have hdiffers : ∀ c : Char, ∃ d, d ≠ c := by
    intro c
    by_cases hc : c = 'a'
    · exact ⟨'b', by rw [hc]; decide⟩
    · exact ⟨'a', Ne.symm hc⟩
  induction parts generalizing others with
  | nil =>
    cases others with
    | nil => rfl
    | cons other more =>
      have hone := h ['a']
      cases other <;> cases hone
  | cons part rest ih =>
    cases others with
    | nil =>
      have hone := h ['a']
      cases part <;> cases hone
    | cons other more =>
      simp only [fillPlaces_cons] at h
      cases part with
      | none =>
        cases other with
        | none => rw [ih fun name => List.append_cancel_left (h name)]
        | some c =>
          obtain ⟨d, hd⟩ := hdiffers c
          exact absurd (List.cons.inj (h [d])).1 hd
      | some c =>
        cases other with
        | none =>
          obtain ⟨d, hd⟩ := hdiffers c
          exact absurd (List.cons.inj (h [d])).1.symm hd
        | some d =>
          obtain rfl : c = d := (List.cons.inj (h [])).1
          rw [ih fun name => List.append_cancel_left (h name)]

/-- The new name is put in the places of the old one. -/
theorem isReplacedAt_iff_hasPlaceAt {old text : Text} {place : Nat} :
    IsReplacedAt old text place ↔ HasPlaceAt old (tablePlaces old text) place := by
  constructor
  · rintro ⟨front, back, hplace, hfill⟩
    refine ⟨front, back, fillPlaces_ext fun new => ?_, hplace⟩
    rw [← renameTable_eq_fillPlaces, hfill]
  · rintro ⟨front, back, hparts, hplace⟩
    refine ⟨front, back, hplace, fun new => ?_⟩
    rw [renameTable_eq_fillPlaces, hparts]

section

variable {old : Text} (hne : old ≠ [])

include hne

/-- **The new name is put where the old one is met and stands by itself**, and nowhere else. -/
theorem isReplacedAt_iff {text : Text} {place : Nat} :
    IsReplacedAt old text place ↔ StandsAt old text place ∧ IsMetAt old text place := by
  have hplaces := @hasPlaceAt_placesAfter old [] text hne (fun _ h => absurd h (Nat.not_lt_zero _)) place
  rw [List.nil_append, List.length_nil, Nat.zero_add] at hplaces
  exact isReplacedAt_iff_hasPlaceAt.trans hplaces

/-- No place is missed exactly if every place that is met and overlaps a later one where the name stands by
itself is such a place too. -/
theorem replacesEvery_iff {text : Text} :
    ReplacesEvery old text ↔ ∀ met place, IsMetAt old text met → StandsAt old text place →
      met < place → place < met + old.length → StandsAt old text met := by
  constructor
  · intro hevery met place hmet hstands hlt hend
    by_contra hglued
    -- the place is not met, so that a replaced one overlaps it, and this is the one that is met
    have hmissed : ¬IsReplacedAt old text place := by
      rw [isReplacedAt_iff hne]
      rintro ⟨-, hmetPlace⟩
      have hends := (isMetAt_iff.mp hmetPlace).2 met hlt hmet
      omega
    refine hmissed (hevery place hstands ?_)
    intro earlier hearlier hreplaced
    rw [isReplacedAt_iff hne] at hreplaced
    by_contra hoverlaps
    have hsame := hmet.eq_of_lt hreplaced.2 ⟨Nat.le_of_lt hlt, hend⟩
      ⟨Nat.le_of_lt hearlier, Nat.lt_of_not_le hoverlaps⟩
    exact hglued (hsame ▸ hreplaced.1)
  · intro hmets place hstands hfree
    rw [isReplacedAt_iff hne]
    refine ⟨hstands, isMetAt_iff.mpr ⟨hstands.occurs, ?_⟩⟩
    intro earlier hearlier hmet
    by_contra hoverlaps
    have hstandsEarlier := hmets earlier place hmet hstands hearlier (Nat.lt_of_not_le hoverlaps)
    exact hoverlaps (hfree earlier hearlier ((isReplacedAt_iff hne).mpr ⟨hstandsEarlier, hmet⟩))

end

/-! ## Names that hide themselves -/

/-- Whether one occurrence of a name can hide another: the name overlaps itself so that the second occurrence
stands by itself behind the start of the first, which is glued to something in front or to the end of the
second. -/
def HidesItself (name : Text) : Prop :=
  ∃ lead overlap tail : Text, lead ≠ [] ∧ overlap ≠ [] ∧ name = lead ++ overlap ∧ name = overlap ++ tail
    ∧ standsAlone name lead.getLast? [] = true ∧ ∃ previous, standsAlone name previous tail = false

/-- What stands by itself in front of a text stands by itself at the end. -/
theorem standsAlone_nil {name behind : Text} {previous : Option Char}
    (h : standsAlone name previous behind = true) : standsAlone name previous [] = true := by
  rw [standsAlone, Bool.and_eq_true] at h
  rw [standsAlone, h.1]
  simp

/-- Only the first character behind a name matters to whether it stands by itself. -/
theorem standsAlone_append (name : Text) (previous : Option Char) {behind : Text} (h : behind ≠ [])
    (rest : Text) : standsAlone name previous (behind ++ rest) = standsAlone name previous behind := by
  rw [standsAlone, standsAlone, List.head?_append_of_ne_nil _ h]

/-- What two occurrences share is the start of the second one, and the rest of that is behind the first one. -/
theorem exists_tail_of_overlap {name rest behind : Text} {shift : Nat} (hpos : 0 < shift)
    (hshift : shift < name.length) (h : name.drop shift ++ rest = name ++ behind) :
    ∃ tail, tail ≠ [] ∧ name = name.drop shift ++ tail ∧ rest = tail ++ behind := by
  have hshorter : (name.drop shift).length < name.length := by
    rw [List.length_drop]
    omega
  obtain ⟨tail, htail⟩ : name.drop shift <+: name :=
    List.prefix_of_prefix_length_le ⟨rest, h⟩ ⟨behind, rfl⟩ (Nat.le_of_lt hshorter)
  refine ⟨tail, ?_, htail.symm, ?_⟩
  · rintro rfl
    rw [List.append_nil] at htail
    rw [htail] at hshorter
    exact Nat.lt_irrefl _ hshorter
  · have hsame : name.drop shift ++ rest = name.drop shift ++ (tail ++ behind) := by
      rw [h, ← List.append_assoc, htail]
    exact List.append_cancel_left hsame

/-- An occurrence that is glued and overlaps one that stands by itself shows a name that hides itself. -/
theorem hidesItself_of_overlap {name text : Text} {met place : Nat} (hmet : name <+: text.drop met)
    (hglued : ¬StandsAt name text met) (hstands : StandsAt name text place) (hlt : met < place)
    (hend : place < met + name.length) : HidesItself name := by
  obtain ⟨shift, rfl⟩ := Nat.exists_eq_add_of_le (Nat.le_of_lt hlt)
  have hpos : 0 < shift := by omega
  have hshift : shift < name.length := by omega
  obtain ⟨rest, hrest⟩ := id hmet
  obtain ⟨behind, hbehind⟩ := hstands.occurs
  rw [← List.drop_drop, ← hrest, List.drop_append_of_le_length (Nat.le_of_lt hshift)] at hbehind
  obtain ⟨tail, htailNe, htail, hrestTail⟩ := exists_tail_of_overlap hpos hshift hbehind.symm
  have hlead : name.take shift ≠ [] := by
    rw [Ne, ← List.length_eq_zero_iff, List.length_take]
    omega
  refine ⟨name.take shift, name.drop shift, tail, hlead, ?_, (List.take_append_drop shift name).symm,
    htail, ?_, (text.take met).getLast?, ?_⟩
  · rw [Ne, ← List.length_eq_zero_iff, List.length_drop]
    omega
  · -- the second occurrence stands behind the lead
    have halone := standsAlone_nil hstands.alone
    rwa [List.take_add, ← hrest, List.take_append_of_le_length (Nat.le_of_lt hshift),
      List.getLast?_append_of_ne_nil _ hlead] at halone
  · rw [← Bool.not_eq_true]
    intro halone
    refine hglued ⟨hmet, ?_⟩
    rw [← List.drop_drop, ← hrest, List.drop_left, hrestTail, standsAlone_append _ _ htailNe]
    exact halone

/-- What glues a name to something can be put in front of it so that the name does not start there. -/
theorem exists_front_of_not_standsAlone {name tail : Text} {previous : Option Char}
    (h : standsAlone name previous tail = false) :
    ∃ front : Text, standsAlone name front.getLast? tail = false
      ∧ ∀ (rest : Text) (earlier : Nat), earlier < front.length →
        ¬name <+: (front ++ rest).drop earlier := by
  cases hnone : standsAlone name none tail with
  | false => exact ⟨[], hnone, fun _ _ hlt => absurd hlt (Nat.not_lt_zero _)⟩
  | true =>
    -- it is the character in front that glues, and any other name character does so too
    obtain ⟨c, rest, rfl⟩ : ∃ c rest, name = c :: rest := by
      cases name with
      | nil => simp [standsAlone] at h
      | cons c rest => exact ⟨c, rest, rfl⟩
    have hc : isNameChar c = true := by
      cases hc : isNameChar c with
      | true => rfl
      | false =>
        simp only [standsAlone, List.head?_cons, Option.any_some, hc, Bool.false_and, Bool.not_false,
          Bool.true_and] at h hnone
        rw [h] at hnone
        cases hnone
    obtain ⟨mark, hmark, hne⟩ : ∃ mark, isNameChar mark = true ∧ c ≠ mark := by
      by_cases ha : c = 'a'
      · exact ⟨'b', by decide, by rw [ha]; decide⟩
      · exact ⟨'a', by decide, ha⟩
    refine ⟨[mark], by simp [standsAlone, hc, hmark], ?_⟩
    intro behind earlier hlt
    obtain rfl : earlier = 0 := Nat.lt_one_iff.mp hlt
    rintro ⟨more, hmore⟩
    exact hne (List.cons.inj hmore).1

/-- A name that hides itself is missed in some text. -/
theorem exists_missed_of_hidesItself {name : Text} (h : HidesItself name) :
    ∃ text met place, IsMetAt name text met ∧ StandsAt name text place ∧ met < place
      ∧ place < met + name.length ∧ ¬StandsAt name text met := by
  obtain ⟨lead, overlap, tail, hlead, hoverlap, hfirst, hsecond, halone, previous, hglued⟩ := h
  obtain ⟨front, hfront, hnone⟩ := exists_front_of_not_standsAlone hglued
  have hboth : name ++ tail = lead ++ name := by
    calc name ++ tail = lead ++ overlap ++ tail := by rw [← hfirst]
      _ = lead ++ (overlap ++ tail) := List.append_assoc lead overlap tail
      _ = lead ++ name := by rw [← hsecond]
  have htext : front ++ (name ++ tail) = front ++ lead ++ (name ++ []) := by
    rw [hboth, List.append_nil, List.append_assoc]
  refine ⟨front ++ (name ++ tail), front.length, (front ++ lead).length, ?_, ?_, ?_, ?_, ?_⟩
  · refine isMetAt_iff.mpr ⟨?_, ?_⟩
    · rw [List.drop_left]
      exact List.prefix_append name tail
    · intro earlier hearlier hmet
      exact absurd (isMetAt_iff.mp hmet).1 (hnone _ earlier hearlier)
  · rw [htext, standsAt_append_iff, List.getLast?_append_of_ne_nil _ hlead]
    exact halone
  · rw [List.length_append]
    exact Nat.lt_add_of_pos_right (List.length_pos_iff.mpr hlead)
  · have hlength := congrArg List.length hfirst
    rw [List.length_append] at hlength ⊢
    have hpos := List.length_pos_iff.mpr hoverlap
    omega
  · rw [standsAt_append_iff, hfront]
    exact Bool.false_ne_true

/-- A name between characters that are in no name does not hide itself. -/
theorem not_hidesItself_of_ends {name : Text} (hhead : name.head?.any isNameChar = false)
    (hlast : name.getLast?.any isNameChar = false) : ¬HidesItself name := by
  rintro ⟨lead, overlap, tail, -, -, -, -, -, previous, hglued⟩
  simp [standsAlone, hhead, hlast] at hglued

/-- A quoted name does not hide itself. -/
theorem Dialect.not_hidesItself_quote (dialect : Dialect) (name : Text) :
    ¬HidesItself (dialect.quote name) := by
  refine not_hidesItself_of_ends (by cases dialect <;> rfl) ?_
  rw [quote, List.getLast?_concat]
  cases dialect <;> rfl

/-- A name of name characters does not hide itself. -/
theorem Text.IsPlainName.not_hidesItself {name : Text} (h : name.IsPlainName) : ¬HidesItself name := by
  rintro ⟨lead, overlap, tail, hlead, -, rfl, -, halone, -⟩
  obtain ⟨c, rest, rfl⟩ := List.exists_cons_of_ne_nil hlead
  -- the second occurrence is glued to the lead
  have hhead : isNameChar c = true := h.2 c (by simp)
  have hlast : isNameChar ((c :: rest).getLast hlead) = true :=
    h.2 _ (List.mem_append_left _ (List.getLast_mem hlead))
  rw [standsAlone, List.getLast?_eq_some_getLast hlead] at halone
  simp [hhead, hlast] at halone

/-- **The law of renamed places.**  The new name is put exactly where the old one is met and stands by itself.
A text is renamed in every place, apart from those that overlap a replaced one, exactly if no occurrence that is
met and kept overlaps a place where the name stands by itself; and every text is, exactly if the name does not
hide itself. -/
theorem replacesEvery_law {old : Text} (hne : old ≠ []) :
    (∀ (text : Text) (place : Nat),
      IsReplacedAt old text place ↔ StandsAt old text place ∧ IsMetAt old text place)
    ∧ (∀ text : Text, ReplacesEvery old text
        ↔ ∀ met place, IsMetAt old text met → StandsAt old text place →
          met < place → place < met + old.length → StandsAt old text met)
    ∧ ((∀ text : Text, ReplacesEvery old text) ↔ ¬HidesItself old) := by
  refine ⟨fun text place => isReplacedAt_iff hne, fun text => replacesEvery_iff hne, ?_⟩
  constructor
  · intro hevery hhides
    obtain ⟨text, met, place, hmet, hstands, hlt, hend, hglued⟩ := exists_missed_of_hidesItself hhides
    exact hglued ((replacesEvery_iff hne).mp (hevery text) met place hmet hstands hlt hend)
  · intro hhides text
    rw [replacesEvery_iff hne]
    intro met place hmet hstands hlt hend
    by_contra hglued
    exact hhides (hidesItself_of_overlap (isMetAt_iff.mp hmet).1 hglued hstands hlt hend)

/-- A table with its schema, both in brackets, is replaced in every place of a statement. -/
theorem replacesEvery_quotedOrders :
    "[dbo].[orders]".toList ≠ []
    ∧ StandsAt "[dbo].[orders]".toList "UPDATE [dbo].[orders] SET x = [dbo].[orders].y".toList 30
    ∧ ReplacesEvery "[dbo].[orders]".toList "UPDATE [dbo].[orders] SET x = [dbo].[orders].y".toList := by
  have hne : "[dbo].[orders]".toList ≠ [] := by decide
  refine ⟨hne, ⟨by decide, by decide⟩, ?_⟩
  exact (replacesEvery_law hne).2.2.mpr (not_hidesItself_of_ends rfl rfl) _

/-- A table that is called like its schema is missed behind a database whose name ends in the same word: the
occurrence that is glued to the name of the database is kept, and hides the one that it overlaps. -/
theorem sales_of_sales_is_missed :
    StandsAt "sales.sales".toList "eu_sales.sales.sales".toList 9
    ∧ ¬ReplacesEvery "sales.sales".toList "eu_sales.sales.sales".toList
    ∧ renameTable "sales.sales".toList "sales.sales_2024".toList "eu_sales.sales.sales".toList
      = "eu_sales.sales.sales".toList := by
  have hstands : StandsAt "sales.sales".toList "eu_sales.sales.sales".toList 9 :=
    ⟨by decide, by decide⟩
  have hnone : mentionsTable "sales.sales".toList "eu_sales.sales.sales".toList = false := by
    decide +kernel
  have hkept : ∀ place, ¬IsReplacedAt "sales.sales".toList "eu_sales.sales.sales".toList place := by
    intro place hreplaced
    obtain ⟨front, back, hparts, -⟩ := isReplacedAt_iff_hasPlaceAt.mp hreplaced
    exact mentionsTable_eq_false_iff.mp hnone (by rw [hparts]; simp)
  refine ⟨hstands, ?_, renameTable_eq_self_iff.mpr (.inr hnone)⟩
  intro hevery
  exact hkept 9 (hevery 9 hstands fun earlier _ hreplaced => absurd hreplaced (hkept earlier))

end BulkDml
