import BulkDml.Sharding.Pragma
import Mathlib.Data.List.DropRight
import Mathlib.Data.List.TakeWhile

/-! # Reading pragma lines

A pragma line is written and read independently of each other.  A line is read as a pragma exactly if it
is the line of that pragma with line-break characters behind it, and this determines which pragmas survive
being written.  A command is rerouted by its first line alone: the text up to its first line feed.

* `Pragma.IsReadable` — pragmas whose line can be read back;
* `Pragma.parse?_eq_some_iff` — the lines that are read as a given pragma;
* `splitFirstLine_eq`, `reroute?_eq_some_iff` — the first line of a command, and what it makes of the rest;
* `Pragma.parse?_line_and_reroute?` — the law of writing, attaching and carrying out pragmas.
-/

namespace BulkDml

namespace Text

/-- Exactly a text that starts with `lead` has something after it. -/
theorem after?_eq_some_iff {lead text rest : Text} : after? lead text = some rest ↔ text = lead ++ rest := by
  constructor
  · exact eq_append_of_after?
  · rintro rfl
    exact after?_append lead rest

/-- A text is split at the first mark: the one that no other stands in front of. -/
theorem splitFirst_eq_some_iff {mark : Char} {text before after : Text} :
    splitFirst mark text = some (before, after) ↔ mark ∉ before ∧ text = before ++ mark :: after := by
  induction text generalizing before with
  | nil => simp
  | cons c rest ih =>
    by_cases hc : c = mark
    · -- the mark comes first, so that nothing stands in front of it
      subst hc
      rw [splitFirst, if_pos rfl, Option.some_inj, Prod.mk.injEq]
      cases before with
      | nil => simp
      | cons d tail =>
        constructor
        · rintro ⟨hnil, -⟩
          cases hnil
        · rintro ⟨hmark, hcons⟩
          obtain ⟨rfl, -⟩ := List.cons_eq_cons.mp hcons
          exact absurd List.mem_cons_self hmark
    · rw [splitFirst, if_neg hc, Option.map_eq_some_iff]
      constructor
      · rintro ⟨⟨first, last⟩, hsplit, hpair⟩
        obtain ⟨rfl, rfl⟩ := Prod.mk.injEq .. ▸ hpair
        obtain ⟨hmark, rfl⟩ := ih.mp hsplit
        exact ⟨by simp [hmark, Ne.symm hc], rfl⟩
      · rintro ⟨hmark, hcons⟩
        cases before with
        | nil =>
          obtain ⟨rfl, -⟩ := List.cons_eq_cons.mp hcons
          exact absurd rfl hc
        | cons d tail =>
          obtain ⟨rfl, rfl⟩ := List.cons_eq_cons.mp hcons
          rw [List.mem_cons, not_or] at hmark
          exact ⟨(tail, after), ih.mpr ⟨hmark.2, rfl⟩, rfl⟩

end Text

/-! ## Line breaks behind a line -/

/-- Whether a character is part of a line break. -/
def isBreakChar (c : Char) : Bool := c == '\r' || c == '\n'

/-- Whether a text ends in a character of a line break. -/
def Text.endsInBreak (text : Text) : Bool := text.getLast?.any isBreakChar

/-- The last character of a text that is not empty decides whether it ends in a line break. -/
theorem Text.endsInBreak_append {text : Text} (lead : Text) (h : text ≠ []) :
    Text.endsInBreak (lead ++ text) = Text.endsInBreak text := by
  rw [Text.endsInBreak, Text.endsInBreak, List.getLast?_append_of_ne_nil lead h]

namespace Pragma

/-- Line-break characters behind a text that does not end in one are all that is dropped. -/
theorem dropLineBreak_append {text breaks : Text} (hbreaks : ∀ c ∈ breaks, isBreakChar c = true)
    (h : Text.endsInBreak text = false) : dropLineBreak (text ++ breaks) = text := by
  show List.rdropWhile isBreakChar (text ++ breaks) = text
  induction breaks using List.reverseRecOn with
  | nil =>
    rw [List.append_nil, List.rdropWhile_eq_self_iff]
    intro hne
    rw [Text.endsInBreak, List.getLast?_eq_some_getLast hne] at h
    simpa using h
  | append_singleton breaks c ih =>
    rw [← List.append_assoc, List.rdropWhile_concat_pos isBreakChar _ c (hbreaks c (by simp))]
    apply ih
    intro d hd
    exact hbreaks d (List.mem_append_left _ hd)

/-- A line is what is left of it and the line-break characters that were dropped. -/
theorem exists_dropLineBreak_append (line : Text) :
    ∃ breaks, (∀ c ∈ breaks, isBreakChar c = true) ∧ line = dropLineBreak line ++ breaks := by
  refine ⟨List.rtakeWhile isBreakChar line, ?_, ?_⟩
  · intro c hc
    exact List.mem_rtakeWhile_imp hc
  · show line = List.rdropWhile isBreakChar line ++ List.rtakeWhile isBreakChar line
    rw [List.rdropWhile, List.rtakeWhile, ← List.reverse_append, List.takeWhile_append_dropWhile,
      List.reverse_reverse]

/-- What is left of a line ends in no line break. -/
theorem endsInBreak_dropLineBreak (line : Text) : Text.endsInBreak (dropLineBreak line) = false := by
  show Text.endsInBreak (List.rdropWhile isBreakChar line) = false
  by_cases hnil : List.rdropWhile isBreakChar line = []
  · rw [hnil]
    rfl
  · rw [Text.endsInBreak, List.getLast?_eq_some_getLast hnil]
    have hlast := List.rdropWhile_last_not isBreakChar line hnil
    simpa using hlast

/-! ## Lines of pragmas -/

/-- Whether the line of a pragma can be read back: it names two tables, there is no colon in their names,
and the line does not end in a line break already. -/
structure IsReadable (pragma : Pragma) : Prop where
  /-- The logical table is named. -/
  logical_ne_nil : pragma.logical ≠ []
  /-- The physical table is named. -/
  physical_ne_nil : pragma.physical ≠ []
  /-- No colon cuts the name of the logical table short. -/
  colon_notMem_logical : ':' ∉ pragma.logical
  /-- No colon starts a third name. -/
  colon_notMem_physical : ':' ∉ pragma.physical
  /-- The name of the physical table does not end in a line break. -/
  endsInBreak_physical : Text.endsInBreak pragma.physical = false

/-- A line ends as the name of the physical table does. -/
theorem endsInBreak_line {pragma : Pragma} (h : pragma.physical ≠ []) :
    Text.endsInBreak pragma.line = Text.endsInBreak pragma.physical := by
  have hline : pragma.line = (lead pragma.tag ++ pragma.logical ++ [':']) ++ pragma.physical := by
    rw [line, List.append_assoc _ [':'], List.singleton_append]
  rw [hline, Text.endsInBreak_append _ h]

/-- **Exactly the line of a readable pragma, with any line-break characters behind it, is read as the
pragma.** -/
theorem parse?_eq_some_iff {tag text : Text} {pragma : Pragma} :
    parse? tag text = some pragma
      ↔ pragma.tag = tag ∧ pragma.IsReadable
        ∧ ∃ breaks, (∀ c ∈ breaks, isBreakChar c = true) ∧ text = pragma.line ++ breaks := by
  constructor
  · intro hparse
    -- undo the steps of reading one by one, from the two names back to the line
    simp only [parse?, Option.bind_eq_bind, Option.bind_eq_some_iff, Prod.exists] at hparse
    obtain ⟨fields, hfields, logical, physical, hsplit, hcheck⟩ := hparse
    rw [Text.after?_eq_some_iff] at hfields
    obtain ⟨hcolon, rfl⟩ := Text.splitFirst_eq_some_iff.mp hsplit
    by_cases hnames : (logical.isEmpty || physical.isEmpty || physical.contains ':') = true
    · rw [if_pos hnames] at hcheck
      cases hcheck
    · rw [if_neg hnames] at hcheck
      cases hcheck
      simp only [Bool.or_eq_true, List.isEmpty_iff, List.contains_iff_mem, not_or] at hnames
      obtain ⟨⟨hlogical, hphysical⟩, hthird⟩ := hnames
      have hline : dropLineBreak text = line ⟨tag, logical, physical⟩ := by
        rw [hfields, line, List.append_assoc]
      have hends : Text.endsInBreak (line ⟨tag, logical, physical⟩) = Text.endsInBreak physical :=
        endsInBreak_line hphysical
      rw [← hline, endsInBreak_dropLineBreak] at hends
      obtain ⟨breaks, hbreaks, htext⟩ := exists_dropLineBreak_append text
      rw [hline] at htext
      exact ⟨rfl, ⟨hlogical, hphysical, hcolon, hthird, hends.symm⟩, breaks, hbreaks, htext⟩
  · rintro ⟨rfl, hreadable, breaks, hbreaks, rfl⟩
    have hends : Text.endsInBreak pragma.line = false := by
      rw [endsInBreak_line hreadable.physical_ne_nil]
      exact hreadable.endsInBreak_physical
    have hfields : (lead pragma.tag).after? pragma.line
        = some (pragma.logical ++ ':' :: pragma.physical) := by
      rw [Text.after?_eq_some_iff, line, List.append_assoc]
    have hsplit : Text.splitFirst ':' (pragma.logical ++ ':' :: pragma.physical)
        = some (pragma.logical, pragma.physical) :=
      Text.splitFirst_eq_some_iff.mpr ⟨hreadable.colon_notMem_logical, rfl⟩
    rw [parse?, dropLineBreak_append hbreaks hends, hfields]
    simp [hsplit, hreadable.logical_ne_nil, hreadable.physical_ne_nil,
      hreadable.colon_notMem_physical]

end Pragma

/-! ## The first line of a command -/

/-- The first line is the text in front of the first line feed, and the rest is the text behind it. -/
theorem splitFirstLine_eq (text : Text) :
    splitFirstLine text = (text.takeWhile (· ≠ '\n'), (text.dropWhile (· ≠ '\n')).tail) := by
  induction text with
  | nil => rfl
  | cons c rest ih =>
    by_cases hc : c = '\n'
    · subst hc
      rfl
    · have hkeep : decide (c ≠ '\n') = true := decide_eq_true hc
      simp only [List.takeWhile_cons, List.dropWhile_cons, hkeep, if_true]
      rw [splitFirstLine, Text.splitFirst, if_neg hc]
      rw [splitFirstLine] at ih
      cases hsplit : Text.splitFirst '\n' rest with
      | none =>
        rw [hsplit, Option.getD_none, Prod.mk.injEq] at ih
        rw [← ih.1, ← ih.2]
        rfl
      | some halves =>
        rw [hsplit, Option.getD_some] at ih
        rw [ih]
        rfl

/-- There is no line feed in a first line. -/
theorem newline_notMem_splitFirstLine (text : Text) : '\n' ∉ (splitFirstLine text).1 := by
  rw [splitFirstLine_eq]
  intro hmem
  simpa using List.mem_takeWhile_imp hmem

/-- A line without a line feed is split off the line feed behind it. -/
theorem splitFirstLine_append {line : Text} (h : '\n' ∉ line) (rest : Text) :
    splitFirstLine (line ++ '\n' :: rest) = (line, rest) := by
  rw [splitFirstLine, Text.splitFirst_eq_some_iff.mpr ⟨h, rfl⟩]
  rfl

/-- A command is rerouted exactly by the pragma that its first line is read as. -/
theorem reroute?_eq_some_iff {tag text rerouted : Text} :
    reroute? tag text = some rerouted
      ↔ ∃ pragma, Pragma.parse? tag (splitFirstLine text).1 = some pragma
          ∧ rerouted = renameTable pragma.logical pragma.physical (splitFirstLine text).2 := by
  rw [reroute?, Option.map_eq_some_iff]
  constructor
  · rintro ⟨pragma, hparse, rfl⟩
    exact ⟨pragma, hparse, rfl⟩
  · rintro ⟨pragma, hparse, rfl⟩
    exact ⟨pragma, hparse, rfl⟩

namespace Pragma

/-- A command with a pragma attached is the line of the pragma, a carriage return and the command. -/
theorem splitFirstLine_attach {pragma : Pragma} (h : '\n' ∉ pragma.line) (sql : Text) :
    splitFirstLine (pragma.attach sql) = (pragma.line ++ ['\r'], sql) := by
  have hreturn : '\n' ∉ pragma.line ++ ['\r'] := by simp [h]
  rw [← splitFirstLine_append hreturn sql, attach, List.append_assoc]
  rfl

/-- The line of a pragma is a single line if its tag and its names are. -/
theorem newline_notMem_line {pragma : Pragma} (htag : '\n' ∉ pragma.tag)
    (hlogical : '\n' ∉ pragma.logical) (hphysical : '\n' ∉ pragma.physical) : '\n' ∉ pragma.line := by
  simp [line, lead, htag, hlogical, hphysical]

/-- A readable pragma on a line of its own is carried out. -/
theorem reroute?_attach {pragma : Pragma} (hreadable : pragma.IsReadable) (hline : '\n' ∉ pragma.line)
    (sql : Text) :
    reroute? pragma.tag (pragma.attach sql)
      = some (renameTable pragma.logical pragma.physical sql) := by
  rw [reroute?_eq_some_iff, splitFirstLine_attach hline sql]
  refine ⟨pragma, ?_, rfl⟩
  rw [parse?_eq_some_iff]
  exact ⟨rfl, hreadable, ['\r'], List.all_eq_true.mp rfl, rfl⟩

/-- **Writing, attaching and carrying out pragmas.**  The line of a pragma is read as the pragma exactly if
it is readable.  If moreover there is no line feed in it, then the pragma is carried out in front of every
command, also of one that starts with further pragmas.  And a command is rerouted exactly if the text in
front of its first line feed is read as a pragma with the tag, and not touched otherwise. -/
theorem parse?_line_and_reroute? :
    (∀ pragma : Pragma, parse? pragma.tag pragma.line = some pragma ↔ pragma.IsReadable)
      ∧ (∀ pragma : Pragma, pragma.IsReadable → '\n' ∉ pragma.tag → '\n' ∉ pragma.logical →
          '\n' ∉ pragma.physical → ∀ sql,
            reroute? pragma.tag (pragma.attach sql)
              = some (renameTable pragma.logical pragma.physical sql))
      ∧ ∀ tag text : Text,
          (∀ rerouted, reroute? tag text = some rerouted
            ↔ ∃ pragma, parse? tag (text.takeWhile (· ≠ '\n')) = some pragma
                ∧ rerouted = renameTable pragma.logical pragma.physical
                    (text.dropWhile (· ≠ '\n')).tail)
          ∧ (parse? tag (text.takeWhile (· ≠ '\n')) = none →
              reroute? tag text = none ∧ reroute tag text = text) := by
  refine ⟨?_, ?_, ?_⟩
  · intro pragma
    rw [parse?_eq_some_iff]
    constructor
    · rintro ⟨-, hreadable, -⟩
      exact hreadable
    · intro hreadable
      exact ⟨rfl, hreadable, [], by simp, by simp⟩
  · intro pragma hreadable htag hlogical hphysical sql
    exact reroute?_attach hreadable (newline_notMem_line htag hlogical hphysical) sql
  · intro tag text
    constructor
    · intro rerouted
      rw [reroute?_eq_some_iff, splitFirstLine_eq]
    · intro hparse
      have hnone : reroute? tag text = none := by
        rw [reroute?, splitFirstLine_eq]
        simp only [hparse, Option.map_none]
      exact ⟨hnone, by rw [reroute, hnone, Option.getD_none]⟩

/-- The pragma that sends the orders to a table of their own. -/
def europeanOrders : Pragma := ⟨"SHARD".toList, "orders".toList, "orders_eu".toList⟩

/-- In front of a command that starts with a pragma already, `europeanOrders` is carried out, and the other
pragma is text of the command. -/
theorem reroute?_attach_europeanOrders :
    europeanOrders.IsReadable
      ∧ reroute? "SHARD".toList
          (europeanOrders.attach "-- SHARD:orders:old_orders\r\nDELETE FROM orders".toList)
        = some "-- SHARD:orders_eu:old_orders\r\nDELETE FROM orders_eu".toList := by
  have hreadable : europeanOrders.IsReadable :=
    ⟨by decide, by decide, by decide, by decide, by decide⟩
  have hrenamed : renameTable europeanOrders.logical europeanOrders.physical
      "-- SHARD:orders:old_orders\r\nDELETE FROM orders".toList
      = "-- SHARD:orders_eu:old_orders\r\nDELETE FROM orders_eu".toList := by
    decide +kernel
  refine ⟨hreadable, ?_⟩
  rw [← hrenamed]
  exact parse?_line_and_reroute?.2.1 europeanOrders hreadable (by decide) (by decide) (by decide) _

end Pragma

end BulkDml
