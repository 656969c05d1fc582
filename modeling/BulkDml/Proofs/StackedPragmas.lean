import BulkDml.Proofs.NameRuns
import BulkDml.Session

/-! # Stacked pragmas

Pragmas of several tags can stand on top of each other, and a session that reroutes for these tags carries them out
one after the other.  Each of them renames its table in all that stands below its line, in the lines of the further
pragmas as well as in the command.

* `Pragma.words`, `Pragma.rename` — what a pragma consists of, and a pragma with a table renamed in it;
* `Pragma.stack` — a command below the lines of several pragmas;
* `Pragma.renameTable_attach`, `Pragma.renameTable_stack` — renaming below a line renames pragmas as pragmas;
* `Pragma.reroute_attach`, `Pragma.rerouteAll_stack` — one pragma, and a stack of them, carried out;
* `Pragma.rerouteAll_stack_law` — stacks of plain names, and texts that start with no pragma.
-/

namespace BulkDml

/-- A plain name does not end in a line break. -/
theorem Text.IsPlainName.endsInBreak {name : Text} (h : name.IsPlainName) : Text.endsInBreak name = false := by
  have hreturn : '\r' ∉ name := notMem_of_isPlainName h rfl
  have hfeed : '\n' ∉ name := notMem_of_isPlainName h rfl
  have hlast := List.getLast_mem h.1
  rw [Text.endsInBreak, List.getLast?_eq_some_getLast h.1, Option.any_some, isBreakChar,
    Bool.or_eq_false_iff, beq_eq_false_iff_ne, beq_eq_false_iff_ne]
  exact ⟨ne_of_mem_of_not_mem hlast hreturn, ne_of_mem_of_not_mem hlast hfeed⟩

namespace Pragma

/-- What a pragma consists of: its tag and its two tables. -/
def words (pragma : Pragma) : List Text := [pragma.tag, pragma.logical, pragma.physical]

/-- Whether the tag and the tables of a pragma consist of name characters. -/
def IsPlain (pragma : Pragma) : Prop := ∀ word ∈ pragma.words, word.IsPlainName

instance (pragma : Pragma) : Decidable pragma.IsPlain :=
  inferInstanceAs (Decidable (∀ word ∈ pragma.words, word.IsPlainName))

/-- The pragma with a table renamed in its tag and in its tables. -/
def rename (old new : Text) (pragma : Pragma) : Pragma :=
  ⟨renameTable old new pragma.tag, renameTable old new pragma.logical, renameTable old new pragma.physical⟩

/-- A command below the lines of pragmas, the first one on top. -/
def stack (pragmas : List Pragma) (sql : Text) : Text := pragmas.foldr attach sql

/-- A command in which the tables of pragmas are renamed, one after the other. -/
def renameAll (pragmas : List Pragma) (sql : Text) : Text :=
  pragmas.foldl (fun text pragma => renameTable pragma.logical pragma.physical text) sql

/-- Whether no pragma renames anything in the line of a later one: its logical table is no longest run of name
characters there. -/
def AreApart (pragmas : List Pragma) : Prop :=
  pragmas.Pairwise fun earlier later => ∀ word ∈ later.words, earlier.logical ∉ nameRuns word

@[simp] theorem stack_nil (sql : Text) : stack [] sql = sql := rfl

@[simp] theorem stack_cons (pragma : Pragma) (rest : List Pragma) (sql : Text) :
    stack (pragma :: rest) sql = pragma.attach (stack rest sql) := rfl

@[simp] theorem renameAll_nil (sql : Text) : renameAll [] sql = sql := rfl

@[simp] theorem renameAll_cons (pragma : Pragma) (rest : List Pragma) (sql : Text) :
    renameAll (pragma :: rest) sql
      = renameAll rest (renameTable pragma.logical pragma.physical sql) := rfl

/-! ## Renaming below a line -/

section

variable {old : Text} (hold : old.IsPlainName) (new : Text)

include hold

/-- The marks around the words of a pragma are in no name, so that the words are renamed one by one. -/
theorem renameTable_line (pragma : Pragma) :
    renameTable old new pragma.line = (pragma.rename old new).line := by
  have hcut : ∀ (mark : Char), isNameChar mark = false → ∀ left right : Text,
      renameTable old new (left ++ mark :: right)
        = renameTable old new left ++ mark :: renameTable old new right :=
    fun mark hmark => renameTable_append_cons (notMem_of_isPlainName hold hmark) hmark new
  have hhyphens : renameTable old new ['-', '-'] = ['-', '-'] := by
    have hhyphen : isNameChar '-' = false := rfl
    rw [renameTable_eq_fillPlaces, tablePlaces_of_no_nameChar hold (by simp [hhyphen]), fillPlaces_map_some]
  have hline : ∀ tag logical physical : Text, line ⟨tag, logical, physical⟩
      = ['-', '-'] ++ ' ' :: (tag ++ ':' :: (logical ++ ':' :: physical)) := by
    intro tag logical physical
    simp [line, lead]
  rw [rename, hline, hline, hcut ' ' rfl, hcut ':' rfl, hcut ':' rfl, hhyphens]

/-- **Renaming a command with a pragma renames the pragma and the command.** -/
theorem renameTable_attach (pragma : Pragma) (sql : Text) :
    renameTable old new (pragma.attach sql)
      = (pragma.rename old new).attach (renameTable old new sql) := by
  have hreturn : '\r' ∉ old := notMem_of_isPlainName hold rfl
  have hfeed : '\n' ∉ old := notMem_of_isPlainName hold rfl
  have hbreak : renameTable old new ('\n' :: sql) = '\n' :: renameTable old new sql := by
    have hcut := renameTable_append_cons hfeed rfl new [] sql
    have hnil : renameTable old new [] = [] := renameAfter_nil old new none
    rwa [hnil, List.nil_append, List.nil_append] at hcut
  rw [attach, attach, renameTable_append_cons hreturn rfl, renameTable_line hold new, hbreak]

/-- Renaming a stack renames all of its pragmas and the command. -/
theorem renameTable_stack (pragmas : List Pragma) (sql : Text) :
    renameTable old new (stack pragmas sql)
      = stack (pragmas.map (rename old new)) (renameTable old new sql) := by
  induction pragmas with
  | nil => rfl
  | cons pragma rest ih => rw [stack_cons, renameTable_attach hold new, ih, List.map_cons, stack_cons]

/-- A pragma stays as it is if the old name is no run of its words. -/
theorem rename_of_notMem {pragma : Pragma} (h : ∀ word ∈ pragma.words, old ∉ nameRuns word) :
    pragma.rename old new = pragma := by
  have hkept : ∀ word ∈ pragma.words, renameTable old new word = word :=
    fun word hword => renameTable_of_notMem_nameRuns hold (h word hword) new
  rw [rename, hkept _ (by simp [words]), hkept _ (by simp [words]), hkept _ (by simp [words])]

end

/-! ## Carrying out a stack -/

/-- The tag and the tables of a plain pragma are plain names. -/
theorem IsPlain.isPlainName {pragma : Pragma} (h : pragma.IsPlain) :
    pragma.tag.IsPlainName ∧ pragma.logical.IsPlainName ∧ pragma.physical.IsPlainName := by
  simpa [IsPlain, words] using h

/-- Plain pragmas can be read back. -/
theorem IsPlain.isReadable {pragma : Pragma} (h : pragma.IsPlain) : pragma.IsReadable := by
  obtain ⟨-, hlogical, hphysical⟩ := h.isPlainName
  exact ⟨hlogical.1, hphysical.1, notMem_of_isPlainName hlogical rfl, notMem_of_isPlainName hphysical rfl,
    hphysical.endsInBreak⟩

/-- A plain pragma on top of a text is taken off, and renames its table in the text. -/
theorem reroute_attach {pragma : Pragma} (h : pragma.IsPlain) (sql : Text) :
    reroute pragma.tag (pragma.attach sql) = renameTable pragma.logical pragma.physical sql := by
  obtain ⟨htag, hlogical, hphysical⟩ := h.isPlainName
  have hline : '\n' ∉ pragma.line :=
    newline_notMem_line (notMem_of_isPlainName htag rfl) (notMem_of_isPlainName hlogical rfl)
      (notMem_of_isPlainName hphysical rfl)
  rw [reroute, reroute?_attach h.isReadable hline, Option.getD_some]

/-- **A stack of plain pragmas is carried out from the top**: every pragma is taken off and renames its table in
the command, and the pragmas below are the same as before. -/
theorem rerouteAll_stack {pragmas : List Pragma} (hplain : ∀ pragma ∈ pragmas, pragma.IsPlain)
    (hapart : AreApart pragmas) (sql : Text) :
    rerouteAll (pragmas.map (·.tag)) (stack pragmas sql) = renameAll pragmas sql := by
  induction pragmas generalizing sql with
  | nil => rfl
  | cons pragma rest ih =>
    rw [List.forall_mem_cons] at hplain
    obtain ⟨hfirst, hrest⟩ := List.pairwise_cons.mp hapart
    have hlogical : pragma.logical.IsPlainName := hplain.1.isPlainName.2.1
    have hkept : rest.map (rename pragma.logical pragma.physical) = rest := by
      refine (List.map_congr_left ?_).trans (List.map_id _)
      intro later hlater
      exact rename_of_notMem hlogical pragma.physical (hfirst later hlater)
    rw [List.map_cons, stack_cons, rerouteAll_cons, reroute_attach hplain.1,
      renameTable_stack hlogical, hkept, ih hplain.2 hrest, renameAll_cons]

/-- Tags that the first line has no pragma of leave a text untouched, each of them and all together. -/
theorem rerouteAll_of_none {tags : List Text} {text : Text}
    (h : ∀ tag ∈ tags, parse? tag (splitFirstLine text).1 = none) :
    (∀ tag ∈ tags, reroute? tag text = none) ∧ rerouteAll tags text = text := by
  have hnone : ∀ tag ∈ tags, reroute? tag text = none := by
    intro tag htag
    rw [reroute?]
    simp only [h tag htag, Option.map_none]
  refine ⟨hnone, ?_⟩
  clear h
  induction tags with
  | nil => rfl
  | cons tag rest ih =>
    rw [List.forall_mem_cons] at hnone
    rw [rerouteAll_cons, reroute, hnone.1, Option.getD_none, ih hnone.2]

/-- **The law of stacked pragmas.**  A session that reroutes for the tags of a stack of plain pragmas takes all of
their lines off and renames their tables in the command, one after the other from the top, if the table that a
pragma renames is no longest run of name characters in the lines below its own; parameters are bound in what is
left.  A text whose first line is a pragma of none of the tags is touched by none of them. -/
theorem rerouteAll_stack_law :
    (∀ pragmas : List Pragma, (∀ pragma ∈ pragmas, pragma.IsPlain) → AreApart pragmas → ∀ sql : Text,
        rerouteAll (pragmas.map (·.tag)) (stack pragmas sql) = renameAll pragmas sql
        ∧ ∀ (session : Session) (bindings : List Binding), session.tags = pragmas.map (·.tag) →
            session.prepare (stack pragmas sql) bindings = toPositional (renameAll pragmas sql) bindings)
    ∧ ∀ (tags : List Text) (text : Text),
        (∀ tag ∈ tags, parse? tag (text.takeWhile (· ≠ '\n')) = none) →
          (∀ tag ∈ tags, reroute? tag text = none) ∧ rerouteAll tags text = text := by
  constructor
  · intro pragmas hplain hapart sql
    have hstack := rerouteAll_stack hplain hapart sql
    refine ⟨hstack, ?_⟩
    intro session bindings htags
    rw [Session.prepare, htags, hstack]
  · intro tags text hnone
    refine rerouteAll_of_none ?_
    rwa [splitFirstLine_eq]

/-- The pragma that sends the European orders to the table of their year. -/
def yearlyOrders : Pragma := ⟨"YEAR".toList, "orders_eu".toList, "orders_eu_2024".toList⟩

/-- The second pragma goes on with the table that the first one has put in.  By itself, its tag does nothing to a
command that starts with the first one. -/
theorem rerouteAll_stack_yearlyOrders :
    (∀ pragma ∈ [europeanOrders, yearlyOrders], pragma.IsPlain)
      ∧ AreApart [europeanOrders, yearlyOrders]
      ∧ rerouteAll ["SHARD".toList, "YEAR".toList]
          (stack [europeanOrders, yearlyOrders] "DELETE FROM orders\nWHERE orders.id = 1".toList)
        = "DELETE FROM orders_eu_2024\nWHERE orders_eu_2024.id = 1".toList
      ∧ parse? "YEAR".toList "-- SHARD:orders:orders_eu\r".toList = none
      ∧ rerouteAll ["YEAR".toList] "-- SHARD:orders:orders_eu\r\nDELETE FROM orders".toList
        = "-- SHARD:orders:orders_eu\r\nDELETE FROM orders".toList := by
  have hplain : ∀ pragma ∈ [europeanOrders, yearlyOrders], pragma.IsPlain := by
    decide +kernel
  have hapart : AreApart [europeanOrders, yearlyOrders] := by
    unfold AreApart
    decide +kernel
  have hrenamed : renameAll [europeanOrders, yearlyOrders] "DELETE FROM orders\nWHERE orders.id = 1".toList
      = "DELETE FROM orders_eu_2024\nWHERE orders_eu_2024.id = 1".toList := by
    decide +kernel
  have hnone : parse? "YEAR".toList "-- SHARD:orders:orders_eu\r".toList = none := by
    decide +kernel
  refine ⟨hplain, hapart, ?_, hnone, ?_⟩
  · rw [← hrenamed]
    exact (rerouteAll_stack_law.1 _ hplain hapart _).1
  · exact (rerouteAll_stack_law.2 _ _ (List.forall_mem_singleton.mpr hnone)).2

end Pragma

end BulkDml
