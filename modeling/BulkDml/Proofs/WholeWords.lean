import BulkDml.Proofs.PieceCut
import BulkDml.Proofs.StandingPlaces

/-! # Words around a table's name

The dollar and number signs are characters of a word, but no name characters.  The places of a one-word name never
reach over the end of a piece, so that a text is renamed piece by piece; yet inside of a longer word a name next to
one of these signs stands by itself, and is replaced there.

* `Text.IsWord`, `wordsOf` — names of one word, and the words of a text;
* `Lexeme.EndsBefore.isWordCut` — no word goes on from a piece to the text behind it;
* `tablePlaces_textOf`, `renameTable_eq_flatMap_lex` — pieces are renamed apart;
* `RenamesIn`, `SparesOtherWords` — parts of a text that are renamed, and texts of which no other word is;
* `renamesIn_iff_mentionsTable` — a word of a text is renamed where it would be by itself;
* `sparesOtherWords_law` — the texts of which no other word is renamed.
-/

namespace BulkDml

/-- Whether a name is one word. -/
def Text.IsWord (name : Text) : Prop := name ≠ [] ∧ ∀ c ∈ name, isWordChar c = true

/-- The characters of a piece that is a word. -/
def Lexeme.word? : Lexeme → Option Text
  | word run => some run
  | _ => none

/-- The words of a text, in order. -/
def wordsOf (dialect : Dialect) (text : Text) : List Text := (lex dialect text).filterMap Lexeme.word?

/-- Whether a renaming replaces something in a part of a text. -/
def RenamesIn (old text : Text) (start length : Nat) : Prop :=
  ∃ place, IsReplacedAt old text place ∧ place < start + length ∧ start < place + old.length

/-- Whether a renaming replaces nothing in a word of a text, unless the whole word is the old name. -/
def SparesOtherWords (dialect : Dialect) (old text : Text) : Prop :=
  ∀ (before behind : List Lexeme) (run : Text), lex dialect text = before ++ .word run :: behind →
    RenamesIn old text (textOf before).length run.length → run = old

/-- The words of a text are its pieces of this kind. -/
theorem mem_wordsOf_iff {dialect : Dialect} {text run : Text} :
    run ∈ wordsOf dialect text ↔ .word run ∈ lex dialect text := by
  rw [wordsOf, List.mem_filterMap]
  constructor
  · rintro ⟨piece, hpiece, hrun⟩
    cases piece with
    | word found =>
      obtain rfl : found = run := Option.some_inj.mp hrun
      exact hpiece
    | _ => cases hrun
  · intro h
    exact ⟨.word run, h, rfl⟩

/-- Name characters are word characters. -/
theorem isWordChar_of_isNameChar {c : Char} (h : isNameChar c = true) : isWordChar c = true := by
  simp only [isNameChar, isWordChar, Bool.or_eq_true] at h ⊢
  exact .inl (.inl h)

/-! ## Renaming piece by piece -/

/-- No word goes on from a piece to the text behind it. -/
theorem Lexeme.EndsBefore.isWordCut {dialect : Dialect} {piece : Lexeme} {after : Text}
    (h : piece.EndsBefore dialect after) :
    piece.text.getLast?.any isWordChar = false ∨ after.head?.any isWordChar = false := by
  cases piece with
  | word run =>
    have hafter := h.2.2
    cases after with
    | nil => exact .inr rfl
    | cons c rest => exact .inr (by simpa using hafter)
  | quoted run =>
    obtain ⟨name, ⟨rfl, -⟩ | ⟨-, rfl⟩⟩ := h
    · rw [text, Dialect.quote, List.getLast?_concat]
      exact .inl (by cases dialect <;> rfl)
    · exact .inr rfl
  | literal run =>
    obtain ⟨content, ⟨rfl, -⟩ | ⟨-, rfl⟩⟩ := h
    · rw [text, Value.textLiteral, List.getLast?_concat]
      exact .inl rfl
    · exact .inr rfl
  | comment run =>
    obtain ⟨line, -, rfl | ⟨-, rfl⟩⟩ := h
    · rw [text, ← List.cons_append, ← List.cons_append, List.getLast?_concat]
      exact .inl rfl
    · exact .inr rfl
  | other c => exact .inl h.2.2.1

/-- Pieces with the old name in all of its places are the text itself. -/
theorem fillPlaces_flatMap_tablePlaces (name : Text) (pieces : List Lexeme) :
    fillPlaces name (pieces.flatMap fun piece => tablePlaces name piece.text) = textOf pieces := by
  induction pieces with
  | nil => rfl
  | cons piece rest ih => rw [List.flatMap_cons, fillPlaces_append, fillPlaces_tablePlaces, ih, textOf_cons]

section

variable {old : Text} (hold : old.IsWord)

include hold

/-- **A name of one word has its places in the pieces of a text.** -/
theorem tablePlaces_textOf {dialect : Dialect} {pieces : List Lexeme} (h : Lexeme.IsSplit dialect pieces) :
    tablePlaces old (textOf pieces) = pieces.flatMap fun piece => tablePlaces old piece.text := by
  induction pieces with
  | nil =>
    rw [textOf_nil, tablePlaces, placesAfter]
    rfl
  | cons piece rest ih =>
    rw [Lexeme.isSplit_cons] at h
    rw [textOf_cons, tablePlaces_append (fun _ => isWordChar_of_isNameChar) hold.2 h.1.isWordCut, ih h.2,
      List.flatMap_cons]

/-- **Pieces are renamed apart.** -/
theorem renameTable_eq_flatMap_lex (dialect : Dialect) (new text : Text) :
    renameTable old new text = (lex dialect text).flatMap fun piece => renameTable old new piece.text := by
  have hplaces := tablePlaces_textOf hold (Lexeme.isSplit_lex dialect text)
  rw [textOf_lex] at hplaces
  simp only [renameTable_eq_fillPlaces]
  rw [hplaces, fillPlaces, List.flatMap_assoc]
  rfl

/-- **A word of a text is renamed where it would be by itself.** -/
theorem renamesIn_iff_mentionsTable {dialect : Dialect} {text run : Text} {before behind : List Lexeme}
    (h : lex dialect text = before ++ .word run :: behind) :
    RenamesIn old text (textOf before).length run.length ↔ mentionsTable old run = true := by
  have hpos : 0 < old.length := List.length_pos_iff.mpr hold.1
  have hplaces := tablePlaces_textOf hold (Lexeme.isSplit_lex dialect text)
  rw [textOf_lex, h, List.flatMap_append, List.flatMap_cons] at hplaces
  rw [mentionsTable, List.contains_iff_mem, ← @exists_hasPlaceAt_iff old]
  constructor
  · rintro ⟨place, hreplaced, hend, hstart⟩
    rw [isReplacedAt_iff_hasPlaceAt, hplaces, hasPlaceAt_append_iff, fillPlaces_flatMap_tablePlaces] at hreplaced
    rcases hreplaced with hbefore | ⟨offset, rfl, hrest⟩
    · -- what is in front of the word ends in front of it
      have hends := hbefore.add_length_le
      rw [fillPlaces_flatMap_tablePlaces] at hends
      omega
    · rcases hasPlaceAt_append_iff.mp hrest with hrun | ⟨more, rfl, -⟩
      · exact ⟨offset, hrun⟩
      · rw [fillPlaces_tablePlaces, Lexeme.text] at hend
        omega
  · rintro ⟨offset, hrun⟩
    have hends := hrun.add_length_le
    rw [fillPlaces_tablePlaces] at hends
    refine ⟨(textOf before).length + offset, ?_, by omega, by omega⟩
    rw [isReplacedAt_iff_hasPlaceAt, hplaces, hasPlaceAt_append_iff, fillPlaces_flatMap_tablePlaces]
    exact .inr ⟨offset, rfl, hasPlaceAt_append_iff.mpr (.inl hrun)⟩

/-- **No other word of a text is renamed exactly if none holds a place of the name.** -/
theorem sparesOtherWords_iff {dialect : Dialect} {text : Text} :
    SparesOtherWords dialect old text
      ↔ ∀ run ∈ wordsOf dialect text, mentionsTable old run = true → run = old := by
  constructor
  · intro h run hrun hmentions
    obtain ⟨before, behind, hlex⟩ := List.append_of_mem (mem_wordsOf_iff.mp hrun)
    exact h before behind run hlex ((renamesIn_iff_mentionsTable hold hlex).mpr hmentions)
  · intro h before behind run hlex hrenames
    have hrun : .word run ∈ lex dialect text := by
      rw [hlex]
      simp
    exact h run (mem_wordsOf_iff.mpr hrun) ((renamesIn_iff_mentionsTable hold hlex).mp hrenames)

end

/-! ## Names in longer words -/

/-- A name stands by itself in a text exactly if a renaming meets it somewhere, glued to nothing. -/
theorem mentionsTable_eq_true_iff_exists {name text : Text} (hne : name ≠ []) :
    mentionsTable name text = true ↔ ∃ place, IsMetAt name text place ∧ StandsAt name text place := by
  rw [mentionsTable, List.contains_iff_mem, ← @exists_hasPlaceAt_iff name]
  refine exists_congr fun place => ?_
  rw [← isReplacedAt_iff_hasPlaceAt, isReplacedAt_iff hne, and_comm]

/-- Every name of one word stands by itself in a longer word. -/
theorem exists_mentionsTable_cons {old : Text} (hold : old.IsWord) :
    ∃ mark, isWordChar mark = true ∧ mentionsTable old (mark :: old) = true := by
  -- a sign that does not start the name
  obtain ⟨mark, hword, hname, hhead⟩ : ∃ mark, isWordChar mark = true ∧ isNameChar mark = false
      ∧ old.head? ≠ some mark := by
    by_cases hhead : old.head? = some '#'
    · exact ⟨'$', by decide, by decide, by rw [hhead]; decide⟩
    · exact ⟨'#', by decide, by decide, hhead⟩
  have hplaces : tablePlaces old ([mark] ++ old) = [mark].map some ++ [none] := by
    refine placesAfter_append_self hold.1 ?_ (by simpa using hname)
    simpa using hhead
  refine ⟨mark, hword, ?_⟩
  rw [mentionsTable, List.contains_iff_mem, ← List.singleton_append, hplaces]
  simp

/-- A text of one word has this word. -/
theorem wordsOf_word (dialect : Dialect) {run : Text} (h : run.IsWord) : wordsOf dialect run = [run] := by
  have hends : (Lexeme.word run).EndsBefore dialect [] := ⟨h.1, h.2, rfl⟩
  have hlex : lex dialect run = [.word run] := Lexeme.lex_text hends
  rw [wordsOf, hlex]
  rfl

/-- **The law of whole words.**  A text is renamed piece by piece.  So the new name is put into no other word than
the old name exactly if each of these words by itself stays as it is, which is so if the old name stands by itself
nowhere in it where the renaming meets it; and a name of name characters, if it is no longest run of such in one of
these words.  This holds for every text whose words are of name characters alone, and for no name it holds for
every text. -/
theorem sparesOtherWords_law (dialect : Dialect) {old : Text} (hold : old.IsWord) :
    (∀ new text : Text,
      renameTable old new text = (lex dialect text).flatMap fun piece => renameTable old new piece.text)
    ∧ (∀ new text : Text, new ≠ old → (SparesOtherWords dialect old text
        ↔ ∀ run ∈ wordsOf dialect text, renameTable old new run ≠ run → run = old))
    ∧ (∀ text : Text, SparesOtherWords dialect old text
        ↔ ∀ run ∈ wordsOf dialect text, run ≠ old →
          ∀ place, IsMetAt old run place → ¬StandsAt old run place)
    ∧ (old.IsPlainName → ∀ text : Text, SparesOtherWords dialect old text
        ↔ ∀ run ∈ wordsOf dialect text, old ∈ nameRuns run → run = old)
    ∧ (∀ text : Text, (∀ run ∈ wordsOf dialect text, ∀ c ∈ run, isNameChar c = true) →
        SparesOtherWords dialect old text)
    ∧ ∃ text : Text, ¬SparesOtherWords dialect old text := by
  refine ⟨renameTable_eq_flatMap_lex hold dialect, ?_, ?_, ?_, ?_, ?_⟩
  · intro new text hne
    rw [sparesOtherWords_iff hold]
    refine forall₂_congr fun run _ => ?_
    rw [Ne, renameTable_eq_self_iff, or_iff_right hne.symm, Bool.not_eq_false]
  · intro text
    rw [sparesOtherWords_iff hold]
    refine forall₂_congr fun run _ => ?_
    rw [mentionsTable_eq_true_iff_exists hold.1, ← not_imp_not]
    simp
  · intro hplain text
    rw [sparesOtherWords_iff hold]
    refine forall₂_congr fun run _ => ?_
    rw [mentionsTable_eq_true_iff_mem_nameRuns hplain]
  · intro text hchars
    rw [sparesOtherWords_iff hold]
    intro run hrun hmentions
    by_contra hne
    -- a word of name characters has no place of another name
    have hnone : mentionsTable old run = false := by
      rw [mentionsTable_eq_false_iff, tablePlaces_word (Ne.symm hne) (hchars run hrun)]
      simp
    rw [hnone] at hmentions
    cases hmentions
  · obtain ⟨mark, hmark, hmentions⟩ := exists_mentionsTable_cons hold
    have hword : Text.IsWord (mark :: old) :=
      ⟨List.cons_ne_nil _ _, List.forall_mem_cons.mpr ⟨hmark, hold.2⟩⟩
    refine ⟨mark :: old, ?_⟩
    rw [sparesOtherWords_iff hold, wordsOf_word dialect hword]
    intro h
    exact List.cons_ne_self mark old (h _ List.mem_cons_self hmentions)

/-- A table is renamed beside tables of longer names, with the signs that are in no name. -/
theorem sparesOtherWords_ordersArchive :
    Text.IsWord "orders".toList ∧ Text.IsPlainName "orders".toList
    ∧ SparesOtherWords .sqlServer "orders".toList
        "DELETE FROM orders WHERE id = orders_archive$1.id".toList
    ∧ renameTable "orders".toList "orders_2024".toList
        "DELETE FROM orders WHERE id = orders_archive$1.id".toList
      = "DELETE FROM orders_2024 WHERE id = orders_archive$1.id".toList := by
  have hold : Text.IsWord "orders".toList := ⟨by decide, List.all_eq_true.mp rfl⟩
  have hplain : Text.IsPlainName "orders".toList := ⟨by decide, List.all_eq_true.mp rfl⟩
  refine ⟨hold, hplain, ((sparesOtherWords_law .sqlServer hold).2.2.2.1 hplain _).mpr ?_, ?_⟩
  · decide +kernel
  · decide +kernel

/-- A temporary table is renamed with the table whose name it has behind its number sign. -/
theorem temporary_table_is_renamed :
    Text.IsWord "orders".toList
    ∧ wordsOf .sqlServer "DELETE FROM #orders\nWHERE id = 1".toList
      = ["DELETE".toList, "FROM".toList, "#orders".toList, "WHERE".toList, "id".toList, "1".toList]
    ∧ ¬SparesOtherWords .sqlServer "orders".toList "DELETE FROM #orders\nWHERE id = 1".toList
    ∧ renameTable "orders".toList "orders_2024".toList "DELETE FROM #orders\nWHERE id = 1".toList
      = "DELETE FROM #orders_2024\nWHERE id = 1".toList := by
  have hold : Text.IsWord "orders".toList := ⟨by decide, List.all_eq_true.mp rfl⟩
  refine ⟨hold, by decide +kernel, ?_, by decide +kernel⟩
  rw [sparesOtherWords_iff hold]
  decide +kernel

end BulkDml
