import BulkDml.Proofs.Preamble
import BulkDml.Proofs.QueryLayout

/-! # White space in front of a source text

Declarations are told from the query by the first blank line behind the first line.  White space in front of
a text moves that line: one line break in front is passed over as the first line, and from two on the text
starts with a blank line that ends empty declarations, so that what is declared behind it is taken for part
of the query and lost.

* `splitAtBlankLine_append_cons` — a text is split around a filled line in front of it or behind it;
* `splitPreamble_blank_append` — the declarations of a text with white space in front;
* `SourceQuery.parse_eq` — the declarations have no part in how the query is read;
* `SourceQuery.AgreesUpToLead` — two outcomes that differ in white space in front of declarations at most;
* `SourceQuery.parse_blank_append_iff` — when white space in front of a text is irrelevant.
-/

namespace BulkDml

/-! ## Splitting around a filled line -/

/-- A text in front of a line that does not break it belongs to this line. -/
theorem exists_linesOf_append_cons {start : Text} (hstart : '\n' ∉ start) {c : Char} (hc : c ≠ '\n')
    (rest : Text) :
    ∃ tail lines, linesOf (c :: rest) = (c :: tail) :: lines
      ∧ linesOf (start ++ c :: rest) = (start ++ c :: tail) :: lines := by
  induction start with
  | nil =>
    have hline : '\n' ∉ [c] := by simpa using hc.symm
    obtain ⟨tail, lines, hlines⟩ := exists_linesOf_append (List.cons_ne_nil c []) hline rest
    exact ⟨tail, lines, hlines, hlines⟩
  | cons d more ih =>
    rw [List.mem_cons, not_or] at hstart
    obtain ⟨tail, lines, hlines, hmore⟩ := ih hstart.2
    refine ⟨tail, lines, hlines, ?_⟩
    rw [List.cons_append, linesOf, if_neg (Ne.symm hstart.1), hmore]
    rfl

/-- What stops a run in a list stops it there in every list that goes on behind. -/
theorem takeWhile_dropWhile_append_of_ne_nil {α : Type} {p : α → Bool} {items : List α}
    (h : items.dropWhile p ≠ []) (more : List α) :
    (items ++ more).takeWhile p = items.takeWhile p
      ∧ (items ++ more).dropWhile p = items.dropWhile p ++ more := by
  have hlength : (items.takeWhile p).length ≠ items.length := by
    intro hall
    have hsum := congrArg List.length (List.takeWhile_append_dropWhile (p := p) (l := items))
    rw [List.length_append] at hsum
    exact h (List.length_eq_zero_iff.mp (by omega))
  rw [List.takeWhile_append, List.dropWhile_append, if_neg hlength, if_neg (by simpa using h)]
  exact ⟨rfl, rfl⟩

/-- **A text is split in front of a filled line or behind it.**  Where a blank line is found up to some
character that is not blank, what stands behind does not matter; otherwise it is looked for from that
character on. -/
theorem splitAtBlankLine_append_cons (before : Text) {c : Char} (hc : isBlank c = false) (rest : Text) :
    splitAtBlankLine (before ++ c :: rest)
      = match splitAtBlankLine (before ++ [c]) with
        | some (head, behind) => some (head, behind ++ rest)
        | none => (splitAtBlankLine (c :: rest)).map fun (head, behind) => (before ++ head, behind) := by
  -- The line of `c` starts in `last` and ends in `tail`; only the lines in front of it can be blank.
  obtain ⟨whole, last, rfl, hlast, hwhole⟩ := exists_lastLine before
  have hbreak : c ≠ '\n' := by
    rintro rfl
    exact absurd hc (by decide)
  obtain ⟨tail, lines, hrest, hjoint⟩ := exists_linesOf_append_cons hlast hbreak rest
  have hlong : linesOf (whole ++ last ++ c :: rest)
      = linesOf whole ++ (last ++ c :: tail) :: lines := by
    rw [List.append_assoc, linesOf_whole_append hwhole, hjoint]
  have hshort : linesOf (whole ++ last ++ [c]) = linesOf whole ++ [last ++ [c]] := by
    have hline : '\n' ∉ last ++ [c] := by simp [hlast, Ne.symm hbreak]
    rw [List.append_assoc, linesOf_whole_append hwhole, linesOf_of_not_mem (by simp) hline]
  have hbehind : c :: rest = c :: tail ++ lines.flatten := by
    rw [← flatten_linesOf (c :: rest), hrest, List.flatten_cons]
  have hfilled : ∀ more : Text, (!Text.isAllBlank (last ++ c :: more)) = true := by
    intro more
    simp [hc]
  have hflatten := flatten_linesOf whole
  unfold splitAtBlankLine
  rw [hlong, hshort, hrest]
  cases hlines : linesOf whole with
  | nil =>
    -- `c` stands in the first line, which is not looked at
    rw [hlines] at hflatten
    obtain rfl : [] = whole := hflatten
    simp only [List.nil_append, List.takeWhile_nil, List.dropWhile_nil, List.isEmpty_nil, if_true]
    split <;> simp
  | cons first others =>
    rw [hlines, List.flatten_cons] at hflatten
    simp only [List.cons_append]
    by_cases hblank : others.dropWhile (fun line => !line.isAllBlank) = []
    · -- no line in front of that of `c` is blank, so that the search goes on behind it
      have hothers : ∀ line ∈ others, (!line.isAllBlank) = true := List.dropWhile_eq_nil_iff.mp hblank
      simp only [List.takeWhile_append_of_pos hothers, List.dropWhile_append_of_pos hothers,
        List.takeWhile_cons, List.dropWhile_cons, hfilled, if_true, List.takeWhile_nil,
        List.dropWhile_nil, List.isEmpty_nil]
      split
      · rfl
      · simp [← hflatten]
    · -- a blank line in front of that of `c` is the first one in any case
      simp only [takeWhile_dropWhile_append_of_ne_nil hblank, List.isEmpty_iff, List.append_eq_nil_iff,
        hblank, false_and, if_false]
      simp [hbehind]

/-- What is set apart of a text that starts with a filled line starts with it. -/
theorem exists_cons_of_splitAtBlankLine {c : Char} (hc : c ≠ '\n') {rest head behind : Text}
    (h : splitAtBlankLine (c :: rest) = some (head, behind)) :
    ∃ tail, head = c :: tail ∧ rest = tail ++ behind := by
  obtain ⟨happend, first, lines, more, hlines, rfl⟩ := append_of_splitAtBlankLine h
  have hline : '\n' ∉ [c] := by simpa using hc.symm
  obtain ⟨tail, others, hfirst⟩ := exists_linesOf_append (List.cons_ne_nil c []) hline rest
  obtain ⟨rfl, -⟩ := List.cons.inj (hlines.symm.trans hfirst)
  refine ⟨tail ++ more, rfl, ?_⟩
  simpa using happend.symm

/-! ## White space in front -/

/-- White space with one line break at most makes no blank line in front of a filled one. -/
theorem splitAtBlankLine_blank_concat {blanks : Text} (hcount : blanks.count '\n' ≤ 1) {c : Char}
    (hc : isBlank c = false) : splitAtBlankLine (blanks ++ [c]) = none := by
  have hbreak : c ≠ '\n' := by
    rintro rfl
    exact absurd hc (by decide)
  have hline : ∀ start : Text, '\n' ∉ start → linesOf (start ++ [c]) = [start ++ [c]] := by
    intro start hstart
    exact linesOf_of_not_mem (by simp) (by simp [hstart, hbreak.symm])
  by_cases hmem : '\n' ∈ blanks
  · -- the line break ends the first line, and the second is that of `c`
    obtain ⟨before, after, rfl, hbefore⟩ := List.eq_append_cons_of_mem hmem
    rw [List.count_append, List.count_cons_self] at hcount
    have hafter : '\n' ∉ after := List.count_eq_zero.mp (by omega)
    rw [splitAtBlankLine, List.append_assoc, List.cons_append, linesOf_append_newline,
      linesOf_newline hbefore, hline after hafter]
    simp [hc]
  · rw [splitAtBlankLine, hline blanks hmem]
    rfl

/-- White space with two line breaks or more holds a blank line, with white space in front of it. -/
theorem exists_splitAtBlankLine_blank_append {blanks : Text} (hblank : blanks.isAllBlank = true)
    (hcount : 2 ≤ blanks.count '\n') (rest : Text) :
    ∃ head behind, splitAtBlankLine (blanks ++ rest) = some (head, behind) ∧ head.isAllBlank = true := by
  obtain ⟨before, between, after, rfl, hbefore, hbetween⟩ := exists_two_newlines hcount
  simp only [Text.isAllBlank_append, Text.isAllBlank_cons, Bool.and_eq_true] at hblank
  have hlines : linesOf (before ++ '\n' :: (between ++ '\n' :: after) ++ rest)
      = (before ++ ['\n']) :: [] ++ (between ++ ['\n']) :: linesOf (after ++ rest) := by
    have hshape : before ++ '\n' :: (between ++ '\n' :: after) ++ rest
        = before ++ '\n' :: (between ++ '\n' :: (after ++ rest)) := by
      simp
    rw [hshape, linesOf_append_newline, linesOf_append_newline between, linesOf_newline hbefore,
      linesOf_newline hbetween]
    rfl
  refine ⟨_, _, splitAtBlankLine_of_lines hlines (by simp) (by simp [hblank]), ?_⟩
  simp [hblank]

/-- White space in front of a text is no part of a query. -/
theorem startsQuery_blank_append (dialect : Dialect) {blanks : Text} (hblank : blanks.isAllBlank = true)
    (text : Text) : startsQuery dialect (blanks ++ text) = startsQuery dialect text := by
  rw [startsQuery, startsQuery, lex_blank_append _ _ hblank, List.any_append]
  simp [Lexeme.isKeyword]

/-- A text of white space holds no declarations, and nothing is left of it. -/
theorem splitPreamble_blank (dialect : Dialect) {blanks : Text} (hblank : blanks.isAllBlank = true) :
    splitPreamble dialect blanks = (none, []) := by
  rw [splitPreamble, Text.trimStart_eq_nil_iff.mpr hblank]
  cases hsplit : splitAtBlankLine blanks with
  | none => rfl
  | some parts =>
    obtain ⟨rfl, -⟩ := append_of_splitAtBlankLine hsplit
    rw [Text.isAllBlank_append, Bool.and_eq_true] at hblank
    simp only [Text.trimEnd_eq_nil_iff.mpr hblank.1]
    rfl

/-- Without declarations, all of a text but the white space in front is the query. -/
theorem splitPreamble_snd_of_none {dialect : Dialect} {text : Text}
    (h : (splitPreamble dialect text).1 = none) : (splitPreamble dialect text).2 = text.trimStart := by
  revert h
  unfold splitPreamble
  dsimp only
  split
  · intro _
    rfl
  · split
    · intro _
      rfl
    · intro h
      cases h

/-- **Declarations with white space in front of them** keep it with one line break at most, and are lost
with more. -/
theorem splitPreamble_blank_append (dialect : Dialect) {blanks : Text}
    (hblank : blanks.isAllBlank = true) {c : Char} (hc : isBlank c = false) (rest : Text) :
    splitPreamble dialect (blanks ++ c :: rest)
      = if blanks.count '\n' ≤ 1 then
          ((splitPreamble dialect (c :: rest)).1.map (blanks ++ ·), (splitPreamble dialect (c :: rest)).2)
        else (none, c :: rest) := by
  have hstart : (blanks ++ c :: rest).trimStart = c :: rest := by
    rw [Text.trimStart_blank_append _ hblank, Text.trimStart_cons_of_not_blank _ hc]
  have hbreak : c ≠ '\n' := by
    rintro rfl
    exact absurd hc (by decide)
  by_cases hcount : blanks.count '\n' ≤ 1
  · rw [if_pos hcount, splitPreamble, splitPreamble, splitAtBlankLine_append_cons _ hc,
      splitAtBlankLine_blank_concat hcount hc, hstart, Text.trimStart_cons_of_not_blank _ hc]
    cases hsplit : splitAtBlankLine (c :: rest) with
    | none => rfl
    | some parts =>
      obtain ⟨head, behind⟩ := parts
      obtain ⟨tail, rfl, -⟩ := exists_cons_of_splitAtBlankLine hbreak hsplit
      -- the declarations start with `c`, so that the white space stays in front of them
      have hfilled : Text.isAllBlank (c :: tail) = false := by simp [hc]
      have hdeclarations : (blanks ++ c :: tail).trimEnd = blanks ++ Text.trimEnd (c :: tail) :=
        Text.trimEnd_append_of_not_blank _ hfilled
      have hne : Text.trimEnd (c :: tail) ≠ [] := by
        rw [Ne, Text.trimEnd_eq_nil_iff, hfilled]
        simp
      simp only [Option.map_some, hdeclarations, startsQuery_blank_append _ hblank,
        List.isEmpty_eq_false_iff.mpr hne,
        List.isEmpty_eq_false_iff.mpr (List.append_ne_nil_of_right_ne_nil blanks hne), Bool.false_or]
      split <;> rfl
  · -- the white space holds a blank line, and nothing is declared in front of it
    obtain ⟨head, behind, hsplit, hhead⟩ :=
      exists_splitAtBlankLine_blank_append hblank (by omega) (c :: rest)
    rw [if_neg hcount, splitPreamble, hsplit, hstart]
    simp only [Text.trimEnd_eq_nil_iff.mpr hhead]
    rfl

/-! ## Reading behind white space -/

namespace SourceQuery

/-- The pieces of a query are read alike behind all declarations. -/
theorem ofPieces_eq_map (preamble : Option Text) (pieces : List Lexeme) :
    ofPieces preamble pieces = (ofPieces none pieces).map fun query => { query with preamble } := by
  -- each check passes or fails without the declarations
  unfold ofPieces
  dsimp only
  repeat' split
  all_goals rfl

/-- A source text is read from the query behind its declarations. -/
theorem parse_eq (dialect : Dialect) (text : Text) :
    parse dialect text
      = match ofPieces none (lex dialect (splitPreamble dialect text).2) with
        | .ok query => .ok { query with preamble := (splitPreamble dialect text).1 }
        | .error cause => .error (.malformedQuery cause) := by
  unfold parse
  dsimp only
  rw [ofPieces_eq_map]
  cases ofPieces none (lex dialect (splitPreamble dialect text).2) <;> rfl

/-- Whether two source texts are refused for the same cause, or read to the same table, alias and condition,
with declarations that differ in the white space in front of them at most. -/
def AgreesUpToLead : Except CompileError SourceQuery → Except CompileError SourceQuery → Prop
  | .ok left, .ok right => left.table = right.table ∧ left.tableAlias = right.tableAlias
      ∧ left.whereClause = right.whereClause
      ∧ left.preamble.map Text.trimStart = right.preamble.map Text.trimStart
  | .error left, .error right => left = right
  | _, _ => False

/-- Texts that are read from the same query behind declarations that differ in white space agree. -/
theorem agreesUpToLead_of_body {dialect : Dialect} {text other : Text}
    (hbody : (splitPreamble dialect text).2 = (splitPreamble dialect other).2)
    (hpreamble : (splitPreamble dialect text).1.map Text.trimStart
      = (splitPreamble dialect other).1.map Text.trimStart) :
    AgreesUpToLead (parse dialect text) (parse dialect other) := by
  rw [parse_eq, parse_eq, hbody]
  cases ofPieces none (lex dialect (splitPreamble dialect other).2) with
  | error cause => rfl
  | ok query => exact ⟨rfl, rfl, rfl, hpreamble⟩

/-- Texts with declarations and without agree only if both are refused for the same cause. -/
theorem agreesUpToLead_iff_of_lost {dialect : Dialect} {text other declarations : Text}
    (htext : (splitPreamble dialect text).1 = none)
    (hother : (splitPreamble dialect other).1 = some declarations) :
    AgreesUpToLead (parse dialect text) (parse dialect other) ↔
      ∃ cause, ofPieces none (lex dialect (splitPreamble dialect other).2) = .error cause
        ∧ ofPieces none (lex dialect (splitPreamble dialect text).2) = .error cause := by
  rw [parse_eq, parse_eq, htext, hother]
  cases ofPieces none (lex dialect (splitPreamble dialect text).2) with
  | error left =>
    cases ofPieces none (lex dialect (splitPreamble dialect other).2) with
    | error right => simp [AgreesUpToLead]
    | ok right => simp [AgreesUpToLead]
  | ok left =>
    cases ofPieces none (lex dialect (splitPreamble dialect other).2) with
    | error right => simp [AgreesUpToLead]
    | ok right => simp [AgreesUpToLead]

/-- **White space in front of a source text is irrelevant** exactly if the text then starts with one line
break at most, or holds no declarations, or is refused for the same cause whether what it declares is told
from the query or not.  Otherwise its declarations are lost. -/
theorem parse_blank_append_iff (dialect : Dialect) {blanks : Text} (hblank : blanks.isAllBlank = true)
    (text : Text) :
    AgreesUpToLead (parse dialect (blanks ++ text)) (parse dialect text) ↔
      (blanks ++ text.takeWhile isBlank).count '\n' ≤ 1
        ∨ (splitPreamble dialect text).1 = none
        ∨ ∃ cause, ofPieces none (lex dialect (splitPreamble dialect text).2) = .error cause
          ∧ ofPieces none (lex dialect text.trimStart) = .error cause := by
  obtain ⟨lead, filled, htake, hstart, hlead, rfl⟩ : ∃ lead filled : Text, text.takeWhile isBlank = lead
      ∧ text.trimStart = filled ∧ lead.isAllBlank = true ∧ lead ++ filled = text :=
    ⟨_, _, rfl, rfl, List.all_takeWhile, List.takeWhile_append_dropWhile⟩
  have hall : (blanks ++ lead).isAllBlank = true := by simp [hblank, hlead]
  rw [htake, hstart, ← List.append_assoc]
  cases filled with
  | nil =>
    -- nothing but white space: both texts hold nothing
    have hnone : (splitPreamble dialect (lead ++ [])).1 = none := by
      rw [List.append_nil, splitPreamble_blank dialect hlead]
    refine iff_of_true (agreesUpToLead_of_body ?_ ?_) (.inr (.inl hnone))
    · rw [List.append_nil, List.append_nil, splitPreamble_blank dialect hall,
        splitPreamble_blank dialect hlead]
    · rw [hnone, List.append_nil, splitPreamble_blank dialect hall]
  | cons c rest =>
    have hc : isBlank c = false := by
      have hhead := List.head?_dropWhile_not isBlank (lead ++ c :: rest)
      rw [← Text.trimStart, hstart] at hhead
      simpa using hhead
    have hwhole := splitPreamble_blank_append dialect hall hc rest
    have hpart := splitPreamble_blank_append dialect hlead hc rest
    by_cases hcount : (blanks ++ lead).count '\n' ≤ 1
    · -- no blank line is in front, and the declarations keep the white space
      have hless : lead.count '\n' ≤ 1 := by
        rw [List.count_append] at hcount
        omega
      rw [if_pos hcount] at hwhole
      rw [if_pos hless] at hpart
      refine iff_of_true (agreesUpToLead_of_body ?_ ?_) (.inl hcount)
      · rw [hwhole, hpart]
      · rw [hwhole, hpart, Option.map_map, Option.map_map]
        congr 1
        funext declarations
        show Text.trimStart (blanks ++ lead ++ declarations) = Text.trimStart (lead ++ declarations)
        rw [Text.trimStart_blank_append _ hall, Text.trimStart_blank_append _ hlead]
    · rw [if_neg hcount] at hwhole
      cases hdeclared : (splitPreamble dialect (lead ++ c :: rest)).1 with
      | none =>
        -- nothing is declared, so that nothing can be lost
        refine iff_of_true (agreesUpToLead_of_body ?_ ?_) (.inr (.inl rfl))
        · rw [hwhole, splitPreamble_snd_of_none hdeclared, hstart]
        · rw [hwhole, hdeclared]
      | some declarations =>
        have hsome : ¬some declarations = none := Option.some_ne_none _
        rw [agreesUpToLead_iff_of_lost (by rw [hwhole]) hdeclared, hwhole, or_iff_right hcount,
          or_iff_right hsome]

/-- A query with declarations of its own. -/
def declaredOrders : Text :=
  "DECLARE @p0 int = 5;\n\nSELECT 1 FROM [Orders] AS [o] WHERE [o].[Id] = @p0".toList

/-- One line break and other white space in front of declarations change nothing. -/
theorem parse_blank_append_declaredOrders :
    AgreesUpToLead (parse .sqlServer ("\u3000\n\t".toList ++ declaredOrders))
      (parse .sqlServer declaredOrders) := by
  have hcount : ("\u3000\n\t".toList ++ declaredOrders.takeWhile isBlank).count '\n' ≤ 1 := by
    decide +kernel
  exact (parse_blank_append_iff .sqlServer (by decide) declaredOrders).mpr (.inl hcount)

/-- Blank lines in front of declarations lose them: the statement compares with an undeclared variable. -/
theorem declarations_lost_behind_blank_lines :
    ¬AgreesUpToLead (parse .sqlServer ("\n\n".toList ++ declaredOrders))
        (parse .sqlServer declaredOrders)
      ∧ compileDelete .sqlServer declaredOrders
        = .ok ⟨"DECLARE @p0 int = 5;\nDELETE FROM [Orders]\nWHERE [Id] = @p0".toList, []⟩
      ∧ compileDelete .sqlServer ("\n\n".toList ++ declaredOrders)
        = .ok ⟨"DELETE FROM [Orders]\nWHERE [Id] = @p0".toList, []⟩ := by
  refine ⟨?_, by decide +kernel, by decide +kernel⟩
  have hlost : parse .sqlServer ("\n\n".toList ++ declaredOrders)
      = .ok ⟨none, "[Orders]".toList, "[o]".toList, "WHERE [o].[Id] = @p0".toList⟩ := by
    decide +kernel
  have hkept : parse .sqlServer declaredOrders
      = .ok ⟨some "DECLARE @p0 int = 5;".toList, "[Orders]".toList, "[o]".toList,
          "WHERE [o].[Id] = @p0".toList⟩ := by
    decide +kernel
  rw [hlost, hkept]
  rintro ⟨-, -, -, hpreamble⟩
  cases hpreamble

end SourceQuery

end BulkDml
