import BulkDml.Statement
import BulkDml.Proofs.PieceCut

/-! # Conditions without qualifiers

The alias of a table is a qualifier in a condition where a point stands directly behind it.  A statement has no
alias, so that its condition goes without these qualifiers and their points; every other piece stays as it is,
be it a literal, a comment, a longer name or the alias itself.  What is taken out is what was put in: a clause
comes back from any way to qualify its names.

* `isQualifierAt`, `isKeptAt` — the pieces that are qualifiers, and those that stay;
* `dropQualifier_eq_atPlaces` — dropping qualifiers keeps these places and no others;
* `Dialect.separates`, `qualify` — names that can be qualified, and a qualifier put in front of them;
* `isSplit_qualify`, `dropQualifier_qualify` — qualified names are cut as they were written, and come back;
* `SourceQuery.unaliasedWhere_law` — the condition of a statement.
-/

namespace BulkDml

/-! ## Pieces that stay -/

/-- The pieces in some places, in order. -/
def atPlaces (keep : Nat → Bool) (pieces : List Lexeme) : List Lexeme :=
  (pieces.zipIdx.filter fun entry => keep entry.2).map (·.1)

@[simp] theorem atPlaces_nil (keep : Nat → Bool) : atPlaces keep [] = [] := rfl

/-- The first piece is in the first place, and every other one is a place further. -/
theorem atPlaces_cons (keep : Nat → Bool) (piece : Lexeme) (rest : List Lexeme) :
    atPlaces keep (piece :: rest)
      = (if keep 0 then [piece] else []) ++ atPlaces (fun place => keep (place + 1)) rest := by
  have hrest : ((rest.zipIdx 1).filter fun entry => keep entry.2).map (·.1)
      = atPlaces (fun place => keep (place + 1)) rest := by
    rw [List.zipIdx_succ, List.filter_map, List.map_map]
    rfl
  rw [← hrest, atPlaces, List.zipIdx_cons]
  cases hkeep : keep 0 with
  | true => rw [List.filter_cons_of_pos (by exact hkeep)]; rfl
  | false => rw [List.filter_cons_of_neg (by simp [hkeep])]; rfl

/-- Whether the piece at a place is a qualifier: a token that spells it, with a point directly behind. -/
def isQualifierAt (qualifier : Text) (pieces : List Lexeme) (place : Nat) : Bool :=
  pieces[place]?.any (fun piece => piece.isToken && piece.text == qualifier)
    && pieces[place + 1]? == some (.other '.')

/-- Whether the piece at a place stays: it is no qualifier, and not the point behind one. -/
def isKeptAt (qualifier : Text) (pieces : List Lexeme) (place : Nat) : Bool :=
  !isQualifierAt qualifier pieces place
    && !(1 ≤ place && isQualifierAt qualifier pieces (place - 1))

/-- A piece in front of others does not matter to them. -/
theorem isQualifierAt_succ (qualifier : Text) (piece : Lexeme) (rest : List Lexeme) (place : Nat) :
    isQualifierAt qualifier (piece :: rest) (place + 1) = isQualifierAt qualifier rest place := rfl

/-- A point is no qualifier. -/
theorem isQualifierAt_point (qualifier : Text) (rest : List Lexeme) :
    isQualifierAt qualifier (.other '.' :: rest) 0 = false := rfl

/-- The first of two pieces is a qualifier if it spells it and the second one is a point. -/
theorem isQualifierAt_zero_iff {qualifier : Text} {piece next : Lexeme} {rest : List Lexeme} :
    isQualifierAt qualifier (piece :: next :: rest) 0 = true
      ↔ piece.isToken = true ∧ piece.text = qualifier ∧ next = .other '.' := by
  simp [isQualifierAt, and_assoc]

/-- A place that is no qualifier leaves it to the pieces behind which of them stay. -/
theorem isKeptAt_succ {qualifier : Text} {piece : Lexeme} {rest : List Lexeme}
    (h : isQualifierAt qualifier (piece :: rest) 0 = false) (place : Nat) :
    isKeptAt qualifier (piece :: rest) (place + 1) = isKeptAt qualifier rest place := by
  cases place with
  | zero =>
    rw [isKeptAt, isQualifierAt_succ, Nat.zero_add, Nat.sub_self, h]
    simp [isKeptAt]
  | succ place =>
    simp [isKeptAt, isQualifierAt_succ]

/-- Behind a qualifier and its point it is left to the pieces behind which of them stay. -/
theorem isKeptAt_add_two (qualifier : Text) (piece : Lexeme) (rest : List Lexeme) (place : Nat) :
    isKeptAt qualifier (piece :: .other '.' :: rest) (place + 2) = isKeptAt qualifier rest place := by
  rw [← isKeptAt_succ (isQualifierAt_point qualifier rest)]
  simp [isKeptAt, isQualifierAt_succ]

/-- **Dropping qualifiers keeps every piece in its order**, but for the qualifiers and their points. -/
theorem dropQualifier_eq_atPlaces (qualifier : Text) (pieces : List Lexeme) :
    dropQualifier qualifier pieces = atPlaces (isKeptAt qualifier pieces) pieces := by
  fun_induction dropQualifier qualifier pieces with
  | case1 => rfl
  | case2 piece =>
    have hkept : isKeptAt qualifier [piece] 0 = true := by simp [isKeptAt, isQualifierAt]
    rw [atPlaces_cons, hkept]
    rfl
  | case3 piece next rest h ih =>
    -- both the qualifier and its point go
    have hqualifier : isQualifierAt qualifier (piece :: next :: rest) 0 = true :=
      isQualifierAt_zero_iff.mpr h
    obtain ⟨-, -, rfl⟩ := h
    have hfirst : isKeptAt qualifier (piece :: .other '.' :: rest) 0 = false := by
      simp [isKeptAt, hqualifier]
    have hsecond : isKeptAt qualifier (piece :: .other '.' :: rest) (0 + 1) = false := by
      simp [isKeptAt, hqualifier]
    rw [ih, atPlaces_cons, atPlaces_cons, hfirst, hsecond]
    simp only [Nat.add_assoc, Nat.reduceAdd, isKeptAt_add_two]
    rfl
  | case4 piece next rest h ih =>
    have hqualifier : isQualifierAt qualifier (piece :: next :: rest) 0 = false := by
      rw [Bool.eq_false_iff]
      exact fun hfound => h (isQualifierAt_zero_iff.mp hfound)
    have hkept : isKeptAt qualifier (piece :: next :: rest) 0 = true := by
      simp [isKeptAt, hqualifier]
    rw [ih, atPlaces_cons (isKeptAt qualifier (piece :: next :: rest)), hkept]
    simp only [isKeptAt_succ hqualifier]
    rfl

/-! ## Names that can be qualified -/

/-- Whether a character does not run into what stands behind it: it belongs to no word and closes no quotes. -/
def Dialect.separates (dialect : Dialect) (c : Char) : Bool :=
  !(isWordChar c || c == '\'' || c == dialect.closeQuote)

/-- The characters that operators and opening parentheses are written with. -/
def operatorChars : List Char := "(=<>!+-*/%&|^~".toList

/-- White space, operators and opening parentheses run into nothing. -/
theorem Dialect.separates_of_isBlank_or_mem (dialect : Dialect) {c : Char}
    (h : isBlank c = true ∨ c ∈ operatorChars) : dialect.separates c = true := by
  rcases h with hblank | hmem
  · have hquote : c ≠ dialect.closeQuote := ne_of_isBlank hblank (isBlank_closeQuote dialect)
    have hliteral : c ≠ '\'' := ne_of_isBlank hblank (by decide)
    simp [separates, isWordChar_eq_false_of_isBlank hblank, hliteral, hquote]
  · have hall : operatorChars.all dialect.separates = true := by cases dialect <;> decide
    exact List.all_eq_true.mp hall c hmem

/-- Whether a piece is a complete name: a word, or a quoted name with its closing quote. -/
inductive Lexeme.IsName (dialect : Dialect) : Lexeme → Prop where
  /-- A word is a name. -/
  | word {run : Text} (hne : run ≠ []) (hrun : ∀ c ∈ run, isWordChar c = true) :
    IsName dialect (.word run)
  /-- So is everything that is quoted. -/
  | quoted (name : Text) : IsName dialect (.quoted (dialect.quote name))

/-- The pieces with a qualifier and its point in front of the tokens in the chosen places, wherever the
character in front of the token does not run into it. -/
def qualify (dialect : Dialect) (qualifier : Lexeme) :
    (chosen : Nat → Bool) → (previous : Option Char) → List Lexeme → List Lexeme
  | _, _, [] => []
  | chosen, previous, piece :: rest =>
    (if chosen 0 && piece.isToken && previous.any dialect.separates then
        [qualifier, .other '.', piece]
      else [piece])
      ++ qualify dialect qualifier (fun place => chosen (place + 1)) piece.text.getLast? rest

/-- The first piece of a qualified list is the first of the list or, behind a character that separates, the
qualifier. -/
theorem qualify_cons (dialect : Dialect) (qualifier : Lexeme) (chosen : Nat → Bool)
    (previous : Option Char) (piece : Lexeme) (rest : List Lexeme) :
    (∃ more, qualify dialect qualifier chosen previous (piece :: rest) = piece :: more)
      ∨ previous.any dialect.separates = true
        ∧ ∃ more, qualify dialect qualifier chosen previous (piece :: rest) = qualifier :: more := by
  rw [qualify]
  split
  · next h =>
    rw [Bool.and_eq_true] at h
    exact .inr ⟨h.2, _, rfl⟩
  · exact .inl ⟨_, rfl⟩

namespace Lexeme

variable {dialect : Dialect}

/-- A name is a token. -/
theorem IsName.isToken {name : Lexeme} (h : name.IsName dialect) : name.isToken = true := by
  cases h <;> rfl

/-- A name ends in front of a point. -/
theorem IsName.endsBefore_point {name : Lexeme} (h : name.IsName dialect) (rest : Text) :
    name.EndsBefore dialect ('.' :: rest) := by
  cases h with
  | word hne hrun => exact ⟨hne, hrun, rfl⟩
  | quoted name => exact ⟨name, .inl ⟨rfl, by cases dialect <;> simp [Dialect.closeQuote]⟩⟩

/-- A name starts with no hyphen. -/
theorem IsName.head?_append_ne {name : Lexeme} (h : name.IsName dialect) (rest : Text) :
    (name.text ++ rest).head? ≠ some '-' := by
  cases h with
  | @word run hne hrun =>
    obtain ⟨c, tail, rfl⟩ := List.exists_cons_of_ne_nil hne
    have hc : isWordChar c = true := hrun c List.mem_cons_self
    intro hhead
    obtain rfl : c = '-' := Option.some.inj hhead
    exact absurd hc (by decide)
  | quoted name =>
    intro hhead
    have hopen : dialect.openQuote = '-' := Option.some.inj hhead
    cases dialect <;> exact absurd hopen (by decide)

/-- A point ends in front of anything. -/
theorem endsBefore_point (dialect : Dialect) (after : Text) : (other '.').EndsBefore dialect after :=
  ⟨by decide, by cases dialect <;> decide, by decide, by simp⟩

/-- A piece whose last character separates ends in front of anything but a hyphen. -/
theorem EndsBefore.of_separates {piece : Lexeme} {after behind : Text} (h : piece.EndsBefore dialect after)
    (hne : after ≠ []) (hlast : piece.text.getLast?.any dialect.separates = true)
    (hhead : behind.head? ≠ some '-') : piece.EndsBefore dialect behind := by
  have hmark : ∀ mark ∈ piece.text.getLast?, dialect.separates mark = true := by
    intro mark hmem
    rw [hmem] at hlast
    exact hlast
  cases piece with
  | word run =>
    obtain ⟨hrun, hall, -⟩ := h
    have hword : isWordChar (run.getLast hrun) = true := hall _ (List.getLast_mem hrun)
    have hsep := hmark _ (List.getLast?_eq_some_getLast hrun)
    simp [Dialect.separates, hword] at hsep
  | quoted run =>
    -- a closing quote separates nothing, and without one nothing stands behind
    obtain ⟨name, ⟨rfl, -⟩ | ⟨-, hnil⟩⟩ := h
    · have hsep := hmark dialect.closeQuote List.getLast?_concat
      simp [Dialect.separates] at hsep
    · exact absurd hnil hne
  | literal run =>
    obtain ⟨content, ⟨rfl, -⟩ | ⟨-, hnil⟩⟩ := h
    · have hsep := hmark '\'' List.getLast?_concat
      simp [Dialect.separates] at hsep
    · exact absurd hnil hne
  | comment run =>
    obtain ⟨line, hline, hrun | ⟨-, hnil⟩⟩ := h
    · exact ⟨line, hline, .inl hrun⟩
    · exact absurd hnil hne
  | other c => exact ⟨h.1, h.2.1, h.2.2.1, fun hcomment => hhead hcomment.2⟩

end Lexeme

/-! ## Qualified names come back -/

section

variable {dialect : Dialect} {qualifier : Lexeme}

/-- **Qualified pieces are cut as they are written.** -/
theorem isSplit_qualify (hname : qualifier.IsName dialect) {pieces : List Lexeme}
    (h : Lexeme.IsSplit dialect pieces) (chosen : Nat → Bool) (previous : Option Char) :
    Lexeme.IsSplit dialect (qualify dialect qualifier chosen previous pieces) := by
  induction pieces generalizing chosen previous with
  | nil => trivial
  | cons piece rest ih =>
    rw [Lexeme.isSplit_cons] at h
    obtain ⟨hpiece, hrest⟩ := h
    have hsplit := ih hrest (fun place => chosen (place + 1)) piece.text.getLast?
    -- the piece ends in front of what is now behind it: the next piece, or the qualifier of that
    have hends : piece.EndsBefore dialect
        (textOf (qualify dialect qualifier (fun place => chosen (place + 1)) piece.text.getLast?
          rest)) := by
      cases rest with
      | nil => exact hpiece
      | cons second behind =>
        have hsecond := hrest.1.text_ne_nil
        have hne : textOf (second :: behind) ≠ [] := List.append_ne_nil_of_left_ne_nil hsecond _
        rcases qualify_cons dialect qualifier (fun place => chosen (place + 1)) piece.text.getLast?
          second behind with ⟨more, hmore⟩ | ⟨hlast, more, hmore⟩
        · rw [hmore]
          refine hpiece.congr hne ?_
          rw [textOf_cons, textOf_cons, List.head?_append_of_ne_nil _ hsecond,
            List.head?_append_of_ne_nil _ hsecond]
        · rw [hmore]
          exact hpiece.of_separates hne hlast (hname.head?_append_ne _)
    rw [qualify]
    split
    · exact ⟨hname.endsBefore_point _, Lexeme.endsBefore_point dialect _, hends, hsplit⟩
    · exact ⟨hends, hsplit⟩

/-- A piece that is no qualifier stays. -/
theorem dropQualifier_cons_of_kept {spelling : Text} {piece : Lexeme} {rest : List Lexeme}
    (h : isQualifierAt spelling (piece :: rest) 0 = false) :
    dropQualifier spelling (piece :: rest) = piece :: dropQualifier spelling rest := by
  cases rest with
  | nil => rfl
  | cons next behind =>
    rw [dropQualifier, if_neg]
    rw [← isQualifierAt_zero_iff, h]
    exact Bool.false_ne_true

/-- **Qualified pieces without their qualifiers are the pieces**, if these hold no qualifier. -/
theorem dropQualifier_qualify (hname : qualifier.IsName dialect) {pieces : List Lexeme}
    (h : ∀ place < pieces.length, isQualifierAt qualifier.text pieces place = false)
    (chosen : Nat → Bool) (previous : Option Char) :
    dropQualifier qualifier.text (qualify dialect qualifier chosen previous pieces) = pieces := by
  induction pieces generalizing chosen previous with
  | nil => rfl
  | cons piece rest ih =>
    have hrest := ih (fun place hplace => h (place + 1) (Nat.succ_lt_succ hplace))
      (fun place => chosen (place + 1)) piece.text.getLast?
    have hpoint : qualifier ≠ .other '.' := by
      rintro rfl
      cases hname
    -- the piece is followed by the same point as before, or by none
    have hkept : isQualifierAt qualifier.text (piece :: qualify dialect qualifier
        (fun place => chosen (place + 1)) piece.text.getLast? rest) 0 = false := by
      have hnone := h 0 (Nat.zero_lt_succ _)
      cases rest with
      | nil => exact hnone
      | cons second behind =>
        rcases qualify_cons dialect qualifier (fun place => chosen (place + 1)) piece.text.getLast?
          second behind with ⟨more, hmore⟩ | ⟨-, more, hmore⟩
        · rw [hmore]
          exact hnone
        · rw [hmore, Bool.eq_false_iff]
          exact fun hfound => hpoint (isQualifierAt_zero_iff.mp hfound).2.2
    rw [qualify]
    split
    · rw [List.cons_append, List.cons_append, List.cons_append, List.nil_append, dropQualifier,
        if_pos ⟨hname.isToken, rfl, rfl⟩, dropQualifier_cons_of_kept hkept, hrest]
    · rw [List.cons_append, List.nil_append, dropQualifier_cons_of_kept hkept, hrest]

end

/-! ## The condition of a statement -/

namespace SourceQuery

/-- **The law of unqualified conditions.**  A condition is cut into pieces in one way, and the condition of the
statement are the pieces that are neither the alias in front of a point nor that point.  So a condition in
which the alias qualifies nothing comes back from every condition in which it was put in front of names that
follow white space, an operator, a parenthesis, or any other character that does not run into names. -/
theorem unaliasedWhere_law (dialect : Dialect) (query : SourceQuery) :
    (∃! pieces, textOf pieces = query.whereClause ∧ Lexeme.IsSplit dialect pieces)
    ∧ (∀ pieces, textOf pieces = query.whereClause → Lexeme.IsSplit dialect pieces →
        query.unaliasedWhere dialect = textOf (atPlaces (isKeptAt query.tableAlias pieces) pieces)
        ∧ ∀ qualifier : Lexeme, qualifier.IsName dialect → qualifier.text = query.tableAlias →
          (∀ place < pieces.length, isQualifierAt query.tableAlias pieces place = false) →
          ∀ chosen : Nat → Bool,
            { query with whereClause := textOf (qualify dialect qualifier chosen none pieces) }.unaliasedWhere
              dialect = query.whereClause)
    ∧ ∀ c : Char, isBlank c = true ∨ c ∈ operatorChars → dialect.separates c = true := by
  refine ⟨?_, ?_, fun c => dialect.separates_of_isBlank_or_mem⟩
  · simp only [Lexeme.isSplit_iff]
    exact ⟨_, rfl, fun _ h => h⟩
  · intro pieces htext hsplit
    have hlex : lex dialect query.whereClause = pieces := by
      rw [← htext, Lexeme.lex_textOf hsplit]
    refine ⟨?_, ?_⟩
    · rw [unaliasedWhere, hlex, dropQualifier_eq_atPlaces]
    · intro qualifier hname hspelling hnone chosen
      rw [← hspelling] at hnone
      rw [unaliasedWhere, Lexeme.lex_textOf (isSplit_qualify hname hsplit chosen none), ← hspelling,
        dropQualifier_qualify hname hnone, htext]

/-- A condition without qualifiers comes back, though its alias stands by itself and in a longer name, a literal
and a comment. -/
theorem unaliasedWhere_unpaidOrders :
    Lexeme.IsName .sqlServer (.quoted "[s]".toList)
    ∧ (∀ place < (lex .sqlServer
          "WHERE ([Paid]=[s] OR [ss].[Id]<>'[s].x') AND -- [s].\n[Total]>5".toList).length,
        isQualifierAt "[s]".toList (lex .sqlServer
          "WHERE ([Paid]=[s] OR [ss].[Id]<>'[s].x') AND -- [s].\n[Total]>5".toList) place = false)
    ∧ (⟨none, "Orders".toList, "[s]".toList,
        "WHERE ([s].[Paid]=[s].[s] OR [s].[ss].[Id]<>'[s].x') AND -- [s].\n[s].[Total]>5".toList⟩
          : SourceQuery).unaliasedWhere .sqlServer
      = "WHERE ([Paid]=[s] OR [ss].[Id]<>'[s].x') AND -- [s].\n[Total]>5".toList := by
  have hname : Lexeme.IsName .sqlServer (.quoted "[s]".toList) := .quoted ['s']
  have hnone : ∀ place < (lex .sqlServer
        "WHERE ([Paid]=[s] OR [ss].[Id]<>'[s].x') AND -- [s].\n[Total]>5".toList).length,
      isQualifierAt "[s]".toList (lex .sqlServer
        "WHERE ([Paid]=[s] OR [ss].[Id]<>'[s].x') AND -- [s].\n[Total]>5".toList) place = false := by
    decide +kernel
  -- the names behind the parenthesis, the equals sign, a blank and the comment
  have hqualified : textOf (qualify .sqlServer (.quoted "[s]".toList) ([3, 5, 9, 20].contains ·) none
        (lex .sqlServer "WHERE ([Paid]=[s] OR [ss].[Id]<>'[s].x') AND -- [s].\n[Total]>5".toList))
      = "WHERE ([s].[Paid]=[s].[s] OR [s].[ss].[Id]<>'[s].x') AND -- [s].\n[s].[Total]>5".toList := by
    decide +kernel
  refine ⟨hname, hnone, ?_⟩
  rw [← hqualified]
  exact ((unaliasedWhere_law .sqlServer ⟨none, "Orders".toList, "[s]".toList,
    "WHERE ([Paid]=[s] OR [ss].[Id]<>'[s].x') AND -- [s].\n[Total]>5".toList⟩).2.1 _
      (textOf_lex _ _) (Lexeme.isSplit_lex _ _)).2 _ hname rfl hnone _

end SourceQuery

end BulkDml
