import BulkDml.Proofs.ScanMode

/-! # Where tokens stand

A token is found exactly where it stands on its own, outside of literals, quoted identifiers and comments: a word
from one character that belongs to no word to the next, and a quoted identifier from its opening quote to the first
closing quote that is not doubled, or to the end of the text.  Two texts that do not run into each other have the
tokens of both.

* `regionBehind` — the part of a text in which it goes on;
* `Combine` — two characters that run into each other;
* `mem_spansOf_iff` — a token is a piece that starts anew and is complete in front of what follows;
* `IsQuotedRun`, `IsWordRun` — runs of characters that are tokens;
* `spansOf_law` — the tokens of a text.
-/

namespace BulkDml

/-! ## How a text ends -/

/-- What is known behind a text. -/
def modeBehind (dialect : Dialect) (text : Text) : ScanMode := ScanMode.outside.behind dialect 0 text

/-- The part of a text that the character behind its beginning `before` is met in, or the end if there is none. -/
def regionBehind (dialect : Dialect) (before : Text) (next : Option Char) : Region :=
  (modeBehind dialect before).region dialect next

/-- Whether two characters, one behind the other, can belong together: as characters of a word, as the hyphens of a
comment, or as a doubled quote. -/
def Combine (dialect : Dialect) (last first : Char) : Prop :=
  isWordChar last = true ∧ isWordChar first = true ∨ last = '-' ∧ first = '-'
    ∨ last = '\'' ∧ first = '\'' ∨ last = dialect.closeQuote ∧ first = dialect.closeQuote

instance (dialect : Dialect) (last first : Char) : Decidable (Combine dialect last first) :=
  inferInstanceAs (Decidable (_ ∨ _))

variable {dialect : Dialect}

/-- A further character is a further step. -/
theorem modeBehind_concat (text : Text) (c : Char) :
    modeBehind dialect (text ++ [c]) = (modeBehind dialect text).step dialect text.length c := by
  rw [modeBehind, ScanMode.behind_append, Nat.zero_add]
  rfl

namespace ScanMode

/-- A character that starts anew is met outside of everything. -/
theorem region_of_leaves {mode : ScanMode} {c : Char} (h : mode.takesUp dialect c = false) :
    mode.region dialect (some c) = .normal := by
  cases mode with
  | literalMark => simpa [takesUp, region] using h
  | quotedMark start => simpa [takesUp, region] using h
  | outside => rfl
  | hyphen => rfl
  | word start => rfl
  | literal => cases h
  | quoted start => cases h
  | comment => cases h

/-- A text that goes on outside of everything could end there. -/
theorem region_none_of_region {mode : ScanMode} {c : Char} (h : mode.region dialect (some c) = .normal) :
    mode.region dialect none = .normal := by
  cases mode with
  | literal => cases h
  | quoted start => cases h
  | comment => cases h
  | _ => rfl

/-- Outside of everything an opening quote starts anew. -/
theorem takesUp_openQuote {mode : ScanMode} (h : mode.region dialect (some dialect.openQuote) = .normal) :
    mode.takesUp dialect dialect.openQuote = false := by
  cases mode with
  | quotedMark start => simpa [takesUp, region] using h
  | outside => rfl
  | hyphen => cases dialect <;> rfl
  | word start =>
    show isWordChar dialect.openQuote = false
    cases dialect <;> decide
  | literalMark => cases dialect <;> rfl
  | literal => cases h
  | quoted start => cases h
  | comment => cases h

/-- **Behind a character, only what combines with it belongs to it**, unless something is open. -/
theorem combine_of_takesUp_step {mode : ScanMode} {place : Nat} {c d : Char}
    (hregion : (mode.step dialect place c).region dialect none = .normal)
    (htakes : (mode.step dialect place c).takesUp dialect d = true) : Combine dialect c d := by
  unfold step at hregion htakes
  split at hregion
  · next hc =>
    rw [if_pos hc] at htakes
    cases mode with
    | outside => cases hc
    | hyphen => cases hregion
    | word start => exact .inl ⟨hc, htakes⟩
    | literal =>
      by_cases hmark : c = '\''
      · rw [goOn, if_pos hmark] at htakes
        exact .inr (.inr (.inl ⟨hmark, beq_iff_eq.mp htakes⟩))
      · rw [goOn, if_neg hmark] at hregion
        cases hregion
    | literalMark => cases hregion
    | quoted start =>
      by_cases hmark : c = dialect.closeQuote
      · rw [goOn, if_pos hmark] at htakes
        exact .inr (.inr (.inr ⟨hmark, beq_iff_eq.mp htakes⟩))
      · rw [goOn, if_neg hmark] at hregion
        cases hregion
    | quotedMark start => cases hregion
    | comment =>
      by_cases hbreak : c = '\n'
      · rw [goOn, if_pos hbreak] at htakes
        cases htakes
      · rw [goOn, if_neg hbreak] at hregion
        cases hregion
  · next hc =>
    rw [if_neg hc] at htakes
    unfold enter at hregion htakes
    split_ifs at hregion htakes with hliteral hquoted hdash hword
    · cases hregion
    · cases hregion
    · exact .inr (.inl ⟨hdash, beq_iff_eq.mp htakes⟩)
    · exact .inl ⟨hword, htakes⟩
    · cases htakes

/-- Behind a word character another one belongs to the same run, whatever it is in. -/
theorem takesUp_step_of_isWordChar (mode : ScanMode) (place : Nat) {c d : Char} (hc : isWordChar c = true)
    (hd : isWordChar d = true) : (mode.step dialect place c).takesUp dialect d = true := by
  have hne : ∀ mark, isWordChar mark = false → c ≠ mark := by
    rintro mark hmark rfl
    rw [hc] at hmark
    cases hmark
  have hliteral : c ≠ '\'' := hne _ (by decide)
  have hdash : c ≠ '-' := hne _ (by decide)
  have hopen : c ≠ dialect.openQuote := hne _ (by cases dialect <;> decide)
  have hclose : c ≠ dialect.closeQuote := hne _ (by cases dialect <;> decide)
  have hbreak : c ≠ '\n' := hne _ (by decide)
  have henter : (enter dialect place c).takesUp dialect d = true := by
    rw [enter, if_neg hliteral, if_neg hopen, if_neg hdash, if_pos hc]
    exact hd
  cases mode with
  | outside => exact henter
  | hyphen => simpa [step, takesUp, hdash] using henter
  | word start => simpa [step, takesUp, hc, goOn] using hd
  | literal => simp [step, takesUp, goOn, hliteral]
  | literalMark => simpa [step, takesUp, hliteral] using henter
  | quoted start => simp [step, takesUp, goOn, hclose]
  | quotedMark start => simpa [step, takesUp, hclose] using henter
  | comment => simp [step, takesUp, goOn, hbreak]

/-! ## Where tokens start -/

/-- A token that ends at a place stops there. -/
theorem stop_of_mem_pending {mode : ScanMode} {place : Nat} {span : TokenSpan}
    (h : span ∈ mode.pending place) : span.stop = place := by
  cases mode with
  | word start => rw [List.mem_singleton.mp h]
  | quoted start => rw [List.mem_singleton.mp h]
  | quotedMark start => rw [List.mem_singleton.mp h]
  | _ => cases h

/-- A character that belongs to what stands in front of it starts no token. -/
theorem mem_pending_of_goOn {mode : ScanMode} {c : Char} {place : Nat} {span : TokenSpan}
    (h : span ∈ (mode.goOn dialect c).pending place) : span ∈ mode.pending place := by
  unfold goOn at h
  split at h
  all_goals first
    | exact h
    | (split at h <;> exact h)

/-- A character that starts anew starts a token at most. -/
theorem start_of_mem_pending_enter {place stop : Nat} {c : Char} {span : TokenSpan}
    (h : span ∈ (enter dialect place c).pending stop) : span.start = place := by
  unfold enter at h
  split_ifs at h
  · cases h
  · rw [List.mem_singleton.mp h]
  · cases h
  · rw [List.mem_singleton.mp h]
  · cases h

/-- **A token starts anew**, unless it has started before the text. -/
theorem start_of_mem_spansFrom {mode : ScanMode} {place : Nat} {text : Text} {span : TokenSpan}
    (h : span ∈ mode.spansFrom dialect place text) :
    span ∈ mode.pending span.stop
      ∨ ∃ before c rest, text = before ++ c :: rest ∧ span.start = place + before.length
        ∧ (mode.behind dialect place before).takesUp dialect c = false := by
  induction text generalizing mode place with
  | nil =>
    rw [spansFrom_nil] at h
    left
    rwa [stop_of_mem_pending h]
  | cons c rest ih =>
    -- a token that starts in the rest has `c` in front of it as well
    have hrest : (∃ before d more, rest = before ++ d :: more ∧ span.start = place + 1 + before.length
          ∧ ((mode.step dialect place c).behind dialect (place + 1) before).takesUp dialect d = false) →
        ∃ before d more, c :: rest = before ++ d :: more ∧ span.start = place + before.length
          ∧ (mode.behind dialect place before).takesUp dialect d = false := by
      rintro ⟨before, d, more, rfl, hstart, hleaves⟩
      refine ⟨c :: before, d, more, rfl, ?_, hleaves⟩
      rw [hstart, List.length_cons]
      omega
    cases hc : mode.takesUp dialect c with
    | true =>
      rw [spansFrom_cons_of_takesUp hc] at h
      have hstep : mode.step dialect place c = mode.goOn dialect c := by rw [step, hc, if_pos rfl]
      rw [hstep] at hrest
      rcases ih h with hpending | hbehind
      · exact .inl (mem_pending_of_goOn hpending)
      · exact .inr (hrest hbehind)
    | false =>
      rw [spansFrom_cons_of_leaves hc, List.mem_append] at h
      have hstep : mode.step dialect place c = enter dialect place c := by
        rw [step, hc, if_neg Bool.false_ne_true]
      rw [hstep] at hrest
      rcases h with hpending | hlater
      · left
        rwa [stop_of_mem_pending hpending]
      · rcases ih hlater with hpending | hbehind
        · exact .inr ⟨[], c, rest, rfl, start_of_mem_pending_enter hpending, hc⟩
        · exact .inr (hrest hbehind)

end ScanMode

/-! ## Tokens and their surroundings -/

/-- The automaton finds the tokens of a text. -/
theorem spansOf_eq_spansFrom (text : Text) :
    spansOf dialect text = ScanMode.outside.spansFrom dialect 0 text :=
  (ScanMode.spansFrom_outside_eq 0 text).symm

/-- **Two texts that do not run into each other have the tokens of both.** -/
theorem spansOf_append {text more : Text} (h : (modeBehind dialect text).Leaves dialect more) :
    spansOf dialect (text ++ more)
      = spansOf dialect text ++ (spansOf dialect more).map (TokenSpan.shift text.length) := by
  rw [spansOf_eq_spansFrom, ScanMode.spansFrom_append_of_leaves h, ← spansOf_eq_spansFrom,
    ScanMode.spansFrom_outside_eq, Nat.add_comm, map_span_placedFrom_add]
  rfl

/-- Characters that do not combine do not run into each other. -/
theorem leaves_of_not_combine {text more : Text} (hregion : regionBehind dialect text none = .normal)
    (h : ∀ last ∈ text.getLast?, ∀ first ∈ more.head?, ¬Combine dialect last first) :
    (modeBehind dialect text).Leaves dialect more := by
  intro first hfirst
  rcases List.eq_nil_or_concat text with rfl | ⟨front, last, rfl⟩
  · rfl
  · rw [List.concat_eq_append] at h hregion ⊢
    rw [regionBehind, modeBehind_concat] at hregion
    rw [modeBehind_concat, ← Bool.not_eq_true]
    intro htakes
    exact h last (by simp) first hfirst (ScanMode.combine_of_takesUp_step hregion htakes)

/-- A token among pieces is one of them, behind those in front of it. -/
theorem exists_append_of_mem_placedFrom {start : Nat} {pieces : List Lexeme} {token : PlacedToken}
    (h : token ∈ placedFrom start pieces) :
    ∃ before behind, pieces = before ++ token.piece :: behind ∧ token.piece.isToken = true
      ∧ token.start = start + (textOf before).length := by
  induction pieces generalizing start with
  | nil => cases h
  | cons piece rest ih =>
    have hrest : token ∈ placedFrom (start + piece.text.length) rest →
        ∃ before behind, piece :: rest = before ++ token.piece :: behind ∧ token.piece.isToken = true
          ∧ token.start = start + (textOf before).length := by
      intro hmem
      obtain ⟨before, behind, rfl, htoken, hstart⟩ := ih hmem
      refine ⟨piece :: before, behind, rfl, htoken, ?_⟩
      rw [hstart, textOf_cons, List.length_append, Nat.add_assoc]
    rw [placedFrom] at h
    split at h
    · next htoken =>
      rcases List.mem_cons.mp h with rfl | hmem
      · exact ⟨[], rest, rfl, htoken, rfl⟩
      · exact hrest hmem
    · exact hrest h

/-- **A token is a piece that starts anew and is complete in front of what follows**, and every such piece is a
token. -/
theorem mem_spansOf_iff {text : Text} {span : TokenSpan} :
    span ∈ spansOf dialect text
      ↔ ∃ (before : Text) (piece : Lexeme) (behind : Text), text = before ++ (piece.text ++ behind)
        ∧ piece.isToken = true ∧ span = ⟨piece.kind, before.length, (before ++ piece.text).length⟩
        ∧ (modeBehind dialect before).Leaves dialect piece.text ∧ piece.EndsBefore dialect behind := by
  constructor
  · intro h
    obtain ⟨token, hmem, rfl⟩ := List.mem_map.mp h
    obtain ⟨before, behind, hlex, htoken, hstart⟩ := exists_append_of_mem_placedFrom hmem
    have htext : text = textOf before ++ (token.piece.text ++ textOf behind) := by
      rw [← textOf_lex dialect text, hlex, textOf_append, textOf_cons]
    rw [Nat.zero_add] at hstart
    refine ⟨textOf before, token.piece, textOf behind, htext, htoken, ?_, ?_, endsBefore_of_lex_eq hlex⟩
    · rw [PlacedToken.span, PlacedToken.stop, hstart, List.length_append]
    · -- the automaton starts the token where lexing does
      rw [spansOf_eq_spansFrom] at h
      rcases ScanMode.start_of_mem_spansFrom h with hpending | ⟨front, c, rest, hfront, hplace, hleaves⟩
      · cases hpending
      · have hlength : (textOf before).length = front.length := by
          rw [← hstart, ← Nat.zero_add front.length, ← hplace]
          rfl
        obtain ⟨hsame, hrest⟩ := List.append_inj (htext.symm.trans hfront) hlength
        intro d hd
        have hhead : (token.piece.text ++ textOf behind).head? = some d := by
          rw [List.head?_append, hd, Option.some_or]
        rw [hrest, List.head?_cons, Option.some_inj] at hhead
        rw [hsame, ← hhead]
        exact hleaves
  · rintro ⟨before, piece, behind, rfl, htoken, rfl, hleaves, hends⟩
    obtain ⟨c, tail, htail⟩ := List.exists_cons_of_ne_nil hends.text_ne_nil
    have hstarts : (modeBehind dialect before).Leaves dialect (piece.text ++ behind) := by
      rw [htail, List.cons_append, ScanMode.leaves_cons_iff]
      rwa [htail, ScanMode.leaves_cons_iff] at hleaves
    rw [spansOf_append hstarts, List.mem_append]
    right
    refine List.mem_map.mpr ⟨⟨piece.kind, 0, piece.text.length⟩, ?_, ?_⟩
    · rw [spansOf, tokensOf, Lexeme.lex_text_append hends, placedFrom, if_pos htoken]
      simp [PlacedToken.span, PlacedToken.stop]
    · rw [TokenSpan.shift, List.length_append, Nat.add_zero]

/-! ## Quoted identifiers and words -/

/-- Whether a run between two texts is a quoted identifier: it starts outside of everything and goes up to the first
closing quote that is not doubled, or to the end of the text. -/
def IsQuotedRun (dialect : Dialect) (before run behind : Text) : Prop :=
  regionBehind dialect before run.head? = .normal
    ∧ ∃ name, run = dialect.quote name ∧ behind.head? ≠ some dialect.closeQuote
      ∨ run = dialect.openQuote :: name.doubling dialect.closeQuote ∧ behind = []

/-- Whether a run between two texts is a word: it starts outside of everything and has all word characters around
it. -/
def IsWordRun (dialect : Dialect) (before run behind : Text) : Prop :=
  regionBehind dialect before run.head? = .normal
    ∧ (run ≠ [] ∧ ∀ c ∈ run, isWordChar c = true)
    ∧ before.getLast?.all (!isWordChar ·) = true ∧ behind.head?.all (!isWordChar ·) = true

/-- An identifier starts anew wherever it starts outside of everything. -/
theorem leaves_quoted_iff {before run : Text} (h : run.head? = some dialect.openQuote) :
    (modeBehind dialect before).Leaves dialect run ↔ regionBehind dialect before run.head? = .normal := by
  rw [regionBehind, ScanMode.Leaves, h]
  constructor
  · intro hleaves
    exact ScanMode.region_of_leaves (hleaves _ rfl)
  · intro hregion c hc
    rw [← Option.some_inj.mp hc]
    exact ScanMode.takesUp_openQuote hregion

/-- A word starts anew if it starts outside of everything, and behind no other word character. -/
theorem leaves_word_iff {before run : Text} (hne : run ≠ []) (hrun : ∀ c ∈ run, isWordChar c = true) :
    (modeBehind dialect before).Leaves dialect run
      ↔ regionBehind dialect before run.head? = .normal ∧ before.getLast?.all (!isWordChar ·) = true := by
  obtain ⟨c, tail, rfl⟩ := List.exists_cons_of_ne_nil hne
  have hc : isWordChar c = true := hrun c List.mem_cons_self
  rw [ScanMode.leaves_cons_iff, regionBehind, List.head?_cons]
  constructor
  · intro hleaves
    refine ⟨ScanMode.region_of_leaves hleaves, ?_⟩
    rcases List.eq_nil_or_concat before with rfl | ⟨front, last, rfl⟩
    · rfl
    · rw [List.concat_eq_append, List.getLast?_concat, Option.all_some, Bool.not_eq_true',
        ← Bool.not_eq_true]
      intro hlast
      rw [List.concat_eq_append, modeBehind_concat,
        ScanMode.takesUp_step_of_isWordChar _ _ hlast hc] at hleaves
      cases hleaves
  · rintro ⟨hregion, hlast⟩
    have hleaves : (modeBehind dialect before).Leaves dialect [c] := by
      apply leaves_of_not_combine (ScanMode.region_none_of_region hregion)
      intro last hmem first hfirst
      rw [hmem] at hlast
      rw [← Option.some_inj.mp hfirst]
      -- the character in front is of no word, and `c` neither a hyphen nor a quote
      rintro (⟨hword, -⟩ | ⟨-, rfl⟩ | ⟨-, rfl⟩ | ⟨-, rfl⟩)
      · simp [hword] at hlast
      · exact absurd hc (by decide)
      · exact absurd hc (by decide)
      · cases dialect <;> exact absurd hc (by decide)
    exact ScanMode.leaves_cons_iff.mp hleaves

/-- **The quoted identifiers of a text** are its quoted runs. -/
theorem mem_spansOf_quoted_iff {text : Text} {start stop : Nat} :
    ⟨.quoted, start, stop⟩ ∈ spansOf dialect text
      ↔ ∃ before run behind : Text, text = before ++ (run ++ behind) ∧ start = before.length
        ∧ stop = (before ++ run).length ∧ IsQuotedRun dialect before run behind := by
  have hhead : ∀ {run behind : Text}, (Lexeme.quoted run).EndsBefore dialect behind →
      run.head? = some dialect.openQuote := by
    rintro run behind ⟨name, ⟨rfl, -⟩ | ⟨rfl, -⟩⟩
    · rfl
    · rfl
  rw [mem_spansOf_iff]
  constructor
  · rintro ⟨before, piece, behind, rfl, htoken, hspan, hleaves, hends⟩
    obtain ⟨hkind, rfl, rfl⟩ := TokenSpan.mk.inj hspan
    cases piece with
    | quoted run => exact ⟨before, run, behind, rfl, rfl, rfl, (leaves_quoted_iff (hhead hends)).mp hleaves, hends⟩
    | _ => cases hkind
  · rintro ⟨before, run, behind, rfl, rfl, rfl, hregion, hends⟩
    exact ⟨before, .quoted run, behind, rfl, rfl, rfl, (leaves_quoted_iff (hhead hends)).mpr hregion, hends⟩

/-- **The words of a text** are its word runs. -/
theorem mem_spansOf_word_iff {text : Text} {start stop : Nat} :
    ⟨.word, start, stop⟩ ∈ spansOf dialect text
      ↔ ∃ before run behind : Text, text = before ++ (run ++ behind) ∧ start = before.length
        ∧ stop = (before ++ run).length ∧ IsWordRun dialect before run behind := by
  rw [mem_spansOf_iff]
  constructor
  · rintro ⟨before, piece, behind, rfl, htoken, hspan, hleaves, hends⟩
    obtain ⟨hkind, rfl, rfl⟩ := TokenSpan.mk.inj hspan
    cases piece with
    | word run =>
      obtain ⟨hne, hrun, hbehind⟩ := hends
      obtain ⟨hregion, hbefore⟩ := (leaves_word_iff hne hrun).mp hleaves
      exact ⟨before, run, behind, rfl, rfl, rfl, hregion, ⟨hne, hrun⟩, hbefore, hbehind⟩
    | quoted run => cases hkind
    | literal run => cases htoken
    | comment run => cases htoken
    | other c => cases htoken
  · rintro ⟨before, run, behind, rfl, rfl, rfl, hregion, ⟨hne, hrun⟩, hbefore, hbehind⟩
    exact ⟨before, .word run, behind, rfl, rfl, rfl, (leaves_word_iff hne hrun).mpr ⟨hregion, hbefore⟩,
      hne, hrun, hbehind⟩

/-! ## The order of tokens -/

/-- Tokens come one behind the other. -/
theorem pairwise_placedFrom (start : Nat) (pieces : List Lexeme) :
    (placedFrom start pieces).Pairwise fun one other => one.stop ≤ other.start := by
  induction pieces generalizing start with
  | nil => exact .nil
  | cons piece rest ih =>
    rw [placedFrom]
    split
    · refine .cons ?_ (ih _)
      intro token hmem
      obtain ⟨before, -, -, -, hstart⟩ := exists_append_of_mem_placedFrom hmem
      rw [hstart]
      exact Nat.le_add_right _ _
    · exact ih _

/-- A token is not empty, it ends in the text, and it starts outside of literals, quoted identifiers and comments. -/
theorem bounds_of_mem_spansOf {text : Text} {span : TokenSpan} (h : span ∈ spansOf dialect text) :
    span.start < span.stop ∧ span.stop ≤ text.length
      ∧ regionBehind dialect (text.take span.start) text[span.start]? = .normal := by
  obtain ⟨before, piece, behind, rfl, -, rfl, hleaves, hends⟩ := mem_spansOf_iff.mp h
  obtain ⟨c, tail, htail⟩ := List.exists_cons_of_ne_nil hends.text_ne_nil
  refine ⟨?_, ?_, ?_⟩
  · simp [htail]
  · simp
  · rw [htail, ScanMode.leaves_cons_iff] at hleaves
    have hplace : (before ++ (piece.text ++ behind))[before.length]? = some c := by simp [htail]
    rw [hplace, List.take_left' rfl]
    exact ScanMode.region_of_leaves hleaves

/-- **The law of tokens.**  The tokens of a text are those that an automaton finds which reads one character after
the other.  They are the quoted runs and the word runs of the text; none of them is empty, starts in a literal, a
quoted identifier or a comment, or goes beyond the text, and each ends before the next one starts.  With more text
behind, the tokens of that come behind them, if its first character does not belong to what it stands behind; for
which it is enough that nothing is open there and that the two characters do not combine. -/
theorem spansOf_law (dialect : Dialect) (text : Text) :
    spansOf dialect text = ScanMode.outside.spansFrom dialect 0 text
    ∧ (∀ start stop, ⟨.quoted, start, stop⟩ ∈ spansOf dialect text
        ↔ ∃ before run behind : Text, text = before ++ (run ++ behind) ∧ start = before.length
          ∧ stop = (before ++ run).length ∧ IsQuotedRun dialect before run behind)
    ∧ (∀ start stop, ⟨.word, start, stop⟩ ∈ spansOf dialect text
        ↔ ∃ before run behind : Text, text = before ++ (run ++ behind) ∧ start = before.length
          ∧ stop = (before ++ run).length ∧ IsWordRun dialect before run behind)
    ∧ (∀ span ∈ spansOf dialect text, span.start < span.stop ∧ span.stop ≤ text.length
        ∧ regionBehind dialect (text.take span.start) text[span.start]? = .normal)
    ∧ (spansOf dialect text).Pairwise (fun one other => one.stop ≤ other.start)
    ∧ (∀ more : Text, (modeBehind dialect text).Leaves dialect more →
        spansOf dialect (text ++ more)
          = spansOf dialect text ++ (spansOf dialect more).map (TokenSpan.shift text.length))
    ∧ (∀ more : Text, regionBehind dialect text none = .normal →
        (∀ last ∈ text.getLast?, ∀ first ∈ more.head?, ¬Combine dialect last first) →
        spansOf dialect (text ++ more)
          = spansOf dialect text ++ (spansOf dialect more).map (TokenSpan.shift text.length)) := by
  refine ⟨spansOf_eq_spansFrom text, fun _ _ => mem_spansOf_quoted_iff, fun _ _ => mem_spansOf_word_iff,
    fun _ => bounds_of_mem_spansOf, ?_, fun _ => spansOf_append, ?_⟩
  · exact List.pairwise_map.mpr (pairwise_placedFrom 0 _)
  · intro more hregion hcombine
    exact spansOf_append (leaves_of_not_combine hregion hcombine)

/-- A name, brackets in a literal and in a comment, and two words that a space keeps apart. -/
theorem spansOf_bracketedName :
    regionBehind .sqlServer "[a]]b], '[x]''' -- [c]\nFROM".toList none = .normal
    ∧ ¬Combine .sqlServer 'M' ' '
    ∧ spansOf .sqlServer ("[a]]b], '[x]''' -- [c]\nFROM".toList ++ " t".toList)
      = [⟨.quoted, 0, 6⟩, ⟨.word, 23, 27⟩, ⟨.word, 28, 29⟩] := by
  have hregion : regionBehind .sqlServer "[a]]b], '[x]''' -- [c]\nFROM".toList none = .normal := by
    decide +kernel
  have hlast : "[a]]b], '[x]''' -- [c]\nFROM".toList.getLast? = some 'M' := by decide +kernel
  have hcombine : ¬Combine .sqlServer 'M' ' ' := by decide
  have hlaw := spansOf_law .sqlServer "[a]]b], '[x]''' -- [c]\nFROM".toList
  refine ⟨hregion, hcombine, ?_⟩
  rw [hlaw.2.2.2.2.2.2 " t".toList hregion, hlaw.1]
  · decide +kernel
  · intro last hmem first hfirst
    rw [hlast] at hmem
    rwa [← Option.some_inj.mp hmem, ← Option.some_inj.mp (show some ' ' = some first from hfirst)]

end BulkDml
