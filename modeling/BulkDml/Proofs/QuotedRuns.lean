import BulkDml.Proofs.PlaceholderBinding
import BulkDml.Proofs.ScannedTokens

/-! # Quoted names and texts

A name between quotes and the literal of a text hold any content at all, since closing quotes are doubled in them.
Lexing and binding, which look for the end of a run each in its own way, both find it where it was written, unless
the text behind starts with one more closing quote; and the content comes back by taking the doubling away.

* `Text.unquote?`, `Text.unquote?_eq_some_iff` — the content of a run, and the only run of a content;
* `IsFirstToken`, `isFirstToken_quote_iff` — a quoted name is the first token in front of a text;
* `IsCopied`, `isCopied_run_iff` — a run is copied by binding in front of a text;
* `quoting_law` — quoted names and literals of texts in front of any text.
-/

namespace BulkDml

/-! ## Taking quotes away -/

/-- The content of a text that its last character closes, if any closing quote inside of it is doubled. -/
def Text.closed? (close : Char) : Text → Option Text
  | [] => none
  | [c] => if c = close then some [] else none
  | c :: d :: rest =>
    if c = close then
      if d = close then (Text.closed? close rest).map (close :: ·) else none
    else (Text.closed? close (d :: rest)).map (c :: ·)

/-- The content of a text between two quotes, if any closing quote inside of it is doubled. -/
def Text.unquote? (opening close : Char) : Text → Option Text
  | [] => none
  | c :: rest => if c = opening then Text.closed? close rest else none

/-- A content with its closing quotes doubled is closed by a single one. -/
theorem Text.closed?_doubling (close : Char) (content : Text) :
    Text.closed? close (content.doubling close ++ [close]) = some content := by
  induction content with
  | nil => exact if_pos rfl
  | cons c tail ih =>
    rw [Text.doubling_cons]
    by_cases hc : c = close
    · subst hc
      simp only [if_true, List.cons_append, List.nil_append]
      rw [Text.closed?, if_pos rfl, if_pos rfl, ih]
      rfl
    · -- the closing quote follows `c` if nothing else does
      simp only [if_neg hc, List.cons_append, List.nil_append]
      obtain ⟨d, more, hmore⟩ := List.exists_cons_of_ne_nil
        (List.append_ne_nil_of_right_ne_nil (Text.doubling close tail) (List.cons_ne_nil close []))
      rw [hmore, Text.closed?, if_neg hc, ← hmore, ih]
      rfl

/-- Nothing else is closed. -/
theorem Text.eq_of_closed? {close : Char} {text content : Text} (h : Text.closed? close text = some content) :
    text = content.doubling close ++ [close] := by
  fun_induction Text.closed? close text generalizing content with
  | case1 => cases h
  | case2 =>
    cases h
    rfl
  | case3 => cases h
  | case4 rest ih =>
    obtain ⟨inner, hinner, rfl⟩ := Option.map_eq_some_iff.mp h
    rw [ih hinner, Text.doubling_cons, if_pos rfl]
    rfl
  | case5 => cases h
  | case6 c d rest hc ih =>
    obtain ⟨inner, hinner, rfl⟩ := Option.map_eq_some_iff.mp h
    rw [ih hinner, Text.doubling_cons, if_neg hc]
    rfl

/-- **A run has one content, and a content one run.** -/
theorem Text.unquote?_eq_some_iff {opening close : Char} {text content : Text} :
    Text.unquote? opening close text = some content
      ↔ text = opening :: content.doubling close ++ [close] := by
  constructor
  · intro h
    cases text with
    | nil => cases h
    | cons c rest =>
      rw [Text.unquote?] at h
      split at h
      · next hc => rw [hc, Text.eq_of_closed? h, List.cons_append]
      · cases h
  · rintro rfl
    rw [List.cons_append, Text.unquote?, if_pos rfl, Text.closed?_doubling]

/-! ## Tokens in front of a text -/

variable {dialect : Dialect}

/-- A piece that is complete in front of a text has the tokens of that behind it. -/
theorem spansOf_text_append {piece : Lexeme} {rest : Text} (h : piece.EndsBefore dialect rest) :
    spansOf dialect (piece.text ++ rest)
      = (placedFrom 0 [piece]).map PlacedToken.span
        ++ (spansOf dialect rest).map (TokenSpan.shift piece.text.length) := by
  have hbehind := map_span_placedFrom_add piece.text.length 0 (lex dialect rest)
  rw [Nat.add_zero] at hbehind
  rw [spansOf, tokensOf, Lexeme.lex_text_append h, map_span_placedFrom_cons, Nat.zero_add, hbehind]
  rfl

/-- Whether a run in front of a text is the first token of both together, a quoted identifier, with the tokens of
that text behind it. -/
def IsFirstToken (dialect : Dialect) (run rest : Text) : Prop :=
  spansOf dialect (run ++ rest)
    = ⟨.quoted, 0, run.length⟩ :: (spansOf dialect rest).map (TokenSpan.shift run.length)

/-- **A quoted name is one token** in front of every text but those that start with one more closing quote. -/
theorem isFirstToken_quote_iff {name rest : Text} :
    IsFirstToken dialect (dialect.quote name) rest ↔ rest.head? ≠ some dialect.closeQuote := by
  constructor
  · intro h
    have hmem : ⟨.quoted, 0, (dialect.quote name).length⟩ ∈ spansOf dialect (dialect.quote name ++ rest) := by
      rw [h]
      exact List.mem_cons_self
    obtain ⟨before, run, behind, htext, hstart, hstop, -, other, hends⟩ := mem_spansOf_quoted_iff.mp hmem
    -- the run has nothing in front of it and ends where the name does
    obtain rfl : before = [] := List.length_eq_zero_iff.mp hstart.symm
    rw [List.nil_append] at htext hstop
    obtain ⟨-, rfl⟩ := List.append_inj htext hstop
    rcases hends with ⟨-, hhead⟩ | ⟨-, hnil⟩
    · exact hhead
    · rw [hnil]
      simp
  · intro h
    have hends : (Lexeme.quoted (dialect.quote name)).EndsBefore dialect rest := ⟨name, .inl ⟨rfl, h⟩⟩
    have hspans := spansOf_text_append hends
    rw [Lexeme.text] at hspans
    rw [IsFirstToken, hspans]
    simp [placedFrom, Lexeme.isToken, PlacedToken.span, PlacedToken.stop, Lexeme.kind, Lexeme.text]

/-- The literal of a text has no token in it. -/
theorem spansOf_textLiteral_append (content : Text) {rest : Text} (h : rest.head? ≠ some '\'') :
    spansOf dialect (Value.textLiteral content ++ rest)
      = (spansOf dialect rest).map (TokenSpan.shift (Value.textLiteral content).length) := by
  have hends : (Lexeme.literal (Value.textLiteral content)).EndsBefore dialect rest := ⟨content, .inl ⟨rfl, h⟩⟩
  exact spansOf_text_append hends

/-! ## Binding in front of a text -/

/-- Whether binding copies a run in front of a text as one quoted segment, and makes of that text what it would
make of it alone. -/
def IsCopied (run rest : Text) : Prop :=
  segments (run ++ rest) = .quoted run :: segments rest
    ∧ ∀ bindings : List Binding, toPositional (run ++ rest) bindings
      = ⟨run ++ (toPositional rest bindings).sql, (toPositional rest bindings).values⟩

/-- **A run between quotes is copied** in front of every text but those that start with one more closing quote. -/
theorem isCopied_run_iff {opening close : Char} (hclose : closingQuote? opening = some close)
    {content rest : Text} :
    IsCopied (opening :: content.doubling close ++ [close]) rest ↔ rest.head? ≠ some close := by
  constructor
  · rintro ⟨hsegments, -⟩
    have hsplit := Segment.isSplit_segments (opening :: content.doubling close ++ [close] ++ rest)
    rw [hsegments, Segment.isSplit_cons, flatMap_text_segments] at hsplit
    obtain ⟨⟨start, finish, other, hfinish, hends⟩, -⟩ := hsplit
    rcases hends with ⟨hrun, hhead⟩ | ⟨-, hnil⟩
    · -- the run has one opening quote, and so one closing quote
      obtain ⟨rfl, -⟩ := List.cons.inj hrun
      rw [hclose] at hfinish
      rwa [Option.some_inj.mp hfinish]
    · rw [hnil]
      simp
  · intro h
    have hends : (Segment.quoted (opening :: content.doubling close ++ [close])).EndsBefore rest :=
      ⟨opening, close, content, hclose, .inl ⟨rfl, h⟩⟩
    have hsegments := Segment.segments_text_append hends
    rw [Segment.text] at hsegments
    refine ⟨hsegments, ?_⟩
    intro bindings
    rw [toPositional, hsegments, bindFrom_cons_of_kept _ _ rfl]
    rfl

/-- The quotes of a dialect are quotes to binding. -/
theorem closingQuote?_openQuote (dialect : Dialect) :
    closingQuote? dialect.openQuote = some dialect.closeQuote := by
  cases dialect <;> rfl

/-- **The law of quoting.**  A quoted name, whatever its content, is one token and copied as one run in front of a
text exactly if that does not start with one more closing quote.  In front of a text that does not start with an
apostrophe the literal of a text has no token, and it is copied as one run in front of these texts and no others.
Either comes back without its quotes, as nothing else does. -/
theorem quoting_law (dialect : Dialect) :
    (∀ name rest : Text,
      IsFirstToken dialect (dialect.quote name) rest ↔ rest.head? ≠ some dialect.closeQuote)
    ∧ (∀ name rest : Text, IsCopied (dialect.quote name) rest ↔ rest.head? ≠ some dialect.closeQuote)
    ∧ (∀ name run : Text,
      Text.unquote? dialect.openQuote dialect.closeQuote run = some name ↔ run = dialect.quote name)
    ∧ (∀ content rest : Text, rest.head? ≠ some '\'' →
      spansOf dialect (Value.textLiteral content ++ rest)
        = (spansOf dialect rest).map (TokenSpan.shift (Value.textLiteral content).length))
    ∧ (∀ content rest : Text, IsCopied (Value.textLiteral content) rest ↔ rest.head? ≠ some '\'')
    ∧ ∀ content run : Text, Text.unquote? '\'' '\'' run = some content ↔ run = Value.textLiteral content := by
  refine ⟨fun _ _ => isFirstToken_quote_iff, ?_, fun _ _ => Text.unquote?_eq_some_iff, ?_, ?_,
    fun _ _ => Text.unquote?_eq_some_iff⟩
  · intro name rest
    exact isCopied_run_iff (closingQuote?_openQuote dialect)
  · intro content rest h
    exact spansOf_textLiteral_append content h
  · intro content rest
    exact isCopied_run_iff rfl

/-- A name with a bracket and an apostrophe in it, and a literal with an apostrophe. -/
theorem quoting_apostrophes :
    IsFirstToken .sqlServer "[a]]'b]".toList " = 1".toList
    ∧ IsCopied "[a]]'b]".toList " = 1".toList
    ∧ spansOf .sqlServer ("'it''s'".toList ++ ", [x]".toList) = [⟨.quoted, 9, 12⟩] := by
  obtain ⟨htoken, hcopied, -, hliteral, -, -⟩ := quoting_law .sqlServer
  have hname : Dialect.sqlServer.quote "a]'b".toList = "[a]]'b]".toList := by decide +kernel
  have htext : Value.textLiteral "it's".toList = "'it''s'".toList := by decide +kernel
  have hspans := hliteral "it's".toList ", [x]".toList (by decide)
  rw [htext] at hspans
  refine ⟨?_, ?_, ?_⟩
  · rw [← hname]
    exact (htoken _ _).mpr (by decide)
  · rw [← hname]
    exact (hcopied _ _).mpr (by decide)
  · rw [hspans]
    decide +kernel

end BulkDml
