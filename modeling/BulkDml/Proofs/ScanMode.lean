import BulkDml.Proofs.PieceCut
import BulkDml.Proofs.TokenPlaces

/-! # Reading tokens character by character

An automaton that looks at one character after the other, neither ahead nor back, finds the tokens of a text.  It
is outside of everything or in a literal, a quoted identifier or a comment, and remembers besides whether it has
just seen what the next character may go on with: a word, a hyphen, or a closing quote that could be doubled.

* `ScanMode`, `ScanMode.step` — the modes of the automaton and its steps;
* `ScanMode.reported`, `ScanMode.behind` — the tokens that end in a text, and the mode behind it;
* `ScanMode.spansFrom_append`, `ScanMode.spansFrom_of_leaves` — a text can be read in parts;
* `ScanMode.spansFrom_outside_eq` — the automaton finds the tokens that lexing finds.
-/

namespace BulkDml

/-! ## Spans -/

/-- The kinds of tokens. -/
inductive TokenKind where
  /-- A word. -/
  | word
  /-- A quoted identifier. -/
  | quoted
deriving DecidableEq

/-- A token as the places between which it stands in a text. -/
structure TokenSpan where
  /-- The kind of the token. -/
  kind : TokenKind
  /-- The number of characters in front of it. -/
  start : Nat
  /-- The number of characters up to its end. -/
  stop : Nat
deriving DecidableEq

/-- A span with a number of characters more in front of it. -/
def TokenSpan.shift (offset : Nat) (span : TokenSpan) : TokenSpan :=
  ⟨span.kind, offset + span.start, offset + span.stop⟩

/-- The kind of a piece that is a token. -/
def Lexeme.kind : Lexeme → TokenKind
  | quoted _ => .quoted
  | _ => .word

/-- The span of a token. -/
def PlacedToken.span (token : PlacedToken) : TokenSpan := ⟨token.piece.kind, token.start, token.stop⟩

/-- The tokens of a text, each as its span. -/
def spansOf (dialect : Dialect) (text : Text) : List TokenSpan :=
  (tokensOf dialect text).map PlacedToken.span

/-- A piece in front of others is a token, or it moves them on. -/
theorem map_span_placedFrom_cons (start : Nat) (piece : Lexeme) (rest : List Lexeme) :
    (placedFrom start (piece :: rest)).map PlacedToken.span
      = (placedFrom start [piece]).map PlacedToken.span
        ++ (placedFrom (start + piece.text.length) rest).map PlacedToken.span := by
  rw [← List.singleton_append, placedFrom_append, List.map_append, textOf_cons, textOf_nil, List.append_nil]

/-- The places of tokens are counted from the first piece on. -/
theorem map_span_placedFrom_add (offset start : Nat) (pieces : List Lexeme) :
    (placedFrom (offset + start) pieces).map PlacedToken.span
      = ((placedFrom start pieces).map PlacedToken.span).map (TokenSpan.shift offset) := by
  induction pieces generalizing start with
  | nil => rfl
  | cons piece rest ih =>
    rw [placedFrom, placedFrom, Nat.add_assoc]
    split
    · rw [List.map_cons, List.map_cons, List.map_cons, ih]
      congr 1
      simp only [PlacedToken.span, PlacedToken.stop, TokenSpan.shift, Nat.add_assoc]
    · exact ih _

/-! ## The automaton -/

/-- The parts of a text that characters are met in. -/
inductive Region where
  /-- Outside of literals, quoted identifiers and comments. -/
  | normal
  /-- In a literal. -/
  | literal
  /-- In a quoted identifier. -/
  | quoted
  /-- In a comment. -/
  | comment
deriving DecidableEq

/-- What is known of a text that was read up to some place. -/
inductive ScanMode where
  /-- Nothing that could go on. -/
  | outside
  /-- A hyphen stands in front. -/
  | hyphen
  /-- A word stands in front, from its start on. -/
  | word (start : Nat)
  /-- A literal is open. -/
  | literal
  /-- An apostrophe in a literal stands in front, which closes it unless it is doubled. -/
  | literalMark
  /-- A quoted identifier is open, from its start on. -/
  | quoted (start : Nat)
  /-- A closing quote in a quoted identifier stands in front, which closes it unless it is doubled. -/
  | quotedMark (start : Nat)
  /-- A comment is open. -/
  | comment
deriving DecidableEq

namespace ScanMode

/-- Whether a character belongs to what stands in front of it: to an open run, to the word in front, or as the
second hyphen of a comment, or the second one of two quotes. -/
def takesUp (dialect : Dialect) : ScanMode → Char → Bool
  | outside, _ => false
  | hyphen, c => c == '-'
  | word _, c => isWordChar c
  | literal, _ => true
  | literalMark, c => c == '\''
  | quoted _, _ => true
  | quotedMark _, c => c == dialect.closeQuote
  | comment, _ => true

/-- The mode behind a character that belongs to what stands in front of it. -/
def goOn (dialect : Dialect) : ScanMode → Char → ScanMode
  | outside, _ => outside
  | hyphen, _ => comment
  | word start, _ => word start
  | literal, c => if c = '\'' then literalMark else literal
  | literalMark, _ => literal
  | quoted start, c => if c = dialect.closeQuote then quotedMark start else quoted start
  | quotedMark start, _ => quoted start
  | comment, c => if c = '\n' then outside else comment

/-- The mode behind a character that starts anew at a place. -/
def enter (dialect : Dialect) (place : Nat) (c : Char) : ScanMode :=
  if c = '\'' then literal
  else if c = dialect.openQuote then quoted place
  else if c = '-' then hyphen
  else if isWordChar c then word place
  else outside

/-- The mode behind the character at a place. -/
def step (dialect : Dialect) (mode : ScanMode) (place : Nat) (c : Char) : ScanMode :=
  if mode.takesUp dialect c then mode.goOn dialect c else enter dialect place c

/-- The token that ends at a place if nothing goes on there. -/
def pending : ScanMode → Nat → List TokenSpan
  | word start, place => [⟨.word, start, place⟩]
  | quoted start, place => [⟨.quoted, start, place⟩]
  | quotedMark start, place => [⟨.quoted, start, place⟩]
  | _, _ => []

/-- The mode behind a text that starts at a place. -/
def behind (dialect : Dialect) : ScanMode → Nat → Text → ScanMode
  | mode, _, [] => mode
  | mode, place, c :: rest => behind dialect (mode.step dialect place c) (place + 1) rest

/-- The tokens that are known to end in a text that starts at a place. -/
def reported (dialect : Dialect) : ScanMode → Nat → Text → List TokenSpan
  | _, _, [] => []
  | mode, place, c :: rest =>
    (if mode.takesUp dialect c then [] else mode.pending place)
      ++ reported dialect (mode.step dialect place c) (place + 1) rest

/-- The tokens that end in a text that starts at a place, or with it. -/
def spansFrom (dialect : Dialect) (mode : ScanMode) (place : Nat) (text : Text) : List TokenSpan :=
  mode.reported dialect place text ++ (mode.behind dialect place text).pending (place + text.length)

/-- The part of a text that the next character is met in, or the end of the text if there is none.  A closing
quote closes unless that character doubles it. -/
def region (dialect : Dialect) : ScanMode → Option Char → Region
  | outside, _ => .normal
  | hyphen, _ => .normal
  | word _, _ => .normal
  | literal, _ => .literal
  | literalMark, next => if next = some '\'' then .literal else .normal
  | quoted _, _ => .quoted
  | quotedMark _, next => if next = some dialect.closeQuote then .quoted else .normal
  | comment, _ => .comment

/-- Whether nothing of a text belongs to what stands in front of it. -/
def Leaves (dialect : Dialect) (mode : ScanMode) (text : Text) : Prop :=
  ∀ c ∈ text.head?, mode.takesUp dialect c = false

variable {dialect : Dialect}

/-! ## Reading in parts -/

theorem leaves_nil (mode : ScanMode) : mode.Leaves dialect [] := by
  intro c hc
  cases hc

theorem leaves_cons_iff {mode : ScanMode} {c : Char} {rest : Text} :
    mode.Leaves dialect (c :: rest) ↔ mode.takesUp dialect c = false := by
  simp [Leaves]

theorem behind_cons (mode : ScanMode) (place : Nat) (c : Char) (rest : Text) :
    mode.behind dialect place (c :: rest)
      = (mode.step dialect place c).behind dialect (place + 1) rest := rfl

/-- The mode behind two texts is that behind the second one, read from the mode behind the first. -/
theorem behind_append (mode : ScanMode) (place : Nat) (left right : Text) :
    mode.behind dialect place (left ++ right)
      = (mode.behind dialect place left).behind dialect (place + left.length) right := by
  induction left generalizing mode place with
  | nil => rfl
  | cons c rest ih =>
    rw [List.cons_append, behind_cons, behind_cons, ih, List.length_cons, Nat.add_assoc, Nat.add_comm 1]

@[simp] theorem spansFrom_nil (mode : ScanMode) (place : Nat) :
    mode.spansFrom dialect place [] = mode.pending place := rfl

theorem spansFrom_cons (mode : ScanMode) (place : Nat) (c : Char) (rest : Text) :
    mode.spansFrom dialect place (c :: rest)
      = (if mode.takesUp dialect c then [] else mode.pending place)
        ++ (mode.step dialect place c).spansFrom dialect (place + 1) rest := by
  rw [spansFrom, spansFrom, reported, behind_cons, List.length_cons, List.append_assoc, Nat.add_assoc,
    Nat.add_comm 1]

/-- A character that belongs to what stands in front of it ends no token. -/
theorem spansFrom_cons_of_takesUp {mode : ScanMode} {c : Char} (h : mode.takesUp dialect c = true)
    (place : Nat) (rest : Text) :
    mode.spansFrom dialect place (c :: rest)
      = (mode.goOn dialect c).spansFrom dialect (place + 1) rest := by
  rw [spansFrom_cons, step, h]
  rfl

/-- A character that starts anew ends what stands in front of it. -/
theorem spansFrom_cons_of_leaves {mode : ScanMode} {c : Char} (h : mode.takesUp dialect c = false)
    (place : Nat) (rest : Text) :
    mode.spansFrom dialect place (c :: rest)
      = mode.pending place ++ (enter dialect place c).spansFrom dialect (place + 1) rest := by
  rw [spansFrom_cons, step, h]
  rfl

/-- The tokens of two texts are those that end in the first one, and those of the second one read from there. -/
theorem spansFrom_append (mode : ScanMode) (place : Nat) (left right : Text) :
    mode.spansFrom dialect place (left ++ right)
      = mode.reported dialect place left
        ++ (mode.behind dialect place left).spansFrom dialect (place + left.length) right := by
  induction left generalizing mode place with
  | nil => rfl
  | cons c rest ih =>
    rw [List.cons_append, spansFrom_cons, ih, reported, behind_cons, List.length_cons, List.append_assoc,
      Nat.add_assoc, Nat.add_comm 1]

/-- **A text that starts anew is read as if nothing stood in front of it.** -/
theorem spansFrom_of_leaves {mode : ScanMode} {text : Text} (h : mode.Leaves dialect text) (place : Nat) :
    mode.spansFrom dialect place text = mode.pending place ++ outside.spansFrom dialect place text := by
  cases text with
  | nil => rw [spansFrom_nil, spansFrom_nil, pending.eq_def outside, List.append_nil]
  | cons c rest =>
    rw [spansFrom_cons_of_leaves (leaves_cons_iff.mp h), spansFrom_cons_of_leaves rfl]
    rfl

/-- **A text is read in two parts** where the second one starts anew. -/
theorem spansFrom_append_of_leaves {mode : ScanMode} {place : Nat} {left right : Text}
    (h : (mode.behind dialect place left).Leaves dialect right) :
    mode.spansFrom dialect place (left ++ right)
      = mode.spansFrom dialect place left ++ outside.spansFrom dialect (place + left.length) right := by
  rw [spansFrom_append, spansFrom_of_leaves h, ← List.append_assoc, ← spansFrom]

/-! ## Runs -/

/-- The modes of a run between quotes: inside of it, and behind a closing quote that could be doubled. -/
structure IsRun (dialect : Dialect) (close : Char) (inside mark : ScanMode) : Prop where
  /-- Everything belongs to an open run. -/
  takesUp_inside : ∀ c, inside.takesUp dialect c = true
  /-- A closing quote may end it. -/
  goOn_inside : ∀ c, inside.goOn dialect c = if c = close then mark else inside
  /-- A second closing quote belongs to the run. -/
  takesUp_mark : mark.takesUp dialect close = true
  /-- The run goes on behind it. -/
  goOn_mark : mark.goOn dialect close = inside
  /-- The token of an open run is that of a closed one. -/
  pending_inside : ∀ place, inside.pending place = mark.pending place

/-- Literals are runs. -/
theorem isRun_literal : IsRun dialect '\'' literal literalMark :=
  ⟨fun _ => rfl, fun _ => rfl, rfl, rfl, fun _ => rfl⟩

/-- Quoted identifiers are runs. -/
theorem isRun_quoted (start : Nat) :
    IsRun dialect dialect.closeQuote (quoted start) (quotedMark start) :=
  ⟨fun _ => rfl, fun _ => rfl, beq_self_eq_true _, rfl, fun _ => rfl⟩

/-- **A run is read up to its end**, be it a closing quote or the end of the text. -/
theorem IsRun.spansFrom_eq {close : Char} {inside mark : ScanMode} (h : IsRun dialect close inside mark)
    (place : Nat) (text : Text) :
    inside.spansFrom dialect place text
      = mark.spansFrom dialect (place + (spanQuoted close text).1.length) (spanQuoted close text).2 := by
  fun_induction spanQuoted close text generalizing place with
  | case1 => exact h.pending_inside place
  | case2 c =>
    rw [spansFrom_cons_of_takesUp (h.takesUp_inside c), h.goOn_inside]
    split
    · rfl
    · exact h.pending_inside (place + 1)
  | case3 rest run after hspan ih =>
    -- the run goes on behind a doubled quote
    rw [hspan] at ih
    rw [spansFrom_cons_of_takesUp (h.takesUp_inside close), h.goOn_inside, if_pos rfl,
      spansFrom_cons_of_takesUp h.takesUp_mark, h.goOn_mark, ih]
    simp only [List.length_cons]
    congr 1
    omega
  | case4 d rest hd =>
    rw [spansFrom_cons_of_takesUp (h.takesUp_inside close), h.goOn_inside, if_pos rfl]
    rfl
  | case5 c d rest hc run after hspan ih =>
    rw [hspan] at ih
    rw [spansFrom_cons_of_takesUp (h.takesUp_inside c), h.goOn_inside, if_neg hc, ih, List.length_cons,
      Nat.add_assoc, Nat.add_comm 1]

/-- A comment is read up to its line break. -/
theorem spansFrom_comment (place : Nat) (text : Text) :
    comment.spansFrom dialect place text
      = outside.spansFrom dialect (place + (spanLine text).1.length) (spanLine text).2 := by
  fun_induction spanLine text generalizing place with
  | case1 => rfl
  | case2 rest => exact spansFrom_cons_of_takesUp rfl place rest
  | case3 c rest hc run after hspan ih =>
    rw [hspan] at ih
    have hgo : comment.goOn dialect c = comment := if_neg hc
    rw [spansFrom_cons_of_takesUp rfl, hgo, ih, List.length_cons, Nat.add_assoc, Nat.add_comm 1]

/-- A word is read as far as word characters go. -/
theorem spansFrom_word (start place : Nat) (text : Text) :
    (word start).spansFrom dialect place text
      = (word start).spansFrom dialect (place + (text.takeWhile isWordChar).length)
        (text.dropWhile isWordChar) := by
  induction text generalizing place with
  | nil => rfl
  | cons c rest ih =>
    cases hc : isWordChar c with
    | false => rw [List.takeWhile_cons_of_neg (by simp [hc]), List.dropWhile_cons_of_neg (by simp [hc])]; rfl
    | true =>
      rw [List.takeWhile_cons_of_pos hc, List.dropWhile_cons_of_pos hc, List.length_cons,
        spansFrom_cons_of_takesUp (show (word start).takesUp dialect c = true from hc), goOn, ih, Nat.add_assoc,
        Nat.add_comm 1]

/-! ## Pieces -/

/-- The mode behind a piece that started at a place and ends in front of something else. -/
def behindPiece (place : Nat) : Lexeme → ScanMode
  | .word _ => word place
  | .quoted _ => quotedMark place
  | .literal _ => literalMark
  | .comment _ => outside
  | .other c => if c = '-' then hyphen else outside

/-- A piece that starts anew is read up to its end. -/
theorem spansFrom_enter (place : Nat) (c : Char) (rest : Text) :
    (enter dialect place c).spansFrom dialect (place + 1) rest
      = (behindPiece place (Lexeme.next dialect c rest).1).spansFrom dialect
        (place + (Lexeme.next dialect c rest).1.text.length) (Lexeme.next dialect c rest).2 := by
  have hlength : ∀ run : Text, place + (c :: run).length = place + 1 + run.length := by
    intro run
    rw [List.length_cons]
    omega
  unfold enter Lexeme.next
  by_cases hliteral : c = '\''
  · simp only [if_pos hliteral, Lexeme.text, hlength]
    exact isRun_literal.spansFrom_eq (place + 1) rest
  by_cases hquoted : c = dialect.openQuote
  · simp only [if_neg hliteral, if_pos hquoted, Lexeme.text, hlength]
    exact (isRun_quoted place).spansFrom_eq (place + 1) rest
  by_cases hdash : c = '-'
  · by_cases hcomment : rest.head? = some '-'
    · -- the second hyphen opens the comment, and the line is read from there on
      obtain ⟨more, rfl⟩ : ∃ more, rest = '-' :: more := by
        cases rest with
        | nil => cases hcomment
        | cons d more => exact ⟨more, by rw [Option.some_inj.mp hcomment]⟩
      have hspan : spanLine ('-' :: more) = ('-' :: (spanLine more).1, (spanLine more).2) :=
        if_neg (by decide)
      have hboth : c = '-' ∧ ('-' :: more).head? = some '-' := ⟨hdash, rfl⟩
      simp only [if_neg hliteral, if_neg hquoted, if_pos hdash, if_pos hboth, hspan, Lexeme.text, hlength]
      rw [spansFrom_cons_of_takesUp rfl, goOn, spansFrom_comment, List.length_cons, Nat.add_assoc (place + 1),
        Nat.add_comm 1]
      rfl
    · have hword : isWordChar c = false := by
        rw [hdash]
        decide
      simp only [if_neg hliteral, if_neg hquoted, if_pos hdash, hcomment, and_false, if_false, hword,
        Bool.false_eq_true, behindPiece, Lexeme.text, List.length_singleton]
  have hcomment : ¬(c = '-' ∧ rest.head? = some '-') := fun h => hdash h.1
  simp only [if_neg hliteral, if_neg hquoted, if_neg hdash, if_neg hcomment]
  by_cases hword : isWordChar c = true
  · simp only [if_pos hword, Lexeme.text, hlength]
    exact spansFrom_word place (place + 1) rest
  · simp only [if_neg hword, behindPiece, if_neg hdash, Lexeme.text, List.length_singleton]

/-- What stands behind a piece starts anew. -/
theorem leaves_behindPiece {piece : Lexeme} {after : Text} (h : piece.EndsBefore dialect after) (place : Nat) :
    (behindPiece place piece).Leaves dialect after := by
  cases after with
  | nil => exact leaves_nil _
  | cons d rest =>
    rw [leaves_cons_iff]
    cases piece with
    | word run => simpa [behindPiece, takesUp] using h.2.2
    | quoted run =>
      obtain ⟨name, ⟨-, hhead⟩ | ⟨-, hnil⟩⟩ := h
      · simpa [behindPiece, takesUp] using hhead
      · cases hnil
    | literal run =>
      obtain ⟨content, ⟨-, hhead⟩ | ⟨-, hnil⟩⟩ := h
      · simpa [behindPiece, takesUp] using hhead
      · cases hnil
    | comment run => rfl
    | other c =>
      obtain ⟨-, -, -, hcomment⟩ := h
      by_cases hdash : c = '-'
      · have hd : d ≠ '-' := by
          intro hd
          exact hcomment ⟨hdash, congrArg some hd⟩
        simpa [behindPiece, hdash, takesUp] using hd
      · rw [behindPiece, if_neg hdash]
        rfl

/-- The token that ends behind a piece is the piece, if that is a token. -/
theorem pending_behindPiece (place : Nat) (piece : Lexeme) :
    (behindPiece place piece).pending (place + piece.text.length)
      = (placedFrom place [piece]).map PlacedToken.span := by
  cases piece with
  | other c =>
    by_cases hdash : c = '-'
    · rw [behindPiece, if_pos hdash]
      rfl
    · rw [behindPiece, if_neg hdash]
      rfl
  | _ => rfl

/-- **The automaton finds the tokens that lexing finds**, from whatever place they are counted. -/
theorem spansFrom_outside_eq (place : Nat) (text : Text) :
    outside.spansFrom dialect place text
      = (placedFrom place (lex dialect text)).map PlacedToken.span := by
  fun_induction lex dialect text generalizing place with
  | case1 => rfl
  | case2 c rest ih =>
    have hleaves := leaves_behindPiece (Lexeme.endsBefore_next dialect c rest) place
    rw [spansFrom_cons_of_leaves rfl, spansFrom_enter, spansFrom_of_leaves hleaves, pending_behindPiece, ih,
      ← map_span_placedFrom_cons]
    rfl

end ScanMode

end BulkDml
