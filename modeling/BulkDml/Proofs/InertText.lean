import BulkDml.Proofs.LiteralText
import BulkDml.Proofs.Passage
import BulkDml.Proofs.PlaceholderBinding

/-! # Inert text

A text is *inert* if nothing in it is taken for a placeholder and no quote of it stays open, so that
binding copies it whatever stands around it.

* `isPlain`, `isClosingQuote` — characters that mean nothing to binding, and those that close its runs;
* `Text.IsInert` — a text that is copied, with a closing lemma for each way in which SQL is put together;
* `Expr.isInert_of_sql` — the text of an expression is inert.
-/

namespace BulkDml

/-! ## Plain characters -/

/-- Whether a character means nothing to binding: it opens no quoted run and introduces no placeholder. -/
def isPlain (c : Char) : Bool := (closingQuote? c).isNone && !isIntroducer c

/-- Whether a character closes quoted runs. -/
def isClosingQuote (c : Char) : Bool := c == '\'' || c == '"' || c == '\x60' || c == ']'

/-- Whether a text starts with a character that may prolong the quoted run in front of it. -/
def Text.startsClosing (text : Text) : Bool := text.head?.any isClosingQuote

@[simp] theorem Text.startsClosing_nil : Text.startsClosing [] = false := rfl

@[simp] theorem Text.startsClosing_cons (c : Char) (rest : Text) :
    Text.startsClosing (c :: rest) = isClosingQuote c := rfl

/-- The first of two texts that prolong nothing prolongs nothing together with the other. -/
theorem Text.startsClosing_append {left right : Text} (hleft : Text.startsClosing left = false)
    (hright : Text.startsClosing right = false) : Text.startsClosing (left ++ right) = false := by
  cases left with
  | nil => exact hright
  | cons c tail => exact hleft

/-- A text that prolongs nothing does not start with the quote that closes a run. -/
theorem head?_ne_of_startsClosing {opening close : Char} {text : Text}
    (hclose : closingQuote? opening = some close) (h : Text.startsClosing text = false) :
    text.head? ≠ some close := by
  have hquote : isClosingQuote close = true := by
    unfold closingQuote? at hclose
    split at hclose
    all_goals first
      | (cases hclose; rfl)
      | cases hclose
  intro hhead
  rw [Text.startsClosing, hhead, Option.any_some, hquote] at h
  cases h

/-- A plain character is a segment of its own. -/
theorem segments_cons_of_plain {c : Char} (h : isPlain c = true) (rest : Text) :
    segments (c :: rest) = .other c :: segments rest := by
  simp only [isPlain, Bool.and_eq_true, Option.isNone_iff_eq_none, Bool.not_eq_true'] at h
  rw [segments_cons, Segment.next, h.1]
  simp [h.2]

/-- Binding copies plain characters, whatever stands behind them. -/
theorem bindFrom_plain_append {lead : Text} (h : ∀ c ∈ lead, isPlain c = true)
    (bindings bound : List Binding) (rest : Text) :
    bindFrom bindings bound (segments (lead ++ rest))
      = (lead ++ (bindFrom bindings bound (segments rest)).1,
          (bindFrom bindings bound (segments rest)).2) := by
  induction lead with
  | nil => rfl
  | cons c tail ih =>
    rw [List.forall_mem_cons] at h
    rw [List.cons_append, segments_cons_of_plain h.1, bindFrom_cons_of_kept _ _ rfl, ih h.2]
    rfl

/-- A content between quotes is one segment, if its closing quote is doubled inside and nothing prolongs
it. -/
theorem segments_quoted {opening close : Char} (hclose : closingQuote? opening = some close)
    (content : Text) {rest : Text} (h : Text.startsClosing rest = false) :
    segments (opening :: content.doubling close ++ close :: rest)
      = .quoted (opening :: content.doubling close ++ [close]) :: segments rest := by
  rw [List.cons_append, segments_cons, Segment.next, hclose]
  simp only [spanQuoted_doubling close content rest (head?_ne_of_startsClosing hclose h)]
  rfl

/-! ## Inert texts -/

/-- A text that is copied whatever stands around it. -/
structure Text.IsInert (text : Text) : Prop where
  /-- Its segments come first in every text that it starts and that does not prolong it. -/
  segments_append : ∀ rest, Text.startsClosing rest = false →
    segments (text ++ rest) = segments text ++ segments rest
  /-- None of its segments is a placeholder. -/
  kept : ∀ segment ∈ segments text, segment.isPlaceholder = false

namespace Text.IsInert

/-- An inert text is copied, and binding goes on behind it as it would without it. -/
theorem bindFrom_append {text : Text} (h : Text.IsInert text) (bindings bound : List Binding)
    {rest : Text} (hrest : Text.startsClosing rest = false) :
    bindFrom bindings bound (segments (text ++ rest))
      = (text ++ (bindFrom bindings bound (segments rest)).1,
          (bindFrom bindings bound (segments rest)).2) := by
  rw [h.segments_append rest hrest, BulkDml.bindFrom_append,
    bindFrom_of_forall_kept _ _ h.kept, flatMap_text_segments]

/-- The empty text is inert. -/
theorem nil : Text.IsInert [] := by
  constructor
  · intro rest _
    simp
  · intro segment hmem
    simp at hmem

/-- A plain character in front of an inert text makes an inert text. -/
theorem cons {c : Char} {tail : Text} (hc : isPlain c = true) (h : Text.IsInert tail) :
    Text.IsInert (c :: tail) := by
  constructor
  · intro rest hrest
    rw [List.cons_append, segments_cons_of_plain hc, segments_cons_of_plain hc,
      h.segments_append rest hrest]
    rfl
  · intro segment hmem
    rw [segments_cons_of_plain hc, List.mem_cons] at hmem
    rcases hmem with rfl | hmem
    · rfl
    · exact h.kept segment hmem

/-- An inert text behind another one is inert with it, if it does not prolong it. -/
theorem append {left right : Text} (hleft : Text.IsInert left) (hright : Text.IsInert right)
    (h : Text.startsClosing right = false) : Text.IsInert (left ++ right) := by
  constructor
  · intro rest hrest
    -- what follows `left` is `right` with `rest` behind it, and neither prolongs a run
    rw [List.append_assoc, hleft.segments_append _ (Text.startsClosing_append h hrest),
      hright.segments_append rest hrest, hleft.segments_append _ h, List.append_assoc]
  · intro segment hmem
    rw [hleft.segments_append _ h, List.mem_append] at hmem
    rcases hmem with hmem | hmem
    · exact hleft.kept segment hmem
    · exact hright.kept segment hmem

/-- Plain characters in front of an inert text make an inert text. -/
theorem plain_append {lead text : Text} (hlead : ∀ c ∈ lead, isPlain c = true)
    (h : Text.IsInert text) : Text.IsInert (lead ++ text) := by
  induction lead with
  | nil => exact h
  | cons c tail ih =>
    rw [List.forall_mem_cons] at hlead
    exact cons hlead.1 (ih hlead.2)

/-- A text of plain characters is inert. -/
theorem of_forall_plain {text : Text} (h : ∀ c ∈ text, isPlain c = true) : Text.IsInert text := by
  rw [← List.append_nil text]
  exact plain_append h nil

/-- A content between quotes is inert, if its closing quote is doubled inside. -/
theorem quoted {opening close : Char} (hclose : closingQuote? opening = some close)
    (content : Text) : Text.IsInert (opening :: content.doubling close ++ [close]) := by
  have halone := segments_quoted hclose content Text.startsClosing_nil
  rw [segments_nil] at halone
  constructor
  · intro rest hrest
    rw [halone, List.append_assoc]
    exact segments_quoted hclose content hrest
  · intro segment hmem
    rw [halone, List.mem_singleton] at hmem
    rw [hmem]
    rfl

/-- A quoted name is inert, whatever the name. -/
theorem quote (dialect : Dialect) (name : Text) : Text.IsInert (dialect.quote name) := by
  have hclose : closingQuote? dialect.openQuote = some dialect.closeQuote := by
    cases dialect <;> rfl
  exact quoted hclose name

/-- The literal of a text is inert, whatever the text. -/
theorem textLiteral (content : Text) : Text.IsInert (Value.textLiteral content) :=
  quoted rfl content

end Text.IsInert

/-! ## Inert expressions -/

/-- Bare characters are plain. -/
theorem isPlain_of_isBareChar {c : Char} (h : isBareChar c = true) : isPlain c = true := by
  have hne : ∀ d, isBareChar d = false → c ≠ d := by
    rintro d hd rfl
    rw [h] at hd
    cases hd
  have hclose : closingQuote? c = none := by
    unfold closingQuote?
    split
    all_goals first
      | rfl
      | exact absurd rfl (hne _ (by decide))
  simp [isPlain, isIntroducer, hclose, hne '@' (by decide), hne ':' (by decide),
    hne '$' (by decide)]

/-- Every literal is inert. -/
theorem LiteralText.isInert {text : Text} (h : LiteralText text) : Text.IsInert text := by
  cases h with
  | bare hbare =>
    refine .of_forall_plain ?_
    intro c hc
    exact isPlain_of_isBareChar (hbare c hc)
  | text content => exact .textLiteral content
  | blob content =>
    -- the `X` in front of the quotes is plain
    exact .cons (by decide) (.textLiteral content)

/-- The spelling of an operator is plain. -/
theorem Operator.isPlain_of_mem_sql {c : Char} {op : Operator} (h : c ∈ op.sql) :
    isPlain c = true := by
  have hall : op.sql.all isPlain = true := by cases op <;> decide
  exact List.all_eq_true.mp hall c h

/-- Parentheses around an inert text make an inert text. -/
theorem Expr.isInert_enclose (parens : Bool) {text : Text} (h : Text.IsInert text) :
    Text.IsInert (enclose parens text) := by
  cases parens with
  | false => exact h
  | true =>
    -- a closing parenthesis prolongs no run, so that it may follow any text
    have hparen : Text.IsInert [')'] := .cons (by decide) .nil
    have hclosed : Text.IsInert (text ++ [')']) := h.append hparen rfl
    exact .cons (by decide) hclosed

/-- The text of an expression is inert: names, literals and parentheses in it are all closed. -/
theorem Expr.isInert_of_sql {dialect : Dialect} {expr : Expr} {text : Text}
    (h : expr.sql dialect = .ok text) : Text.IsInert text := by
  induction expr generalizing text with
  | captured name value => exact (Rendered.literalText_of_toSql h).isInert
  | column name =>
    cases h
    exact .quote dialect name
  | constant value => exact (Rendered.literalText_of_toSql h).isInert
  | converted operand ih => exact ih h
  | binary op left right ihLeft ihRight =>
    obtain ⟨-, leftText, rightText, hleft, hright, rfl⟩ := sql_binary_eq_ok_iff.mp h
    -- the space behind each operand keeps it from being prolonged by what follows
    have hop : Text.IsInert (' ' :: op.sql) :=
      .cons (by decide) (.of_forall_plain fun _ => Operator.isPlain_of_mem_sql)
    have hbehind : Text.IsInert (' ' :: enclose (needsParens op true right) rightText) :=
      .cons (by decide) (isInert_enclose _ (ihRight hright))
    exact ((isInert_enclose _ (ihLeft hleft)).append hop rfl).append hbehind rfl

end BulkDml
