import BulkDml.Proofs.QueryLayout

/-! # Tokens and their places

The tokens of a text are its words and quoted identifiers, each with the number of characters in front of it.
Literals, comments and other characters are passed over, so that a token can be told by its number among the
tokens or by its place in the text.

* `PlacedToken`, `tokensOf` — the tokens of a text, in order;
* `textBetween`, `textFrom` — what stands between two tokens, and from a token on;
* `IsKeywordAt`, `IsFirstAt`, `IsFirstBehind` — where the tokens spell a keyword;
* `mentions_iff_exists_isKeywordAt` — pieces mention a keyword if one of their tokens spells it.
-/

namespace BulkDml

/-- A token and its place in a text. -/
structure PlacedToken where
  /-- The number of characters in front of the token. -/
  start : Nat
  /-- The token itself. -/
  piece : Lexeme
deriving DecidableEq

/-- The number of characters up to the end of the token. -/
def PlacedToken.stop (token : PlacedToken) : Nat := token.start + token.piece.text.length

/-- The tokens among pieces with `start` characters in front of them. -/
def placedFrom : Nat → List Lexeme → List PlacedToken
  | _, [] => []
  | start, piece :: rest =>
    if piece.isToken then ⟨start, piece⟩ :: placedFrom (start + piece.text.length) rest
    else placedFrom (start + piece.text.length) rest

/-- The tokens of a text, in order. -/
def tokensOf (dialect : Dialect) (text : Text) : List PlacedToken := placedFrom 0 (lex dialect text)

/-- The text between two tokens. -/
def textBetween (text : Text) (left right : PlacedToken) : Text :=
  (text.take right.start).drop left.stop

/-- The text from a token on. -/
def textFrom (text : Text) (token : PlacedToken) : Text := text.drop token.start

/-! ## Counting tokens -/

/-- The number of tokens among pieces. -/
def tokenCount (pieces : List Lexeme) : Nat := pieces.countP Lexeme.isToken

@[simp] theorem tokenCount_nil : tokenCount [] = 0 := rfl

@[simp] theorem tokenCount_append (left right : List Lexeme) :
    tokenCount (left ++ right) = tokenCount left + tokenCount right := List.countP_append

theorem tokenCount_cons_of_token {piece : Lexeme} (h : piece.isToken = true) (rest : List Lexeme) :
    tokenCount (piece :: rest) = tokenCount rest + 1 := List.countP_cons_of_pos h

theorem tokenCount_eq_zero_iff {pieces : List Lexeme} :
    tokenCount pieces = 0 ↔ pieces.find? Lexeme.isToken = none := by
  rw [tokenCount, List.countP_eq_zero, List.find?_eq_none]

@[simp] theorem length_placedFrom (start : Nat) (pieces : List Lexeme) :
    (placedFrom start pieces).length = tokenCount pieces := by
  induction pieces generalizing start with
  | nil => rfl
  | cons piece rest ih =>
    rw [placedFrom]
    split
    · next h => rw [List.length_cons, ih, tokenCount_cons_of_token h]
    · next h => rw [ih, tokenCount, tokenCount, List.countP_cons_of_neg h]

/-- The tokens of pieces one behind the other. -/
theorem placedFrom_append (start : Nat) (left right : List Lexeme) :
    placedFrom start (left ++ right)
      = placedFrom start left ++ placedFrom (start + (textOf left).length) right := by
  induction left generalizing start with
  | nil => rfl
  | cons piece rest ih =>
    rw [List.cons_append, placedFrom, placedFrom, ih, textOf_cons, List.length_append, Nat.add_assoc]
    split <;> rfl

/-- A token has as many tokens in front of it as the pieces before it hold. -/
theorem getElem?_placedFrom_append_cons (start : Nat) (before behind : List Lexeme) {piece : Lexeme}
    (h : piece.isToken = true) :
    (placedFrom start (before ++ piece :: behind))[tokenCount before]?
      = some ⟨start + (textOf before).length, piece⟩ := by
  rw [placedFrom_append, List.getElem?_append_right (by simp), length_placedFrom, Nat.sub_self,
    placedFrom, if_pos h, List.getElem?_cons_zero]

/-- A token among pieces is one of them. -/
theorem piece_mem_of_mem_placedFrom {start : Nat} {pieces : List Lexeme} {token : PlacedToken}
    (h : token ∈ placedFrom start pieces) : token.piece ∈ pieces := by
  induction pieces generalizing start with
  | nil => cases h
  | cons piece rest ih =>
    rw [placedFrom] at h
    split at h
    · rcases List.mem_cons.mp h with rfl | hrest
      · exact List.mem_cons_self
      · exact List.mem_cons_of_mem _ (ih hrest)
    · exact List.mem_cons_of_mem _ (ih h)

/-! ## Where keywords stand -/

/-- Whether the token with the given number spells a keyword. -/
def IsKeywordAt (tokens : List PlacedToken) (keyword : Keyword) (index : Nat) : Prop :=
  ∃ token, tokens[index]? = some token ∧ token.piece.isKeyword keyword = true

/-- Whether this token is the first one that spells the keyword. -/
def IsFirstAt (tokens : List PlacedToken) (keyword : Keyword) (index : Nat) : Prop :=
  IsKeywordAt tokens keyword index ∧ ∀ earlier < index, ¬IsKeywordAt tokens keyword earlier

/-- Whether this token is the first one behind `start` that spells the keyword. -/
def IsFirstBehind (tokens : List PlacedToken) (start : Nat) (keyword : Keyword) (index : Nat) : Prop :=
  start < index ∧ IsKeywordAt tokens keyword index
    ∧ ∀ earlier, start < earlier → earlier < index → ¬IsKeywordAt tokens keyword earlier

/-- There is one first token that spells a keyword at most. -/
theorem IsFirstAt.unique {tokens : List PlacedToken} {keyword : Keyword} {one other : Nat}
    (hone : IsFirstAt tokens keyword one) (hother : IsFirstAt tokens keyword other) : one = other := by
  rcases Nat.lt_trichotomy one other with hlt | heq | hgt
  · exact absurd hone.1 (hother.2 one hlt)
  · exact heq
  · exact absurd hother.1 (hone.2 other hgt)

/-- There is one first token behind another that spells a keyword at most. -/
theorem IsFirstBehind.unique {tokens : List PlacedToken} {start : Nat} {keyword : Keyword}
    {one other : Nat} (hone : IsFirstBehind tokens start keyword one)
    (hother : IsFirstBehind tokens start keyword other) : one = other := by
  obtain ⟨hbehind, hkeyword, hfirst⟩ := hone
  obtain ⟨hbehind', hkeyword', hfirst'⟩ := hother
  rcases Nat.lt_trichotomy one other with hlt | heq | hgt
  · exact absurd hkeyword (hfirst' one hbehind hlt)
  · exact heq
  · exact absurd hkeyword' (hfirst other hbehind' hgt)

/-- A keyword that some token spells is spelled by a first one. -/
theorem IsKeywordAt.exists_isFirstAt {tokens : List PlacedToken} {keyword : Keyword} {index : Nat}
    (h : IsKeywordAt tokens keyword index) : ∃ first ≤ index, IsFirstAt tokens keyword first := by
  induction index using Nat.strong_induction_on with
  | _ index ih =>
    by_cases hearlier : ∃ earlier < index, IsKeywordAt tokens keyword earlier
    · obtain ⟨earlier, hlt, hkeyword⟩ := hearlier
      obtain ⟨first, hle, hfirst⟩ := ih earlier hlt hkeyword
      exact ⟨first, hle.trans hlt.le, hfirst⟩
    · exact ⟨index, le_refl index, h, fun earlier hlt hkeyword => hearlier ⟨earlier, hlt, hkeyword⟩⟩

/-- A token spells one keyword at most. -/
theorem IsKeywordAt.keyword_unique {tokens : List PlacedToken} {first second : Keyword} {index : Nat}
    (hfirst : IsKeywordAt tokens first index) (hsecond : IsKeywordAt tokens second index) :
    first = second := by
  obtain ⟨token, htoken, hkeyword⟩ := hfirst
  obtain ⟨same, hsame, hkeyword'⟩ := hsecond
  rw [htoken] at hsame
  cases hsame
  by_contra hne
  rw [Lexeme.isKeyword_unique hkeyword hne] at hkeyword'
  cases hkeyword'

/-- A keyword among pieces is a token. -/
theorem Lexeme.isToken_of_isKeyword {piece : Lexeme} {keyword : Keyword}
    (h : piece.isKeyword keyword = true) : piece.isToken = true := by
  cases htoken : piece.isToken with
  | true => rfl
  | false =>
    rw [Lexeme.isKeyword_eq_false_of_not_token htoken] at h
    cases h

/-- A piece that is a keyword has its place among the tokens. -/
theorem isKeywordAt_append_cons (start : Nat) (before behind : List Lexeme) {piece : Lexeme}
    {keyword : Keyword} (h : piece.isKeyword keyword = true) :
    IsKeywordAt (placedFrom start (before ++ piece :: behind)) keyword (tokenCount before) :=
  ⟨_, getElem?_placedFrom_append_cons start before behind (Lexeme.isToken_of_isKeyword h), h⟩

/-- **Pieces mention a keyword exactly if one of their tokens spells it**, its number being counted from the
first token of the whole on. -/
theorem mentions_iff_exists_isKeywordAt {whole before pieces behind : List Lexeme}
    (h : whole = before ++ (pieces ++ behind)) (keyword : Keyword) :
    mentions keyword pieces = true
      ↔ ∃ index, tokenCount before ≤ index ∧ index < tokenCount before + tokenCount pieces
        ∧ IsKeywordAt (placedFrom 0 whole) keyword index := by
  subst h
  constructor
  · intro hmentions
    obtain ⟨piece, hpiece, hkeyword⟩ := List.any_eq_true.mp hmentions
    obtain ⟨front, back, rfl⟩ := List.append_of_mem hpiece
    refine ⟨tokenCount (before ++ front), by simp, ?_, ?_⟩
    · rw [tokenCount_append, tokenCount_append,
        tokenCount_cons_of_token (Lexeme.isToken_of_isKeyword hkeyword)]
      omega
    · have hplace := isKeywordAt_append_cons 0 (before ++ front) (back ++ behind) hkeyword
      simpa using hplace
  · rintro ⟨index, hlower, hupper, token, htoken, hkeyword⟩
    rw [placedFrom_append, List.getElem?_append_right (by simpa using hlower), placedFrom_append,
      List.getElem?_append_left (by simp; omega)] at htoken
    exact List.any_eq_true.mpr
      ⟨token.piece, piece_mem_of_mem_placedFrom (List.mem_of_getElem? htoken), hkeyword⟩

/-- Pieces at the end mention a keyword if some token from their first on spells it. -/
theorem mentions_behind_iff_exists_isKeywordAt {whole before pieces : List Lexeme}
    (h : whole = before ++ pieces) (keyword : Keyword) :
    mentions keyword pieces = true
      ↔ ∃ index, tokenCount before ≤ index ∧ IsKeywordAt (placedFrom 0 whole) keyword index := by
  have hwhole : whole = before ++ (pieces ++ []) := by simpa using h
  rw [mentions_iff_exists_isKeywordAt hwhole]
  constructor
  · rintro ⟨index, hlower, -, hkeyword⟩
    exact ⟨index, hlower, hkeyword⟩
  · rintro ⟨index, hlower, hkeyword⟩
    refine ⟨index, hlower, ?_, hkeyword⟩
    -- no token is beyond the last one
    obtain ⟨token, htoken, -⟩ := hkeyword
    obtain ⟨hlength, -⟩ := List.getElem?_eq_some_iff.mp htoken
    simpa [h] using hlength

/-- Pieces without a keyword have no token that spells it. -/
theorem not_isKeywordAt_of_mentions {whole before pieces behind : List Lexeme}
    (h : whole = before ++ (pieces ++ behind)) {keyword : Keyword}
    (hnone : mentions keyword pieces = false) {index : Nat} (hlower : tokenCount before ≤ index)
    (hupper : index < tokenCount before + tokenCount pieces) :
    ¬IsKeywordAt (placedFrom 0 whole) keyword index := by
  intro hkeyword
  have hmentions := (mentions_iff_exists_isKeywordAt h keyword).mpr ⟨index, hlower, hupper, hkeyword⟩
  rw [hnone] at hmentions
  cases hmentions

/-- Pieces at the end without a keyword have no token that spells it. -/
theorem not_isKeywordAt_of_mentions_behind {whole before pieces : List Lexeme}
    (h : whole = before ++ pieces) {keyword : Keyword} (hnone : mentions keyword pieces = false)
    {index : Nat} (hlower : tokenCount before ≤ index) :
    ¬IsKeywordAt (placedFrom 0 whole) keyword index := by
  intro hkeyword
  have hmentions := (mentions_behind_iff_exists_isKeywordAt h keyword).mpr ⟨index, hlower, hkeyword⟩
  rw [hnone] at hmentions
  cases hmentions

/-- What splitting the pieces behind `lead` at a keyword says about the tokens: of these, the word behind
`front` is the first that spells the keyword. -/
structure IsFoundBehind (whole lead front : List Lexeme) (keyword : Keyword) (found : Lexeme)
    (behind : List Lexeme) : Prop where
  /-- The word stands where it was found. -/
  whole_eq : whole = (front ++ [found]) ++ behind
  /-- It is a token. -/
  count_found : tokenCount (front ++ [found]) = tokenCount front + 1
  /-- It spells the keyword. -/
  isKeywordAt : IsKeywordAt (placedFrom 0 whole) keyword (tokenCount front)
  /-- The tokens of `lead` stand in front of it. -/
  count_lead : tokenCount lead ≤ tokenCount front
  /-- No token between these and the word spells it. -/
  none_between : ∀ index, tokenCount lead ≤ index → index < tokenCount front →
    ¬IsKeywordAt (placedFrom 0 whole) keyword index

/-- A split finds the first token that spells the keyword. -/
theorem isFoundBehind_of_splitKeyword {whole lead rest before behind : List Lexeme} {keyword : Keyword}
    {found : Lexeme} (h : whole = lead ++ rest)
    (hsplit : splitKeyword keyword rest = some (before, found, behind)) :
    IsFoundBehind whole lead (lead ++ before) keyword found behind := by
  obtain ⟨rfl, hbefore, hfound⟩ := splitKeyword_eq_some_iff.mp hsplit
  refine ⟨by simpa using h, ?_, ?_, by simp, ?_⟩
  · rw [tokenCount_append, tokenCount_cons_of_token (Lexeme.isToken_of_isKeyword hfound), tokenCount_nil]
  · have hplace := isKeywordAt_append_cons 0 (lead ++ before) behind hfound
    rwa [List.append_assoc, ← h] at hplace
  · intro index hlower hupper
    exact not_isKeywordAt_of_mentions h hbefore hlower (by simpa using hupper)

/-- A split of all pieces finds the first token of all that spells the keyword. -/
theorem isFirstAt_of_splitKeyword {pieces before behind : List Lexeme} {keyword : Keyword} {found : Lexeme}
    (h : splitKeyword keyword pieces = some (before, found, behind)) :
    IsFirstAt (placedFrom 0 pieces) keyword (tokenCount before) := by
  have hfound : IsFoundBehind pieces [] before keyword found behind :=
    isFoundBehind_of_splitKeyword rfl h
  exact ⟨hfound.isKeywordAt, fun index hlt => hfound.none_between index (Nat.zero_le index) hlt⟩

/-! ## Texts around tokens -/

/-- The text between two tokens is that of the pieces between them. -/
theorem textBetween_textOf (before between behind : List Lexeme) (left right : Lexeme) :
    textBetween (textOf (before ++ left :: (between ++ right :: behind)))
        ⟨(textOf before).length, left⟩ ⟨(textOf (before ++ left :: between)).length, right⟩
      = textOf between := by
  have hfront : textOf (before ++ left :: (between ++ right :: behind))
      = (textOf before ++ left.text) ++ textOf between ++ textOf (right :: behind) := by simp
  have hstop : (textOf (before ++ left :: between)).length
      = (textOf before ++ left.text ++ textOf between).length := by simp
  rw [textBetween, PlacedToken.stop, hfront, hstop, List.take_left', ← List.length_append,
    List.drop_left']
  · rfl
  · rfl

/-- The text from a token on is that of its piece and those behind. -/
theorem textFrom_textOf (before behind : List Lexeme) (piece : Lexeme) :
    textFrom (textOf (before ++ piece :: behind)) ⟨(textOf before).length, piece⟩
      = textOf (piece :: behind) := by
  rw [textFrom, textOf_append, List.drop_left']
  rfl

end BulkDml
