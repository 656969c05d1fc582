import BulkDml.Json.Reading
import BulkDml.Proofs.JsonScalars

/-! # Reading back JSON documents

A document on one line is read back as it was built.  Writing puts down its tokens one after the other, and
the reader, whatever arrays and objects are open, takes the tokens of a document for this document.

* `Json.IsWritten` — documents whose strings are whole and whose numbers are standard;
* `Json.tokens` — the tokens of a document;
* `Json.IsWritten.isCut` — what is written of a document are its tokens;
* `Json.IsWritten.isTakenBack` — the reader takes these for the document;
* `Json.read?_compact`, `Json.compact_injective` — every such document is read back, so that no two are
  written alike.
-/

namespace BulkDml

namespace Json

/-- Whether a document can be written: its strings are made of whole characters, and its numbers are
standard. -/
inductive IsWritten : Json → Prop where
  /-- The word for no value. -/
  | null : IsWritten null
  /-- A truth value. -/
  | bool (value : Bool) : IsWritten (bool value)
  /-- A standard number. -/
  | number {numeral : Numeral} (h : numeral.IsStandard) : IsWritten (number numeral)
  /-- The string of a text. -/
  | string (text : Text) : IsWritten (string (some text))
  /-- An array of such documents. -/
  | array {items : List Json} (h : ∀ item ∈ items, IsWritten item) : IsWritten (array items)
  /-- An object of such documents, under whole keys. -/
  | object {fields : List (JsonString × Json)} (hkeys : ∀ field ∈ fields, field.1.isSome = true)
    (h : ∀ field ∈ fields, IsWritten field.2) : IsWritten (object fields)

mutual

/-- The tokens of a document. -/
def tokens : Json → List Token
  | array items => .openArray :: itemTokens items ++ [.closeArray]
  | object fields => .openObject :: fieldTokens fields ++ [.closeObject]
  | string value => [.string value]
  | scalar => [.scalar scalar]

/-- The tokens of an array's items. -/
def itemTokens : List Json → List Token
  | [] => []
  | [item] => item.tokens
  | item :: next :: rest => item.tokens ++ .comma :: itemTokens (next :: rest)

/-- The tokens of an object's fields. -/
def fieldTokens : List (JsonString × Json) → List Token
  | [] => []
  | [(key, value)] => .string key :: .colon :: value.tokens
  | (key, value) :: next :: rest =>
    .string key :: .colon :: value.tokens ++ .comma :: fieldTokens (next :: rest)

end

/-- A word, number or string is written as such, and is one token. -/
theorem compact_and_tokens_of_scalar (document : Json) :
    match document with
    | array _ | object _ => True
    | string value => document.compact = stringText value ∧ document.tokens = [.string value]
    | null | bool _ | number _ =>
      document.compact = document.scalarText ∧ document.tokens = [.scalar document] := by
  cases document <;> simp [compact, tokens, scalarText]

/-! ## Writing tokens -/

/-- A token that starts a text is the first of its tokens. -/
theorem tokens?_cons_of_token? {c : Char} {rest after : Text} {token : Token}
    (hc : isBlankJson c = false) (h : token? c rest = some (token, after)) :
    tokens? (c :: rest) = (tokens? after).map (token :: ·) := by
  rw [tokens?, hc, if_neg (by simp)]
  split
  · next hnone =>
    rw [h] at hnone
    cases hnone
  · next found behind hfound =>
    rw [h] at hfound
    cases hfound
    rfl

/-- A string that is written is a token. -/
theorem tokens?_stringText_append (text rest : Text) :
    tokens? (stringText (some text) ++ rest)
      = (tokens? rest).map (.string (some text) :: ·) := by
  have htoken : token? '"' (text.flatMap escape ++ '"' :: rest) = some (.string (some text), rest) := by
    simp only [token?, stringUnits?_flatMap_escape, joinUnits_map_toNat, Option.map_some]
  have htext : stringText (some text) ++ rest = '"' :: (text.flatMap escape ++ '"' :: rest) := by
    simp [stringText, quoted]
  rw [htext, tokens?_cons_of_token? rfl htoken]

/-- A word is a token. -/
theorem tokens?_word_append {word : Text} {document : Json} (h : (word, document) ∈ words)
    (rest : Text) : tokens? (word ++ rest) = (tokens? rest).map (.scalar document :: ·) := by
  simp only [words, List.mem_cons, Prod.mk.injEq, List.not_mem_nil, or_false] at h
  rcases h with ⟨rfl, rfl⟩ | ⟨rfl, rfl⟩ | ⟨rfl, rfl⟩
  all_goals exact tokens?_cons_of_token? rfl rfl

/-- A number is a token where it starts with a digit or a minus sign. -/
theorem token?_of_number? {c : Char} {rest after : Text} {numeral : Numeral}
    (hc : c.isDigit = true ∨ c = '-') (h : number? (c :: rest) = some (numeral, after)) :
    token? c rest = some (.scalar (number numeral), after) := by
  have hne : ∀ d : Char, d.isDigit = false → d ≠ '-' → c ≠ d := by
    rintro d hd hminus rfl
    rcases hc with hdigit | rfl
    · rw [hd] at hdigit
      cases hdigit
    · exact hminus rfl
  have hword : word? (c :: rest) = none := by
    simp [word?, words, Text.after?, Ne.symm (hne 'n' rfl (by decide)),
      Ne.symm (hne 't' rfl (by decide)), Ne.symm (hne 'f' rfl (by decide))]
  unfold token?
  split
  iterate 7 exact absurd rfl (hne _ rfl (by decide))
  rw [hword, h]
  rfl

/-- A number that is written is a token, if nothing or a mark stands behind it. -/
theorem tokens?_number_append {numeral : Numeral} (h : numeral.IsStandard) {rest : Text}
    (hrest : Text.startsJsonMark rest = true) :
    tokens? (numeral.text true ++ rest) = (tokens? rest).map (.scalar (number numeral) :: ·) := by
  have hnumber := number?_text_append h hrest
  obtain ⟨c, tail, htext, hc⟩ : ∃ c tail, numeral.text true ++ rest = c :: tail
      ∧ (c.isDigit = true ∨ c = '-') := by
    obtain ⟨d, more, hwhole⟩ := List.exists_cons_of_ne_nil h.whole_ne_nil
    rw [Numeral.text, hwhole]
    cases numeral.negative with
    | true => exact ⟨'-', _, rfl, Or.inr rfl⟩
    | false => exact ⟨d, _, rfl, Or.inl (h.whole d (by simp [hwhole]))⟩
  have hblank : isBlankJson c = false := by
    rcases hc with hdigit | rfl
    · have hne : ∀ d : Char, d.isDigit = false → c ≠ d := by
        rintro d hd rfl
        rw [hd] at hdigit
        cases hdigit
      simp [isBlankJson, hne ' ' rfl, hne '\t' rfl, hne '\n' rfl, hne '\r' rfl]
    · rfl
  rw [htext] at hnumber ⊢
  exact tokens?_cons_of_token? hblank (token?_of_number? hc hnumber)

/-- Whether a document is cut into its tokens whatever mark stands behind it. -/
def IsCut (document : Json) : Prop :=
  ∀ rest, Text.startsJsonMark rest = true →
    tokens? (document.compact ++ rest) = (tokens? rest).map (document.tokens ++ ·)

/-- Items are cut one by one. -/
theorem tokens?_compactItems_append {items : List Json} (h : ∀ item ∈ items, IsCut item) {rest : Text}
    (hrest : Text.startsJsonMark rest = true) :
    tokens? (compactItems items ++ rest) = (tokens? rest).map (itemTokens items ++ ·) := by
  induction items with
  | nil => simp [compactItems, itemTokens]
  | cons item more ih =>
    rw [List.forall_mem_cons] at h
    cases more with
    | nil => exact h.1 rest hrest
    | cons next more =>
      have hcomma : tokens? (',' :: (compactItems (next :: more) ++ rest))
          = (tokens? (compactItems (next :: more) ++ rest)).map (.comma :: ·) :=
        tokens?_cons_of_token? rfl rfl
      rw [compactItems, itemTokens, List.append_assoc, List.cons_append, h.1 _ rfl, hcomma, ih h.2]
      cases tokens? rest <;> simp

/-- Fields are cut one by one. -/
theorem tokens?_compactFields_append {fields : List (JsonString × Json)}
    (hkeys : ∀ field ∈ fields, field.1.isSome = true) (h : ∀ field ∈ fields, IsCut field.2) {rest : Text}
    (hrest : Text.startsJsonMark rest = true) :
    tokens? (compactFields fields ++ rest) = (tokens? rest).map (fieldTokens fields ++ ·) := by
  induction fields with
  | nil => simp [compactFields, fieldTokens]
  | cons field more ih =>
    obtain ⟨key, value⟩ := field
    rw [List.forall_mem_cons] at hkeys h
    obtain ⟨text, rfl⟩ := Option.isSome_iff_exists.mp hkeys.1
    have hvalue : ∀ behind, Text.startsJsonMark behind = true →
        tokens? (stringText (some text) ++ ':' :: (value.compact ++ behind))
          = (tokens? behind).map (.string (some text) :: .colon :: value.tokens ++ ·) := by
      intro behind hbehind
      have hcolon : tokens? (':' :: (value.compact ++ behind))
          = (tokens? (value.compact ++ behind)).map (.colon :: ·) :=
        tokens?_cons_of_token? rfl rfl
      rw [tokens?_stringText_append, hcolon, h.1 behind hbehind]
      cases tokens? behind <;> simp
    cases more with
    | nil =>
      rw [compactFields, fieldTokens, List.append_assoc, List.cons_append, hvalue rest hrest]
    | cons next more =>
      have hcomma : tokens? (',' :: (compactFields (next :: more) ++ rest))
          = (tokens? (compactFields (next :: more) ++ rest)).map (.comma :: ·) :=
        tokens?_cons_of_token? rfl rfl
      rw [compactFields, fieldTokens]
      simp only [List.append_assoc, List.cons_append]
      rw [hvalue _ rfl, hcomma, ih hkeys.2 h.2]
      cases tokens? rest <;> simp

/-- **What is written of a document are its tokens.** -/
theorem IsWritten.isCut {document : Json} (h : document.IsWritten) : IsCut document := by
  intro rest hrest
  induction h generalizing rest with
  | null =>
    obtain ⟨hcompact, htokens⟩ := compact_and_tokens_of_scalar Json.null
    rw [hcompact, htokens]
    exact tokens?_word_append (by simp [words, scalarText]) rest
  | bool value =>
    obtain ⟨hcompact, htokens⟩ := compact_and_tokens_of_scalar (Json.bool value)
    rw [hcompact, htokens]
    cases value
    · exact tokens?_word_append (by simp [words, scalarText]) rest
    · exact tokens?_word_append (by simp [words, scalarText]) rest
  | @number numeral hstandard =>
    obtain ⟨hcompact, htokens⟩ := compact_and_tokens_of_scalar (Json.number numeral)
    rw [hcompact, htokens]
    exact tokens?_number_append hstandard hrest
  | string text =>
    obtain ⟨hcompact, htokens⟩ := compact_and_tokens_of_scalar (Json.string (some text))
    rw [hcompact, htokens]
    exact tokens?_stringText_append text rest
  | @array items h ih =>
    have hopen : ∀ behind, tokens? ('[' :: behind) = (tokens? behind).map (.openArray :: ·) :=
      fun behind => tokens?_cons_of_token? rfl rfl
    have hclose : tokens? (']' :: rest) = (tokens? rest).map (.closeArray :: ·) :=
      tokens?_cons_of_token? rfl rfl
    rw [compact, tokens]
    simp only [List.cons_append, List.append_assoc, List.nil_append]
    rw [hopen, tokens?_compactItems_append ih rfl, hclose]
    cases tokens? rest <;> simp
  | @object fields hkeys h ih =>
    have hopen : ∀ behind, tokens? ('\x7b' :: behind) = (tokens? behind).map (.openObject :: ·) :=
      fun behind => tokens?_cons_of_token? rfl rfl
    have hclose : tokens? ('\x7d' :: rest) = (tokens? rest).map (.closeObject :: ·) :=
      tokens?_cons_of_token? rfl rfl
    rw [compact, tokens]
    simp only [List.cons_append, List.append_assoc, List.nil_append]
    rw [hopen, tokens?_compactFields_append hkeys ih rfl, hclose]
    cases tokens? rest <;> simp

/-! ## Reading tokens -/

/-- Whether the reader takes the tokens of a document for the document, whatever is open and follows. -/
def IsTakenBack (document : Json) : Prop :=
  ∀ stack rest, readValue? stack (document.tokens ++ rest) = readBehind? document stack rest

/-- The tokens of a document start with none that closes an array. -/
theorem exists_tokens_eq_cons (document : Json) :
    ∃ token rest, document.tokens = token :: rest ∧ token ≠ .closeArray := by
  cases document with
  | array items => exact ⟨.openArray, _, rfl, by simp⟩
  | object fields => exact ⟨.openObject, _, rfl, by simp⟩
  | string value => exact ⟨.string value, [], rfl, by simp⟩
  | null => exact ⟨.scalar null, [], rfl, by simp⟩
  | bool value => exact ⟨.scalar (bool value), [], rfl, by simp⟩
  | number numeral => exact ⟨.scalar (number numeral), [], rfl, by simp⟩

/-- The items of an open array are taken one by one, behind those that were taken before. -/
theorem readValue?_itemTokens_append {item : Json} {more : List Json} (hitem : IsTakenBack item)
    (hmore : ∀ later ∈ more, IsTakenBack later) (before : List Json) (stack : List Frame)
    (rest : List Token) :
    readValue? (.array before :: stack) (itemTokens (item :: more) ++ .closeArray :: rest)
      = readBehind? (array (before.reverse ++ item :: more)) stack rest := by
  induction more generalizing item before with
  | nil =>
    rw [itemTokens, hitem, readBehind?]
    simp
  | cons next more ih =>
    rw [List.forall_mem_cons] at hmore
    rw [itemTokens, List.append_assoc, hitem, List.cons_append, readBehind?, ih hmore.1 hmore.2]
    simp

/-- The fields of an open object are taken one by one, behind those that were taken before. -/
theorem readValue?_fieldTokens_append (key : JsonString) {value : Json}
    {more : List (JsonString × Json)} (hvalue : IsTakenBack value)
    (hmore : ∀ later ∈ more, IsTakenBack later.2) (before : List (JsonString × Json))
    (stack : List Frame) (rest : List Token) :
    ∃ behind, fieldTokens ((key, value) :: more) = .string key :: .colon :: behind
      ∧ readValue? (.object before key :: stack) (behind ++ .closeObject :: rest)
        = readBehind? (object (before.reverse ++ (key, value) :: more)) stack rest := by
  induction more generalizing key value before with
  | nil =>
    refine ⟨value.tokens, by rw [fieldTokens], ?_⟩
    rw [hvalue, readBehind?]
    simp
  | cons next more ih =>
    rw [List.forall_mem_cons] at hmore
    obtain ⟨nextKey, nextValue⟩ := next
    obtain ⟨behind, hbehind, hread⟩ := ih nextKey hmore.1 hmore.2 ((key, value) :: before)
    refine ⟨value.tokens ++ .comma :: fieldTokens ((nextKey, nextValue) :: more), by rw [fieldTokens]; rfl,
      ?_⟩
    rw [hbehind, List.append_assoc, hvalue]
    simp only [List.cons_append]
    rw [readBehind?, hread]
    simp

/-- **The reader takes the tokens of a document for the document.** -/
theorem IsWritten.isTakenBack {document : Json} (h : document.IsWritten) : IsTakenBack document := by
  intro stack rest
  induction h generalizing stack rest with
  | null =>
    rw [(compact_and_tokens_of_scalar Json.null).2, List.singleton_append, readValue?]
  | bool value =>
    rw [(compact_and_tokens_of_scalar (Json.bool value)).2, List.singleton_append, readValue?]
  | @number numeral hstandard =>
    rw [(compact_and_tokens_of_scalar (Json.number numeral)).2, List.singleton_append, readValue?]
  | string text =>
    rw [(compact_and_tokens_of_scalar (Json.string (some text))).2, List.singleton_append, readValue?]
  | @array items h ih =>
    rw [tokens]
    cases items with
    | nil =>
      rw [itemTokens]
      simp only [List.cons_append, List.nil_append]
      rw [readValue?]
    | cons item more =>
      rw [List.forall_mem_cons] at ih
      have hitems := readValue?_itemTokens_append ih.1 ih.2 [] stack rest
      simp only [List.cons_append, List.append_assoc, List.nil_append]
      rw [readValue?, hitems, List.reverse_nil, List.nil_append]
      -- no item starts like the end of an array
      intro behind hbehind
      obtain ⟨token, tail, htokens, hne⟩ := exists_tokens_eq_cons item
      cases more with
      | nil =>
        rw [itemTokens, htokens] at hbehind
        cases hbehind
        exact hne rfl
      | cons next more =>
        rw [itemTokens, htokens] at hbehind
        cases hbehind
        exact hne rfl
  | @object fields hkeys h ih =>
    rw [tokens]
    cases fields with
    | nil =>
      rw [fieldTokens]
      simp only [List.cons_append, List.nil_append]
      rw [readValue?]
    | cons field more =>
      rw [List.forall_mem_cons] at ih
      obtain ⟨key, value⟩ := field
      obtain ⟨behind, hbehind, hfields⟩ :=
        readValue?_fieldTokens_append key ih.1 ih.2 [] stack rest
      rw [hbehind]
      simp only [List.cons_append, List.append_assoc, List.nil_append]
      rw [readValue?, hfields, List.reverse_nil, List.nil_append]

/-! ## Documents -/

/-- **A document that can be written is read back.** -/
theorem read?_compact {document : Json} (h : document.IsWritten) :
    read? document.compact = some document := by
  have hcut := h.isCut [] rfl
  have htaken := h.isTakenBack [] []
  rw [List.append_nil] at hcut htaken
  rw [read?, hcut, tokens?]
  simp only [Option.map_some, Option.bind_some, List.append_nil]
  rw [htaken, readBehind?]

/-- No two documents are written alike. -/
theorem compact_injective {document other : Json} (h : document.IsWritten) (hother : other.IsWritten)
    (hcompact : document.compact = other.compact) : document = other := by
  have hread := read?_compact h
  rw [hcompact, read?_compact hother] at hread
  exact (Option.some_inj.mp hread).symm

end Json

end BulkDml
