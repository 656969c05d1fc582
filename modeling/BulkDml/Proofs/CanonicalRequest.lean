import BulkDml.Proofs.DistinctDocuments
import BulkDml.Proofs.FiniteReading

/-! # The canonical text of a request

A request can be written in many ways: its records as objects or as arrays, the fields of an object in any
order and with others among them, what has a default not at all.  Written again, it has one text.  Whatever
is read is nested no deeper than this text may be, and its numbers are finite, so that the text is read as the
same request again; only digits of a floating-point number that are not read back stand against it.

* `Expr.ofJson?_cases` — what an expression can have been read from;
* `Value.IsReadable`, `Expr.IsReadable` — bounds of what is read;
* `Request.isReadable_of_read?` — a request that is read is within these bounds;
* `Request.canonical?`, `Request.canonical_law` — the canonical text tells its request apart from others, is
  read as this request, and is its own canonical text.
-/

namespace BulkDml

/-! ## What is read -/

namespace Json

/-- A record is taken apart only where there is a level for it. -/
theorem ne_zero_of_record? {levels : Nat} {names : List Text} {document : Json} {fields : List (Option Json)}
    (h : document.record? levels names = some fields) : levels ≠ 0 := by
  rintro rfl
  cases h

/-- A variant carries something only where there is a level for it. -/
theorem ne_zero_of_variant? {levels : Nat} {document content : Json} {name : Text}
    (h : document.variant? levels = some (name, some content)) : levels ≠ 0 := by
  rintro rfl
  cases document with
  | string value => cases value <;> cases h
  | object fields =>
    match fields with
    | [(key, value)] => cases h
    | [] => cases h
    | _ :: _ :: _ => cases h
  | _ => cases h

end Json

/-- Whether a value can have been read where there are so many levels. -/
structure Value.IsReadable (levels : Nat) (value : Value) : Prop where
  /-- Its document is nested no deeper. -/
  depth_le : value.toJson.depth ≤ levels
  /-- It is no number that is not finite. -/
  finite : value.hasLiteral = true

/-- A value that is read is readable. -/
theorem Value.isReadable_of_ofJson? {levels : Nat} {document : Json} {value : Value}
    (h : ofJson? levels document = some value) : value.IsReadable levels := by
  cases document with
  | null =>
    cases h
    exact ⟨by simp [depth_toJson], rfl⟩
  | bool b =>
    cases h
    exact ⟨by simp [depth_toJson], rfl⟩
  | number numeral =>
    rw [ofJson?] at h
    split at h
    · cases h
      exact ⟨by simp [depth_toJson], rfl⟩
    · obtain ⟨x, hx, rfl⟩ := Option.map_eq_some_iff.mp h
      exact ⟨by simp [depth_toJson], Numeral.isFinite_of_toBinary64? hx⟩
  | string content =>
    obtain ⟨t, -, rfl⟩ := Option.map_eq_some_iff.mp h
    exact ⟨by simp [depth_toJson], rfl⟩
  | array items =>
    rw [ofJson?] at h
    split at h
    · cases h
    · next hlevels =>
      obtain ⟨bytes, -, rfl⟩ := Option.map_eq_some_iff.mp h
      exact ⟨by rw [depth_toJson]; exact Nat.one_le_iff_ne_zero.mpr hlevels, rfl⟩
  | object fields => cases h

namespace Expr

/-- What a member can have been read from. -/
theorem memberOfJson?_cases {levels : Nat} {name : Text} {binding : Json} {expr : Expr}
    (h : memberOfJson? levels name binding = some expr) :
    expr = column name
      ∨ ∃ value content, levels ≠ 0 ∧ expr = captured name value
        ∧ Value.ofJson? (levels - 1) content = some value := by
  simp only [memberOfJson?, Option.bind_eq_bind, Option.bind_eq_some_iff] at h
  obtain ⟨⟨kind, carried⟩, hvariant, h⟩ := h
  dsimp only at h
  split at h
  · split at h
    · exact .inl (Option.some.inj h).symm
    · exact .inl (Option.some.inj h).symm
    · cases h
  · split at h
    · obtain ⟨content, rfl, value, hvalue, hexpr⟩ := by
        simpa only [Option.bind_eq_some_iff] using h
      exact .inr ⟨value, content, Json.ne_zero_of_variant? hvariant, (Option.some.inj hexpr).symm, hvalue⟩
    · cases h

/-- **What an expression can have been read from**, and the levels that were left for its parts. -/
theorem ofJson?_cases {levels : Nat} {document : Json} {expr : Expr}
    (h : ofJson? (levels + 1) document = some expr) :
    (∃ value content, expr = constant value ∧ Value.ofJson? levels content = some value)
      ∨ (∃ operand content, expr = converted operand ∧ ofJson? levels content = some operand)
      ∨ (∃ name binding, levels ≠ 0 ∧ memberOfJson? (levels - 1) name binding = some expr)
      ∨ ∃ deeper op left right content other, levels = deeper + 1 ∧ expr = binary op left right
        ∧ ofJson? deeper content = some left ∧ ofJson? deeper other = some right := by
  simp only [ofJson?, Option.bind_eq_bind, Option.bind_eq_some_iff] at h
  obtain ⟨⟨kind, carried⟩, -, content, -, h⟩ := h
  dsimp only at h
  split at h
  · obtain ⟨value, hvalue, hexpr⟩ := Option.bind_eq_some_iff.mp h
    exact .inl ⟨value, content, (Option.some.inj hexpr).symm, hvalue⟩
  split at h
  · obtain ⟨operand, hoperand, hexpr⟩ := Option.bind_eq_some_iff.mp h
    exact .inr (.inl ⟨operand, content, (Option.some.inj hexpr).symm, hoperand⟩)
  split at h
  · obtain ⟨fields, hrecord, h⟩ := Option.bind_eq_some_iff.mp h
    split at h
    · next name binding =>
      obtain ⟨text, -, hmember⟩ := Option.bind_eq_some_iff.mp h
      exact .inr (.inr (.inl ⟨text, binding, Json.ne_zero_of_record? hrecord, hmember⟩))
    · cases h
  split at h
  · split at h
    · cases h
    · next deeper =>
      obtain ⟨fields, -, h⟩ := Option.bind_eq_some_iff.mp h
      split at h
      · next op left right =>
        simp only [Option.bind_eq_some_iff] at h
        obtain ⟨key, -, operator, -, first, hfirst, second, hsecond, hexpr⟩ := h
        exact .inr (.inr (.inr ⟨deeper, operator, first, second, left, right, rfl,
          (Option.some.inj hexpr).symm, hfirst, hsecond⟩))
      · cases h
  · cases h

end Expr

/-- Whether an expression can have been read where there are so many levels. -/
structure Expr.IsReadable (levels : Nat) (expr : Expr) : Prop where
  /-- Its document is nested no deeper. -/
  depth_le : expr.toJson.depth ≤ levels
  /-- Its values are no numbers that are not finite. -/
  finite : ∀ value ∈ expr.values, value.hasLiteral = true

/-- **An expression that is read is readable.** -/
theorem Expr.isReadable_of_ofJson? {levels : Nat} {document : Json} {expr : Expr}
    (h : ofJson? levels document = some expr) : expr.IsReadable levels := by
  induction levels using Nat.strong_induction_on generalizing document expr with
  | _ levels ih =>
    cases levels with
    | zero => cases h
    | succ levels =>
      rcases ofJson?_cases h with ⟨value, content, rfl, hvalue⟩ | ⟨operand, content, rfl, hoperand⟩
        | ⟨name, binding, hlevels, hmember⟩
        | ⟨deeper, op, left, right, content, other, rfl, rfl, hleft, hright⟩
      · have hreadable := Value.isReadable_of_ofJson? hvalue
        exact ⟨by simpa [toJson] using hreadable.depth_le, by simpa [values] using hreadable.finite⟩
      · have hreadable := ih levels (Nat.lt_succ_self levels) hoperand
        exact ⟨by simpa [toJson] using hreadable.depth_le, by simpa [values] using hreadable.finite⟩
      · rcases memberOfJson?_cases hmember with rfl | ⟨value, content, henough, rfl, hvalue⟩
        · have hdepth : (column name).toJson.depth = 2 := by simp [toJson]
          exact ⟨by omega, by simp [values]⟩
        · have hreadable := Value.isReadable_of_ofJson? hvalue
          have hinner := hreadable.depth_le
          have hdepth : (captured name value).toJson.depth = value.toJson.depth + 3 := by simp [toJson]
          exact ⟨by omega, by simpa [values] using hreadable.finite⟩
      · have hfirst := ih deeper (by omega) hleft
        have hsecond := ih deeper (by omega) hright
        have hinner := hfirst.depth_le
        have hinner' := hsecond.depth_le
        have hdepth : (binary op left right).toJson.depth = max left.toJson.depth right.toJson.depth + 2 := by
          rw [depth_toJson, nodeDepth, Nat.add_comm]
        refine ⟨by omega, ?_⟩
        rw [values, List.forall_mem_append]
        exact ⟨hfirst.finite, hsecond.finite⟩

/-! ## Requests that are read -/

/-- Every element of a list that is read was read from some item. -/
theorem exists_of_mem_listOfJson? {α : Type} {item? : Json → Option α} {levels : Nat}
    {document : Option Json} {items : List α} (h : listOfJson? item? levels document = some items)
    {element : α} (hmem : element ∈ items) : ∃ item, item? item = some element := by
  cases document with
  | none =>
    cases h
    cases hmem
  | some document =>
    obtain ⟨contents, -, hcontents⟩ := Option.bind_eq_some_iff.mp h
    clear h
    induction contents generalizing items with
    | nil =>
      cases hcontents
      cases hmem
    | cons content rest ih =>
      simp only [List.mapM_cons, Option.bind_eq_bind, Option.bind_eq_some_iff] at hcontents
      obtain ⟨first, hfirst, others, hothers, hitems⟩ := hcontents
      cases hitems
      rcases List.mem_cons.mp hmem with rfl | hothersMem
      · exact ⟨content, hfirst⟩
      · exact ih hothersMem hothers

/-- An assignment that is read has a level of its own above those of its value. -/
theorem Assignment.Entry.isReadable_of_ofJson? {levels : Nat} {document : Json} {entry : Assignment.Entry}
    (h : ofJson? levels document = some entry) :
    levels ≠ 0 ∧ entry.value.IsReadable (levels - 1) := by
  obtain ⟨fields, hrecord, h⟩ := Option.bind_eq_some_iff.mp h
  refine ⟨Json.ne_zero_of_record? hrecord, ?_⟩
  split at h
  · simp only [Option.bind_eq_bind, Option.bind_eq_some_iff] at h
    obtain ⟨column, -, value, hvalue, hentry⟩ := h
    cases hentry
    exact Expr.isReadable_of_ofJson? hvalue
  · cases h

/-- A parameter that is read has a level of its own above those of its value. -/
theorem Binding.isReadable_of_ofJson? {levels : Nat} {document : Json} {binding : Binding}
    (h : ofJson? levels document = some binding) :
    levels ≠ 0 ∧ binding.value.IsReadable (levels - 1) := by
  obtain ⟨fields, hrecord, h⟩ := Option.bind_eq_some_iff.mp h
  refine ⟨Json.ne_zero_of_record? hrecord, ?_⟩
  split at h
  · simp only [Option.bind_eq_bind, Option.bind_eq_some_iff] at h
    obtain ⟨name, -, value, hvalue, hbinding⟩ := h
    cases hbinding
    exact Value.isReadable_of_ofJson? hvalue
  · cases h

namespace Request

/-- Whether a request can have been read where there are so many levels. -/
structure IsReadable (levels : Nat) (request : Request) : Prop where
  /-- Its document is nested no deeper. -/
  depth_le : request.toJson.depth ≤ levels
  /-- Its values are no numbers that are not finite. -/
  finite : ∀ value ∈ request.values, value.hasLiteral = true

/-- **A request that is read is readable**, although the lists that it leaves out take a level each when it is
written. -/
theorem isReadable_of_ofJson? {levels : Nat} (hlevels : 2 ≤ levels) {document : Json} {request : Request}
    (h : ofJson? levels document = some request) : request.IsReadable levels := by
  obtain ⟨fields, -, h⟩ := Option.bind_eq_some_iff.mp h
  split at h
  · simp only [Option.bind_eq_bind, Option.bind_eq_some_iff] at h
    obtain ⟨kind, -, operation, -, query, -, set, hset, ignored, -, bindings, hbindings, shard, -,
      hrequest⟩ := h
    cases hrequest
    have hentries : ∀ entry ∈ set, levels - 2 ≠ 0 ∧ entry.value.IsReadable (levels - 2 - 1) := by
      intro entry hentry
      obtain ⟨item, hitem⟩ := exists_of_mem_listOfJson? hset hentry
      exact Assignment.Entry.isReadable_of_ofJson? hitem
    have hvalues : ∀ binding ∈ bindings, levels - 2 ≠ 0 ∧ binding.value.IsReadable (levels - 2 - 1) := by
      intro binding hbinding
      obtain ⟨item, hitem⟩ := exists_of_mem_listOfJson? hbindings hbinding
      exact Binding.isReadable_of_ofJson? hitem
    refine ⟨(depth_toJson_le_iff _ _).mpr ⟨hlevels, ?_, ?_⟩, forall_mem_values.mpr ⟨?_, ?_⟩⟩
    · intro entry hentry
      obtain ⟨hpositive, hreadable⟩ := hentries entry hentry
      have hdepth := hreadable.depth_le
      simp only [Assignment.Entry.toJson, Json.depth_ofFields_cons, Json.depth_ofFields_nil,
        Json.depth_ofText]
      omega
    · intro binding hbinding
      obtain ⟨hpositive, hreadable⟩ := hvalues binding hbinding
      have hdepth := hreadable.depth_le
      simp only [Binding.toJson, Json.depth_ofFields_cons, Json.depth_ofFields_nil, Json.depth_ofText]
      omega
    · exact fun entry hentry => (hentries entry hentry).2.finite
    · exact fun binding hbinding => (hvalues binding hbinding).2.finite
  · cases h

/-- A request that is read from a text is readable. -/
theorem isReadable_of_read? {text : Text} {request : Request} (h : read? text = some request) :
    request.IsReadable Json.depthLimit := by
  obtain ⟨document, -, hdocument⟩ := Option.bind_eq_some_iff.mp h
  exact isReadable_of_ofJson? (by decide) hdocument

/-! ## The canonical text -/

/-- The text of a request that another text writes. -/
def canonical? (text : Text) : Option Text := (read? text).map fun request => request.toJson.compact

/-- Texts have one canonical text exactly if they write one request. -/
theorem canonical?_eq_iff {text other : Text} {request again : Request} (h : read? text = some request)
    (hother : read? other = some again) : canonical? other = canonical? text ↔ again = request := by
  rw [canonical?, canonical?, h, hother, Option.map_some, Option.map_some, Option.some.injEq]
  constructor
  · intro hcompact
    have hdocument := Json.compact_injective again.isWritten_toJson request.isWritten_toJson hcompact
    exact toJson_inj (isReadable_of_read? hother).finite (isReadable_of_read? h).finite hdocument
  · rintro rfl
    rfl

/-- The canonical text is read as the same request exactly if the digits of each floating-point number in the
request are read back. -/
theorem read?_compact_iff_of_read? {text : Text} {request : Request} (h : read? text = some request) :
    read? request.toJson.compact = some request ↔ ∀ x, Value.float x ∈ request.values → x.ReadsBack := by
  have hreadable := isReadable_of_read? h
  rw [read?_compact_iff, and_iff_right hreadable.depth_le]
  constructor
  · intro hvalues x hx
    exact (hvalues (.float x) hx).digits x rfl
  · intro hfloats value hvalue
    refine ⟨hreadable.finite value hvalue, ?_⟩
    rintro x rfl
    exact hfloats x hvalue

/-- **The canonical text of a request.**  However requests are written, their canonical texts tell them apart.
The canonical text is read as the same request, if only the digits of its floating-point numbers are read
back.  It is then its own canonical text, and the same statement is made from both texts, whatever the
tag. -/
theorem canonical_law {text : Text} {request : Request} (h : read? text = some request) :
    (∀ other again, read? other = some again → (canonical? other = canonical? text ↔ again = request))
      ∧ (read? request.toJson.compact = some request
        ↔ ∀ x, Value.float x ∈ request.values → x.ReadsBack)
      ∧ ((∀ x, Value.float x ∈ request.values → x.ReadsBack) →
        canonical? request.toJson.compact = canonical? text
          ∧ ∀ tag, (read? request.toJson.compact).map (compile tag) = (read? text).map (compile tag)) := by
  refine ⟨fun other again hother => canonical?_eq_iff h hother, read?_compact_iff_of_read? h, ?_⟩
  intro hfloats
  have hback := (read?_compact_iff_of_read? h).mpr hfloats
  exact ⟨(canonical?_eq_iff h hback).mpr rfl, fun tag => congrArg (Option.map _) (hback.trans h.symm)⟩

/-- A request as an array of its fields, with a variant that carries `null`, an assignment as an array and
one as an object with a further field, a negative zero, an integer of more than 64 bits, no bytes, a column
that is ignored three times, and a route that is `null`. -/
def mixedDocument : Json :=
  .array
    [.ofText "sqlserver".toList, .ofFields [("update", .null)], .ofText "FROM t AS x WHERE x.a = 1".toList,
     .array
      [.array
        [.ofText "a".toList,
         .ofFields [("binary",
          .array [.ofFields [("add", .null)],
            .ofFields [("constant", .number ⟨true, Text.ofNat 0, [], none⟩)],
            .ofFields [("constant", .ofInt 9223372036854775808)]])]],
       .ofFields [("value", .ofFields [("constant", .array [])]), ("note", .array [.array []]),
        ("column", .ofText "b".toList)]],
     .array [.ofText "c".toList, .ofText "C".toList, .ofText "c".toList],
     .array [.ofFields [("value", .ofInt 5), ("name", .ofText "@p0".toList)]],
     .null]

/-- The request that this document writes. -/
def mixedRequest : Request where
  kind := "sqlserver".toList
  operation := .update
  query := "FROM t AS x WHERE x.a = 1".toList
  set :=
    [⟨"a".toList, .binary .add (.constant (.float (.ofCode true 0)))
      (.constant (.float (.ofDecimal false 9223372036854775808 0)))⟩,
     ⟨"b".toList, .constant (.blob [])⟩]
  ignored := ⟨["c".toList, "C".toList, "c".toList]⟩
  bindings := [⟨"@p0".toList, .int 5⟩]
  shard := none

/-- The document is taken for the request, and whatever is not written canonically in it goes into the
canonical text of the request, from which the same request is read. -/
theorem canonical_law_mixedDocument :
    read? mixedDocument.compact = some mixedRequest
      ∧ read? mixedRequest.toJson.compact = some mixedRequest
      ∧ canonical? mixedRequest.toJson.compact = some mixedRequest.toJson.compact
      ∧ ∀ tag, (read? mixedRequest.toJson.compact).map (compile tag) = some (mixedRequest.compile tag) := by
  have hwritten : mixedDocument.IsWritten := by
    have hzero : (Json.number ⟨true, Text.ofNat 0, [], none⟩).IsWritten :=
      .number (Numeral.isStandard_ofNat true 0)
    simp [mixedDocument, Json.isWritten_array_iff, Json.isWritten_ofFields_iff, Json.isWritten_ofText,
      Json.isWritten_ofInt, Json.IsWritten.null, hzero]
  have hread : read? mixedDocument.compact = some mixedRequest := by
    rw [read?, Json.read?_compact hwritten, Option.bind_some]
    decide +kernel
  have hfloats : ∀ x, Value.float x ∈ mixedRequest.values → x.ReadsBack := by
    have hvalues : mixedRequest.values
        = [.float (.ofCode true 0), .float (.ofDecimal false 9223372036854775808 0), .blob [], .int 5] := rfl
    intro x hx
    rw [hvalues] at hx
    simp only [List.mem_cons, Value.float.injEq, reduceCtorEq, List.not_mem_nil, or_false] at hx
    rcases hx with rfl | rfl <;> decide +kernel
  obtain ⟨-, hback, hagain⟩ := canonical_law hread
  obtain ⟨hcanonical, hcompiled⟩ := hagain hfloats
  refine ⟨hread, hback.mpr hfloats, ?_, fun tag => ?_⟩
  · rw [hcanonical, canonical?, hread, Option.map_some]
  · rw [hcompiled, hread, Option.map_some]

end Request

end BulkDml
