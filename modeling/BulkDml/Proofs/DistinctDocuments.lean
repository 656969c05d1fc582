import BulkDml.Proofs.RequestRoundTrip

/-! # Documents tell apart what they were made from

No two finite values have one document, and neither have two expressions or two requests of such values.  No
reader is needed for that: a finite floating-point number has the digits that it alone is nearest to, whether
or not these digits are read back.

* `Value.toJson_inj`, `Expr.toJson_inj`, `Request.toJson_inj` — what is written shows what it was made from.
-/

namespace BulkDml

/-! ## Values -/

namespace Value

/-- All values but floating-point numbers are read back. -/
theorem readsBack_of_variant_ne {value : Value} (h : value.variant ≠ .float) : value.ReadsBack := by
  rw [readsBack_iff]
  cases value with
  | float x => exact absurd rfl h
  | _ => trivial

/-- **No two finite values have one document.** -/
theorem toJson_inj {value other : Value} (hvalue : value.hasLiteral = true)
    (hother : other.hasLiteral = true) (h : value.toJson = other.toJson) : value = other := by
  have hvariant : value.variant = other.variant := by
    rw [← variantShown_toJson hvalue, h, variantShown_toJson hother]
  by_cases hfloat : value.variant = .float
  · cases value with
    | float x =>
      cases other with
      | float y =>
        have hx : x.isFinite = true := hvalue
        have hy : y.isFinite = true := hother
        rw [toJson, if_pos hx, toJson, if_pos hy] at h
        have hnumeral : FloatLayout.json.numeral x = FloatLayout.json.numeral y := Json.number.inj h
        rw [← FloatLayout.json.ofDecimal_numeral hx, hnumeral, FloatLayout.json.ofDecimal_numeral hy]
      | _ => cases hvariant
    | _ => cases hfloat
  · -- whatever else is written is read back, and the document is read in one way only
    have hdepth (written : Value) : written.toJson.depth ≤ 1 := by
      rw [depth_toJson]
      split <;> omega
    have hread := (ofJson?_toJson_iff 1 value).mpr ⟨hdepth value, readsBack_of_variant_ne hfloat⟩
    have hread' := (ofJson?_toJson_iff 1 other).mpr
      ⟨hdepth other, readsBack_of_variant_ne (hvariant ▸ hfloat)⟩
    rw [h, hread'] at hread
    exact (Option.some.inj hread).symm

end Value

/-! ## Expressions -/

/-- No two operators have one key. -/
theorem Operator.key_inj {op other : Operator} (h : op.key = other.key) : op = other := by
  have hkey := ofKey?_key op
  rw [h, ofKey?_key] at hkey
  exact (Option.some.inj hkey).symm

namespace Expr

/-- **No two expressions of finite values have one document.** -/
theorem toJson_inj {expr other : Expr} (hexpr : ∀ value ∈ expr.values, value.hasLiteral = true)
    (hother : ∀ value ∈ other.values, value.hasLiteral = true) (h : expr.toJson = other.toJson) :
    expr = other := by
  induction expr generalizing other with
  | constant value =>
    cases other with
    | constant held =>
      have hcontent : value.toJson = held.toJson := by simpa [toJson, Json.ofFields] using h
      rw [Value.toJson_inj (hexpr value (by simp [values])) (hother held (by simp [values])) hcontent]
    | _ => simp [toJson, Json.ofFields] at h
  | converted operand ih =>
    cases other with
    | converted inner =>
      have hcontent : operand.toJson = inner.toJson := by simpa [toJson, Json.ofFields] using h
      have hinner : ∀ value ∈ inner.values, value.hasLiteral = true := hother
      rw [ih hexpr hinner hcontent]
    | _ => simp [toJson, Json.ofFields] at h
  | column name =>
    cases other with
    | column same =>
      have hname : name = same := by simpa [toJson, Json.ofFields, Json.ofText] using h
      rw [hname]
    | _ => simp [toJson, Json.ofFields, Json.ofText] at h
  | captured name value =>
    cases other with
    | captured same held =>
      obtain ⟨hname, hcontent⟩ : name = same ∧ value.toJson = held.toJson := by
        simpa [toJson, Json.ofFields, Json.ofText] using h
      rw [hname, Value.toJson_inj (hexpr value (by simp [values])) (hother held (by simp [values])) hcontent]
    | _ => simp [toJson, Json.ofFields, Json.ofText] at h
  | binary op left right hleft hright =>
    cases other with
    | binary sameOp first second =>
      obtain ⟨hop, hfirst, hsecond⟩ :
          op.key = sameOp.key ∧ left.toJson = first.toJson ∧ right.toJson = second.toJson := by
        simpa [toJson, Json.ofFields, Json.ofText] using h
      rw [values, List.forall_mem_append] at hexpr hother
      rw [Operator.key_inj hop, hleft hexpr.1 hother.1 hfirst, hright hexpr.2 hother.2 hsecond]
    | _ => simp [toJson, Json.ofFields] at h

end Expr

/-! ## Requests -/

/-- No two assignments of finite values have one document. -/
theorem Assignment.Entry.toJson_inj {entry other : Assignment.Entry}
    (hentry : ∀ value ∈ entry.value.values, value.hasLiteral = true)
    (hother : ∀ value ∈ other.value.values, value.hasLiteral = true) (h : entry.toJson = other.toJson) :
    entry = other := by
  obtain ⟨column, expr⟩ := entry
  obtain ⟨column', expr'⟩ := other
  obtain ⟨rfl, hexpr⟩ : column = column' ∧ expr.toJson = expr'.toJson := by
    simpa [toJson, Json.ofFields, Json.ofText] using h
  obtain rfl := Expr.toJson_inj hentry hother hexpr
  rfl

/-- No two parameters of finite values have one document. -/
theorem Binding.toJson_inj {binding other : Binding} (hbinding : binding.value.hasLiteral = true)
    (hother : other.value.hasLiteral = true) (h : binding.toJson = other.toJson) : binding = other := by
  obtain ⟨name, value⟩ := binding
  obtain ⟨name', value'⟩ := other
  obtain ⟨rfl, hvalue⟩ : name = name' ∧ value.toJson = value'.toJson := by
    simpa [toJson, Json.ofFields, Json.ofText] using h
  obtain rfl := Value.toJson_inj hbinding hother hvalue
  rfl

/-- No two routes have one document. -/
theorem Route.toJson_inj {route other : Route} (h : route.toJson = other.toJson) : route = other := by
  have hread := (ofJson?_toJson_iff 1 route).mpr one_ne_zero
  rw [h, (ofJson?_toJson_iff 1 other).mpr one_ne_zero] at hread
  exact (Option.some.inj hread).symm

/-- No two operations have one key. -/
theorem Operation.key_inj {operation other : Operation} (h : operation.key = other.key) :
    operation = other := by
  have hread := ofJson?_key 0 operation
  rw [h, ofJson?_key] at hread
  exact (Option.some.inj hread).symm

/-- Lists are told apart by their images if their elements are. -/
theorem eq_of_map_eq_map {α β : Type} {f : α → β} {left right : List α}
    (hinj : ∀ one ∈ left, ∀ other ∈ right, f one = f other → one = other)
    (h : left.map f = right.map f) : left = right := by
  induction left generalizing right with
  | nil => exact (List.map_eq_nil_iff.mp h.symm).symm
  | cons one rest ih =>
    cases right with
    | nil => cases h
    | cons other others =>
      obtain ⟨hhead, htail⟩ := List.cons.inj h
      rw [hinj one List.mem_cons_self other List.mem_cons_self hhead]
      rw [ih (fun first hfirst second hsecond =>
        hinj first (List.mem_cons_of_mem _ hfirst) second (List.mem_cons_of_mem _ hsecond)) htail]

/-- **No two requests of finite values have one document.** -/
theorem Request.toJson_inj {request other : Request}
    (hrequest : ∀ value ∈ request.values, value.hasLiteral = true)
    (hother : ∀ value ∈ other.values, value.hasLiteral = true) (h : request.toJson = other.toJson) :
    request = other := by
  rw [forall_mem_values] at hrequest hother
  obtain ⟨kind, operation, query, set, ⟨columns⟩, bindings, shard⟩ := request
  obtain ⟨kind', operation', query', set', ⟨columns'⟩, bindings', shard'⟩ := other
  obtain ⟨rfl, hoperation, rfl, hset, hcolumns, hbindings, hshard⟩ :
      kind = kind' ∧ operation.key = operation'.key ∧ query = query'
        ∧ set.map (·.toJson) = set'.map (·.toJson)
        ∧ columns.map Json.ofText = columns'.map Json.ofText
        ∧ bindings.map (·.toJson) = bindings'.map (·.toJson)
        ∧ shard.elim Json.null (·.toJson) = shard'.elim Json.null (·.toJson) := by
    simpa [toJson, Json.ofFields, Json.ofText] using h
  obtain rfl := Operation.key_inj hoperation
  obtain rfl : columns = columns' := by
    refine eq_of_map_eq_map ?_ hcolumns
    rintro column - same - hsame
    simpa [Json.ofText] using hsame
  obtain rfl : set = set' :=
    eq_of_map_eq_map (fun entry hentry same hsame =>
      Assignment.Entry.toJson_inj (hrequest.1 entry hentry) (hother.1 same hsame)) hset
  obtain rfl : bindings = bindings' :=
    eq_of_map_eq_map (fun binding hbinding same hsame =>
      Binding.toJson_inj (hrequest.2 binding hbinding) (hother.2 same hsame)) hbindings
  obtain rfl : shard = shard' := by
    cases shard with
    | none =>
      cases shard' with
      | none => rfl
      | some route => simp [Route.toJson, Json.ofFields] at hshard
    | some route =>
      cases shard' with
      | none => simp [Route.toJson, Json.ofFields] at hshard
      | some same => rw [Route.toJson_inj hshard]
  rfl

end BulkDml
