import BulkDml.Proofs.JsonRoundTrip

/-! # Reading back requests

A request is written as a record of all its fields, down to those that have a default.  Its document is taken
for the request where there are levels for it and the numbers in it are read back, wherever in the request
they stand.

* `Request.values` — the values in a request;
* `Request.isWritten_toJson`, `Request.depth_toJson_le_iff` — what is written of a request;
* `Request.ofJson?_toJson_iff` — when a document is taken for the request that it was made from;
* `Request.read?_compact_iff` — the round trip of a request through its text.
-/

namespace BulkDml

/-! ## Records and lists -/

namespace Json

/-- A record of two fields is taken apart under their names. -/
theorem record?_pair (levels : Nat) {name other : String} (hne : name ≠ other) (value content : Json) :
    (ofFields [(name, value), (other, content)]).record? (levels + 1) [name.toList, other.toList]
      = some [some value, some content] := by
  have hnames : ([(name, value), (other, content)].map Prod.fst).Nodup := by simpa using hne
  exact record?_ofFields (Nat.succ_ne_zero levels) hnames

/-- An array can be written exactly if its items can. -/
theorem isWritten_array_iff {items : List Json} :
    (array items).IsWritten ↔ ∀ item ∈ items, item.IsWritten := by
  refine ⟨fun h => ?_, .array⟩
  cases h with
  | array hitems => exact hitems

/-- An object can be written exactly if the values of its fields can. -/
theorem isWritten_ofFields_iff {fields : List (String × Json)} :
    (ofFields fields).IsWritten ↔ ∀ field ∈ fields, field.2.IsWritten := by
  refine ⟨fun h field hfield => ?_, isWritten_ofFields⟩
  cases h with
  | object hkeys hvalues => exact hvalues _ (List.mem_map_of_mem hfield)

@[simp] theorem text?_ofText (text : Text) : (ofText text).text? = some text := rfl

/-- Without a level nothing is taken for a record. -/
theorem record?_zero (names : List Text) (document : Json) : document.record? 0 names = none := rfl

/-- The items of an array are as deep as the deepest of them. -/
theorem itemsDepth_le_iff {items : List Json} {levels : Nat} :
    itemsDepth items ≤ levels ↔ ∀ item ∈ items, item.depth ≤ levels := by
  induction items with
  | nil => simp [itemsDepth]
  | cons item rest ih => rw [itemsDepth, max_le_iff, ih, List.forall_mem_cons]

/-- The items of an array take a level more than the deepest of them. -/
theorem depth_array_le_iff (items : List Json) (levels : Nat) :
    (array items).depth ≤ levels ↔ levels ≠ 0 ∧ ∀ item ∈ items, item.depth ≤ levels - 1 := by
  rw [depth, ← itemsDepth_le_iff]
  omega

end Json

/-- A list is mapped back to itself if each of its elements is. -/
theorem mapM_map_eq_some_iff {α β : Type} {back : β → Option α} {there : α → β} {items : List α} :
    (items.map there).mapM back = some items ↔ ∀ item ∈ items, back (there item) = some item := by
  induction items with
  | nil => simp
  | cons item rest ih =>
    rw [List.map_cons, List.mapM_cons, List.forall_mem_cons, ← ih]
    cases back (there item) <;> cases (rest.map there).mapM back <;> simp

/-- A list is read back if there is a level for its array and each of its elements is. -/
theorem listOfJson?_array_iff {α : Type} {item? : Json → Option α} {toJson : α → Json} (levels : Nat)
    (items : List α) :
    listOfJson? item? levels (some (.array (items.map toJson))) = some items
      ↔ levels ≠ 0 ∧ ∀ item ∈ items, item? (toJson item) = some item := by
  rw [listOfJson?, Json.items?]
  split
  · next hzero => simp [hzero]
  · next hlevels =>
    rw [← mapM_map_eq_some_iff]
    exact (and_iff_right hlevels).symm

/-! ## Entries, parameters and routes -/

/-- An assignment is taken for itself where there are levels for it and its numbers are read back. -/
theorem Assignment.Entry.ofJson?_toJson_iff (levels : Nat) (entry : Assignment.Entry) :
    ofJson? levels entry.toJson = some entry
      ↔ entry.toJson.depth ≤ levels ∧ ∀ value ∈ entry.value.values, value.ReadsBack := by
  have hdepth : entry.toJson.depth = entry.value.toJson.depth + 1 := by simp [toJson]
  rw [hdepth]
  cases levels with
  | zero => simp [ofJson?, Json.record?_zero]
  | succ levels =>
    have hvalue := entry.value.isTakenWithin levels
    rw [Expr.IsTakenWithin] at hvalue
    rw [Nat.add_le_add_iff_right, ← hvalue, toJson, ofJson?, Json.record?_pair levels (by decide)]
    obtain ⟨column, value⟩ := entry
    cases hread : Expr.ofJson? levels value.toJson <;> simp [hread]

/-- A parameter is taken for itself where there are levels for it and its number is read back. -/
theorem Binding.ofJson?_toJson_iff (levels : Nat) (binding : Binding) :
    ofJson? levels binding.toJson = some binding
      ↔ binding.toJson.depth ≤ levels ∧ binding.value.ReadsBack := by
  have hdepth : binding.toJson.depth = binding.value.toJson.depth + 1 := by simp [toJson]
  rw [hdepth]
  cases levels with
  | zero => simp [ofJson?, Json.record?_zero]
  | succ levels =>
    rw [Nat.add_le_add_iff_right, ← Value.ofJson?_toJson_iff, toJson, ofJson?,
      Json.record?_pair levels (by decide)]
    obtain ⟨name, value⟩ := binding
    cases hread : Value.ofJson? levels value.toJson <;> simp [hread]

/-- A route is taken for itself where there is a level for it. -/
theorem Route.ofJson?_toJson_iff (levels : Nat) (route : Route) :
    ofJson? levels route.toJson = some route ↔ levels ≠ 0 := by
  cases levels with
  | zero => simp [ofJson?, Json.record?_zero]
  | succ levels =>
    rw [toJson, ofJson?, Json.record?_pair levels (by decide)]
    simp

/-- An operation is taken for itself. -/
theorem Operation.ofJson?_key (levels : Nat) (operation : Operation) :
    ofJson? levels (.ofText operation.key) = some operation := by
  cases operation <;> rfl

/-! ## Requests -/

namespace Request

/-- The values in a request: those in its assignments, and those of its parameters. -/
def values (request : Request) : List Value :=
  request.set.flatMap (·.value.values) ++ request.bindings.map (·.value)

/-- Something is said of all values of a request if it is said of those of each assignment and each
parameter. -/
theorem forall_mem_values {request : Request} {p : Value → Prop} :
    (∀ value ∈ request.values, p value)
      ↔ (∀ entry ∈ request.set, ∀ value ∈ entry.value.values, p value)
        ∧ ∀ binding ∈ request.bindings, p binding.value := by
  simp only [values, List.forall_mem_append, List.forall_mem_map, List.mem_flatMap, forall_exists_index,
    and_imp]
  refine and_congr_left' ⟨fun h entry hentry value => h value entry hentry,
    fun h value entry hentry => h entry hentry value⟩

/-- Every request can be written. -/
theorem isWritten_toJson (request : Request) : request.toJson.IsWritten := by
  have hshard : (request.shard.elim Json.null (·.toJson)).IsWritten := by
    cases request.shard with
    | none => exact .null
    | some route =>
      simp [Route.toJson, Json.isWritten_ofFields_iff, Json.isWritten_ofText]
  simp [toJson, Assignment.Entry.toJson, Binding.toJson, Json.isWritten_ofFields_iff,
    Json.isWritten_array_iff, Json.isWritten_ofText, Expr.isWritten_toJson, Value.isWritten_toJson, hshard]

/-- How deep the document of a request is nested: a level for the request, a level for each of its lists, and
below these the levels of the assignments and parameters. -/
theorem depth_toJson_le_iff (request : Request) (levels : Nat) :
    request.toJson.depth ≤ levels
      ↔ 2 ≤ levels ∧ (∀ entry ∈ request.set, entry.toJson.depth ≤ levels - 2)
        ∧ ∀ binding ∈ request.bindings, binding.toJson.depth ≤ levels - 2 := by
  have hshard : (request.shard.elim Json.null (·.toJson)).depth ≤ 1 := by
    cases request.shard with
    | none => simp [Json.depth]
    | some route => simp [Route.toJson]
  have hignored : (Json.array (request.ignored.columns.map .ofText)).depth = 1 := by
    rw [Json.depth,
      Json.itemsDepth_eq_zero (List.forall_mem_map.mpr fun column _ => Json.depth_ofText column)]
  have hset := Json.depth_array_le_iff (request.set.map (·.toJson)) (levels - 1)
  have hbindings := Json.depth_array_le_iff (request.bindings.map (·.toJson)) (levels - 1)
  rw [List.forall_mem_map, Nat.sub_sub] at hset hbindings
  simp only [toJson, Json.depth_ofFields_cons, Json.depth_ofText, Json.depth_ofFields_nil, hignored]
  constructor
  · intro h
    refine ⟨by omega, (hset.mp (by omega)).2, (hbindings.mp (by omega)).2⟩
  · rintro ⟨hlevels, hentries, hvalues⟩
    have := hset.mpr ⟨by omega, hentries⟩
    have := hbindings.mpr ⟨by omega, hvalues⟩
    omega

/-- The names of the fields are those under which they are written. -/
theorem record?_toJson (request : Request) (levels : Nat) :
    request.toJson.record? (levels + 1) fieldNames
      = some [some (.ofText request.kind), some (.ofText request.operation.key),
        some (.ofText request.query), some (.array (request.set.map (·.toJson))),
        some (.array (request.ignored.columns.map .ofText)),
        some (.array (request.bindings.map (·.toJson))), some (request.shard.elim .null (·.toJson))] :=
  Json.record?_ofFields (Nat.succ_ne_zero levels)
    (show ["kind", "operation", "query", "set", "ignore", "bindings", "shard"].Nodup by decide)

/-- The route of a request is read back where there is a level for it. -/
theorem shardOfJson?_toJson {levels : Nat} (hlevels : levels ≠ 0) (shard : Option Route) :
    shardOfJson? levels (some (shard.elim .null (·.toJson))) = some shard := by
  cases shard with
  | none => rfl
  | some route =>
    have hroute : Route.ofJson? levels route.toJson = some route :=
      (Route.ofJson?_toJson_iff levels route).mpr hlevels
    exact congrArg (Option.map some) hroute

/-- **A request is taken for itself** where there are levels for it and its numbers are read back. -/
theorem ofJson?_toJson_iff (levels : Nat) (request : Request) :
    ofJson? levels request.toJson = some request
      ↔ request.toJson.depth ≤ levels ∧ ∀ value ∈ request.values, value.ReadsBack := by
  rw [depth_toJson_le_iff, forall_mem_values]
  match levels with
  | 0 => simp [ofJson?, Json.record?]
  | 1 =>
    -- there is no level for the lists
    rw [ofJson?, record?_toJson]
    simp [listOfJson?, Json.items?]
  | inner + 2 =>
    have hignored : listOfJson? Json.text? (inner + 1) (some (.array (request.ignored.columns.map .ofText)))
        = some request.ignored.columns :=
      (listOfJson?_array_iff _ _).mpr ⟨Nat.succ_ne_zero inner, fun _ _ => rfl⟩
    have hlists : ofJson? (inner + 2) request.toJson = some request
        ↔ listOfJson? (Assignment.Entry.ofJson? inner) (inner + 1)
            (some (.array (request.set.map (·.toJson)))) = some request.set
          ∧ listOfJson? (Binding.ofJson? inner) (inner + 1)
            (some (.array (request.bindings.map (·.toJson)))) = some request.bindings := by
      rw [ofJson?, record?_toJson]
      obtain ⟨kind, operation, query, set, ⟨columns⟩, bindings, shard⟩ := request
      simp [operationOfJson?, Operation.ofJson?_key, hignored, shardOfJson?_toJson, Option.bind_eq_some_iff]
    rw [hlists, listOfJson?_array_iff, listOfJson?_array_iff]
    simp only [Assignment.Entry.ofJson?_toJson_iff, Binding.ofJson?_toJson_iff, forall_and]
    constructor
    · rintro ⟨⟨-, hset, hassigned⟩, -, hbindings, hbound⟩
      exact ⟨⟨by omega, hset, hbindings⟩, hassigned, hbound⟩
    · rintro ⟨⟨-, hset, hbindings⟩, hassigned, hbound⟩
      exact ⟨⟨Nat.succ_ne_zero inner, hset, hassigned⟩, Nat.succ_ne_zero inner, hbindings, hbound⟩

/-- **A request is read back from its text** if it is nested no deeper than is read and its numbers are read
back. -/
theorem read?_compact_iff (request : Request) :
    read? request.toJson.compact = some request
      ↔ request.toJson.depth ≤ Json.depthLimit ∧ ∀ value ∈ request.values, value.ReadsBack := by
  rw [read?, Json.read?_compact request.isWritten_toJson, Option.bind_some]
  exact request.ofJson?_toJson_iff Json.depthLimit

end Request

end BulkDml
