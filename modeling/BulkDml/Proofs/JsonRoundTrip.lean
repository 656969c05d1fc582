import BulkDml.Proofs.JsonDocument
import BulkDml.Proofs.JsonNumbers
import BulkDml.Request.Json
import Mathlib.Data.List.Nodup

/-! # Reading back values and expressions

A value is written without any tag, so that its variant has to show in what is written: integers have neither
point nor exponent and floating-point numbers always have one of them, and only bytes are an array.  An
expression is written with a tag at each of its nodes.

Strings, integers and bytes are read back as they are.  The reader of numbers rounds more than once, so
whether a finite number is read back depends on its digits; `Binary64.ReadsBack` says that it is.  Few digits
around the point are.

* `Json.depth` — how deep the arrays and objects of a document are nested;
* `Json.record?_ofFields` — a record is taken apart into the fields that it was made of;
* `Value.ofJson?_toJson_iff`, `Expr.isTakenWithin` — when a document is taken for what it was made from;
* `Value.variant_eq_of_ofJson?_toJson`, `Value.variant_eq_of_compact_toJson_eq` — what is written of a
  finite value shows its variant;
* `read?_compact_toJson` — the round trip of values and expressions through their texts.
-/

namespace BulkDml

/-! ## What is written -/

namespace Json

/-- A text is written as a whole string. -/
theorem isWritten_ofText (text : Text) : (ofText text).IsWritten := .string text

/-- An integer is written as a standard number. -/
theorem isWritten_ofInt (n : Int) : (ofInt n).IsWritten := .number (Numeral.isStandard_ofInt n)

/-- An object can be written if the values of its fields can. -/
theorem isWritten_ofFields {fields : List (String × Json)} (h : ∀ field ∈ fields, field.2.IsWritten) :
    (ofFields fields).IsWritten := by
  refine .object ?_ ?_
  · intro field hfield
    obtain ⟨named, -, rfl⟩ := List.mem_map.mp hfield
    rfl
  · intro field hfield
    obtain ⟨named, hnamed, rfl⟩ := List.mem_map.mp hfield
    exact h named hnamed

/-- What stands behind a tag can be written with the tag. -/
theorem isWritten_tagged (tag : String) {content : Json} (h : content.IsWritten) :
    (ofFields [(tag, content)]).IsWritten :=
  isWritten_ofFields (List.forall_mem_singleton.mpr h)

end Json

/-- Every value can be written. -/
theorem Value.isWritten_toJson (value : Value) : value.toJson.IsWritten := by
  cases value with
  | null => exact .null
  | bool b => exact .bool b
  | int n => exact Json.isWritten_ofInt _
  | float x =>
    rw [toJson]
    split
    · exact .number (FloatLayout.isStandard_numeral _ x)
    · exact .null
  | text t => exact Json.isWritten_ofText t
  | blob bytes =>
    refine .array ?_
    intro item hitem
    obtain ⟨byte, -, rfl⟩ := List.mem_map.mp hitem
    exact Json.isWritten_ofInt _

/-- Every expression can be written. -/
theorem Expr.isWritten_toJson (expr : Expr) : expr.toJson.IsWritten := by
  induction expr with
  | binary op left right hleft hright =>
    refine Json.isWritten_tagged "binary" (Json.isWritten_ofFields ?_)
    simp [Json.isWritten_ofText, hleft, hright]
  | column name =>
    refine Json.isWritten_tagged "member" (Json.isWritten_ofFields ?_)
    simp [Json.isWritten_ofText]
  | captured name value =>
    refine Json.isWritten_tagged "member" (Json.isWritten_ofFields ?_)
    simp [Json.isWritten_ofText, Json.isWritten_tagged _ value.isWritten_toJson]
  | constant value => exact Json.isWritten_tagged "constant" value.isWritten_toJson
  | converted operand ih => exact Json.isWritten_tagged "unary" ih

/-! ## How deep documents are nested -/

namespace Json

mutual

/-- The levels of arrays and objects in a document. -/
def depth : Json → Nat
  | array items => itemsDepth items + 1
  | object fields => fieldsDepth fields + 1
  | _ => 0

/-- The levels in the deepest of an array's items. -/
def itemsDepth : List Json → Nat
  | [] => 0
  | item :: rest => max item.depth (itemsDepth rest)

/-- The levels in the deepest of an object's fields. -/
def fieldsDepth : List (JsonString × Json) → Nat
  | [] => 0
  | (_, value) :: rest => max value.depth (fieldsDepth rest)

end

@[simp] theorem depth_ofText (text : Text) : (ofText text).depth = 0 := by simp [ofText, depth]

@[simp] theorem depth_ofInt (n : Int) : (ofInt n).depth = 0 := by simp [ofInt, depth]

@[simp] theorem depth_ofFields_nil : (ofFields []).depth = 1 := by simp [ofFields, depth, fieldsDepth]

@[simp] theorem depth_ofFields_cons (name : String) (value : Json) (fields : List (String × Json)) :
    (ofFields ((name, value) :: fields)).depth = max (value.depth + 1) (ofFields fields).depth := by
  simp [ofFields, depth, fieldsDepth, Nat.add_max_add_right]

/-- Words, numbers and strings have no level. -/
theorem itemsDepth_eq_zero {items : List Json} (h : ∀ item ∈ items, item.depth = 0) :
    itemsDepth items = 0 := by
  induction items with
  | nil => simp [itemsDepth]
  | cons item rest ih =>
    rw [List.forall_mem_cons] at h
    rw [itemsDepth, h.1, ih h.2, Nat.max_self]

end Json

/-- The levels of a value's document: bytes are an array of numbers, and all else has none. -/
theorem Value.depth_toJson (value : Value) :
    value.toJson.depth = match value with | blob _ => 1 | _ => 0 := by
  cases value with
  | blob bytes =>
    have hitems : Json.itemsDepth (bytes.map fun byte => Json.ofInt byte.toNat) = 0 := by
      refine Json.itemsDepth_eq_zero ?_
      intro item hitem
      obtain ⟨byte, -, rfl⟩ := List.mem_map.mp hitem
      exact Json.depth_ofInt _
    simp [toJson, Json.depth, hitems]
  | float x =>
    rw [toJson]
    split <;> simp [Json.depth]
  | int n => exact Json.depth_ofInt _
  | text t => exact Json.depth_ofText t
  | _ => simp [toJson, Json.depth]

/-! ## Records and variants -/

namespace Json

/-- An object with one field is taken for a variant where there is a level for it. -/
theorem variant?_ofFields (levels : Nat) (name : String) (value : Json) :
    (ofFields [(name, value)]).variant? (levels + 1) = some (name.toList, some value) := rfl

/-- A list all of whose elements are mapped to something is mapped as a whole. -/
theorem mapM_eq_some_map {α β : Type} {f : α → Option β} {g : α → β} {items : List α}
    (h : ∀ item ∈ items, f item = some (g item)) : items.mapM f = some (items.map g) := by
  induction items with
  | nil => rfl
  | cons item rest ih =>
    rw [List.forall_mem_cons] at h
    rw [List.mapM_cons, h.1, ih h.2]
    rfl

/-- Among fields of different names each is found under its own. -/
theorem fieldOf?_of_mem {fields : List (Text × Json)} (hnames : (fields.map Prod.fst).Nodup)
    {field : Text × Json} (h : field ∈ fields) : fieldOf? fields field.1 = some (some field.2) := by
  have hfilter : fields.filter (fun other => other.1 == field.1) = [field] := by
    induction fields with
    | nil => cases h
    | cons head rest ih =>
      rw [List.map_cons, List.nodup_cons] at hnames
      rcases List.mem_cons.mp h with rfl | hrest
      · -- no other field has this name
        have hnone : rest.filter (·.1 == field.1) = [] := by
          rw [List.filter_eq_nil_iff]
          intro other hother hsame
          rw [← beq_iff_eq.mp hsame] at hnames
          exact hnames.1 (List.mem_map_of_mem hother)
        rw [List.filter_cons, if_pos (beq_self_eq_true _), hnone]
      · have hne : ¬((head.1 == field.1) = true) := by
          intro hsame
          rw [beq_iff_eq.mp hsame] at hnames
          exact hnames.1 (List.mem_map_of_mem hrest)
        rw [List.filter_cons, if_neg hne, ih hnames.2 hrest]
  rw [fieldOf?, hfilter]

/-- A record of fields of different names is taken apart under these names. -/
theorem record?_ofFields {levels : Nat} (hlevels : levels ≠ 0) {fields : List (String × Json)}
    (hnames : (fields.map Prod.fst).Nodup) :
    (ofFields fields).record? levels (fields.map fun field => field.1.toList)
      = some (fields.map fun field => some field.2) := by
  let named : List (Text × Json) := fields.map fun field => (field.1.toList, field.2)
  have hkeys : (fields.map fun field => ((some field.1.toList, field.2) : JsonString × Json)).mapM
      (fun field => field.1.map (·, field.2)) = some named := by
    rw [List.mapM_map]
    exact mapM_eq_some_map fun _ _ => rfl
  have hnodup : (named.map Prod.fst).Nodup := by
    have htexts : named.map Prod.fst = (fields.map Prod.fst).map String.toList := by simp [named]
    rw [htexts]
    exact List.Nodup.map (fun _ _ => String.toList_inj.mp) hnames
  have hvalues : (fields.map fun field => field.1.toList).mapM (fieldOf? named)
      = some (fields.map fun field => some field.2) := by
    rw [List.mapM_map]
    exact mapM_eq_some_map fun field hfield => fieldOf?_of_mem hnodup (List.mem_map_of_mem hfield)
  have hdocument : ofFields fields = object (fields.map fun field => (some field.1.toList, field.2)) := rfl
  rw [hdocument, record?, if_neg hlevels, Option.bind_eq_bind, hkeys, Option.bind_some, hvalues]

end Json

/-! ## Values -/

namespace Value

/-- Whether a value is read back: one that is a floating-point number has to be finite and to have digits
that are read back. -/
structure ReadsBack (value : Value) : Prop where
  /-- The value is no number that is not finite. -/
  finite : value.hasLiteral = true
  /-- The digits of a floating-point number are read as this number. -/
  digits : ∀ x, value = float x → x.ReadsBack

/-- All values but floating-point numbers are read back. -/
theorem readsBack_iff (value : Value) :
    value.ReadsBack ↔ match value with | float x => x.isFinite = true ∧ x.ReadsBack | _ => True := by
  cases value with
  | float x =>
    constructor
    · intro h
      exact ⟨h.finite, h.digits x rfl⟩
    · rintro ⟨hfinite, hdigits⟩
      refine ⟨hfinite, ?_⟩
      rintro y hy
      cases hy
      exact hdigits
  | _ =>
    refine ⟨fun _ => trivial, fun _ => ⟨rfl, ?_⟩⟩
    rintro x hx
    cases hx

/-- Bytes are read back one by one. -/
theorem mapM_byteOfJson? (bytes : List UInt8) :
    (bytes.map fun byte => Json.ofInt byte.toNat).mapM byteOfJson? = some bytes := by
  have hbytes : bytes.mapM (fun byte => byteOfJson? (.ofInt byte.toNat)) = some (bytes.map id) :=
    Json.mapM_eq_some_map fun byte _ => Numeral.toByte?_ofInt byte
  rw [List.mapM_map]
  exact hbytes.trans (congrArg some (List.map_id bytes))

/-- A value is taken for itself where there is a level for bytes and its number is read back. -/
theorem ofJson?_toJson_iff (levels : Nat) (value : Value) :
    ofJson? levels value.toJson = some value ↔ value.toJson.depth ≤ levels ∧ value.ReadsBack := by
  rw [depth_toJson, readsBack_iff]
  cases value with
  | null => simp [toJson, ofJson?]
  | bool b => simp [toJson, ofJson?]
  | int n => simp [toJson, Json.ofInt, ofJson?, Numeral.toInt64?_ofInt]
  | float x =>
    by_cases hfinite : x.isFinite = true
    · simp [toJson, hfinite, ofJson?, FloatLayout.toInt64?_numeral, Binary64.ReadsBack]
    · -- what is not finite is written as the absent value
      simp [toJson, hfinite, ofJson?]
  | text t => simp [toJson, Json.ofText, ofJson?]
  | blob bytes =>
    rw [toJson, ofJson?, mapM_byteOfJson?]
    by_cases hlevels : levels = 0
    · simp [hlevels]
    · simp [hlevels, Nat.one_le_iff_ne_zero]

/-- The variants of values. -/
inductive Variant where
  /-- The absent value. -/
  | null
  /-- Booleans. -/
  | bool
  /-- Integers. -/
  | int
  /-- Floating-point numbers. -/
  | float
  /-- Texts. -/
  | text
  /-- Sequences of bytes. -/
  | blob
deriving DecidableEq

/-- The variant of a value. -/
def variant : Value → Variant
  | null => .null
  | bool _ => .bool
  | int _ => .int
  | float _ => .float
  | text _ => .text
  | blob _ => .blob

/-- Whatever the document of a finite value is taken for has the variant of this value. -/
theorem variant_eq_of_ofJson?_toJson {levels : Nat} {value other : Value}
    (hfinite : value.hasLiteral = true) (h : ofJson? levels value.toJson = some other) :
    other.variant = value.variant := by
  cases value with
  | null =>
    cases h
    rfl
  | bool b =>
    cases h
    rfl
  | int n =>
    rw [toJson, Json.ofInt, ofJson?, Numeral.toInt64?_ofInt] at h
    cases h
    rfl
  | float x =>
    have hx : x.isFinite = true := hfinite
    rw [toJson, if_pos hx, ofJson?, FloatLayout.toInt64?_numeral] at h
    obtain ⟨y, -, rfl⟩ := Option.map_eq_some_iff.mp h
    rfl
  | text t =>
    cases h
    rfl
  | blob bytes =>
    rw [toJson, ofJson?, mapM_byteOfJson?] at h
    split at h
    · cases h
    · cases h
      rfl

/-- The variant that shows in a document: integers are the numbers with neither point nor exponent. -/
def variantShown : Json → Variant
  | .null => .null
  | .bool _ => .bool
  | .number numeral => if numeral.isWhole then .int else .float
  | .string _ => .text
  | .array _ | .object _ => .blob

/-- The variant of a finite value shows in its document. -/
theorem variantShown_toJson {value : Value} (h : value.hasLiteral = true) :
    variantShown value.toJson = value.variant := by
  cases value with
  | int n =>
    have hwhole : (Numeral.ofInt n.toInt).isWhole = true := by cases n.toInt <;> rfl
    rw [toJson, Json.ofInt, variantShown, if_pos hwhole, variant]
  | float x =>
    have hx : x.isFinite = true := h
    rw [toJson, if_pos hx, variantShown, FloatLayout.isWhole_numeral, if_neg (by simp), variant]
  | _ => rfl

/-- No two variants of finite values share a text. -/
theorem variant_eq_of_compact_toJson_eq {value other : Value} (hvalue : value.hasLiteral = true)
    (hother : other.hasLiteral = true) (h : value.toJson.compact = other.toJson.compact) :
    value.variant = other.variant := by
  have hdocument := Json.compact_injective value.isWritten_toJson other.isWritten_toJson h
  rw [← variantShown_toJson hvalue, hdocument, variantShown_toJson hother]

/-- A value is read back from its text if its number is. -/
theorem read?_compact_toJson_iff (value : Value) :
    read? value.toJson.compact = some value ↔ value.ReadsBack := by
  have hdepth : value.toJson.depth ≤ Json.depthLimit := by
    rw [depth_toJson]
    split
    · decide
    · exact Nat.zero_le _
  rw [read?, Json.read?_compact value.isWritten_toJson, Option.bind_some, ofJson?_toJson_iff]
  exact and_iff_right hdepth

end Value

/-! ## Expressions -/

namespace Expr

/-- A constant is taken for its value. -/
theorem ofJson?_constant (levels : Nat) (value : Value) :
    ofJson? (levels + 1) (constant value).toJson
      = (Value.ofJson? levels value.toJson).map constant := by
  rw [toJson, ofJson?, Json.variant?_ofFields]
  rw [Option.bind_eq_bind, Option.bind_some]
  dsimp only
  rw [Option.bind_eq_bind, Option.bind_some, if_pos rfl]
  cases Value.ofJson? levels value.toJson <;> rfl

/-- A conversion is taken for its operand. -/
theorem ofJson?_converted (levels : Nat) (operand : Expr) :
    ofJson? (levels + 1) (converted operand).toJson
      = (ofJson? levels operand.toJson).map converted := by
  rw [toJson, ofJson?, Json.variant?_ofFields]
  rw [Option.bind_eq_bind, Option.bind_some]
  dsimp only
  rw [Option.bind_eq_bind, Option.bind_some, if_neg (by decide), if_pos rfl]
  cases ofJson? levels operand.toJson <;> rfl

/-- A binary expression is taken for its operator and its operands. -/
theorem ofJson?_binary (levels : Nat) (op : Operator) (left right : Expr) :
    ofJson? (levels + 2) (binary op left right).toJson
      = (ofJson? levels left.toJson).bind fun first =>
        (ofJson? levels right.toJson).map (binary op first) := by
  have hrecord : (Json.ofFields
      [("op", .ofText op.key), ("left", left.toJson), ("right", right.toJson)]).record?
      (levels + 1) ["op".toList, "left".toList, "right".toList]
      = some [some (.ofText op.key), some left.toJson, some right.toJson] :=
    Json.record?_ofFields (Nat.succ_ne_zero levels) (show ["op", "left", "right"].Nodup by decide)
  have hop : (Json.ofText op.key).unitVariant? levels = some op.key := rfl
  rw [toJson, ofJson?, Json.variant?_ofFields, Option.bind_eq_bind, Option.bind_some]
  dsimp only
  rw [Option.bind_eq_bind, Option.bind_some, if_neg (by decide), if_neg (by decide), if_neg (by decide),
    if_pos rfl, hrecord, Option.bind_eq_bind, Option.bind_some]
  dsimp only
  rw [hop, Option.bind_eq_bind, Option.bind_some, Operator.ofKey?_key, Option.bind_eq_bind, Option.bind_some]
  cases ofJson? levels left.toJson with
  | none => rfl
  | some first => cases ofJson? levels right.toJson <;> rfl

/-- A member is taken for its name and its binding. -/
theorem ofJson?_member (levels : Nat) (name : Text) (binding : Json) :
    ofJson? (levels + 2) (.ofFields [("member", .ofFields [("name", .ofText name), ("binding", binding)])])
      = memberOfJson? levels name binding := by
  have hrecord : (Json.ofFields [("name", .ofText name), ("binding", binding)]).record?
      (levels + 1) ["name".toList, "binding".toList] = some [some (.ofText name), some binding] :=
    Json.record?_ofFields (Nat.succ_ne_zero levels) (show ["name", "binding"].Nodup by decide)
  have hname : (Json.ofText name).text? = some name := rfl
  rw [ofJson?, Json.variant?_ofFields, Option.bind_eq_bind, Option.bind_some]
  dsimp only
  rw [Option.bind_eq_bind, Option.bind_some, if_neg (by decide), if_neg (by decide), if_pos rfl, hrecord,
    Option.bind_eq_bind, Option.bind_some]
  dsimp only
  rw [hname, Option.bind_eq_bind, Option.bind_some, Nat.add_sub_cancel]

/-- A captured value is taken for its name and its value. -/
theorem ofJson?_captured (levels : Nat) (name : Text) (value : Value) :
    ofJson? (levels + 3) (captured name value).toJson
      = (Value.ofJson? levels value.toJson).map (captured name) := by
  rw [toJson, ofJson?_member, memberOfJson?, Json.variant?_ofFields, Option.bind_eq_bind, Option.bind_some]
  dsimp only
  rw [if_neg (by decide), if_pos rfl, Option.bind_eq_bind, Option.bind_some, Nat.add_sub_cancel]
  cases Value.ofJson? levels value.toJson <;> rfl

/-- The levels that an expression's own node takes, above those of its parts. -/
def nodeDepth : Expr → Nat
  | binary .. | column _ => 2
  | captured .. => 3
  | constant _ | converted _ => 1

/-- Without the levels for its own node no expression is read. -/
theorem ofJson?_toJson_of_lt {levels : Nat} {expr : Expr} (h : levels < expr.nodeDepth) :
    ofJson? levels expr.toJson = none := by
  cases expr with
  | binary op left right =>
    match levels, h with
    | 0, _ => rfl
    | 1, _ => rfl
  | column name =>
    match levels, h with
    | 0, _ => rfl
    | 1, _ => rfl
  | captured name value =>
    match levels, h with
    | 0, _ => rfl
    | 1, _ => rfl
    | 2, _ => rfl
  | constant value =>
    match levels, h with
    | 0, _ => rfl
  | converted operand =>
    match levels, h with
    | 0, _ => rfl

/-- The levels of an expression's document are those of its own node and of its deepest part. -/
theorem depth_toJson (expr : Expr) :
    expr.toJson.depth = expr.nodeDepth + match expr with
      | binary _ left right => max left.toJson.depth right.toJson.depth
      | column _ => 0
      | captured _ value => value.toJson.depth
      | constant value => value.toJson.depth
      | converted operand => operand.toJson.depth := by
  cases expr <;> simp [toJson, nodeDepth] <;> omega

/-- The values in an expression, from left to right. -/
def values : Expr → List Value
  | binary _ left right => left.values ++ right.values
  | column _ => []
  | captured _ value => [value]
  | constant value => [value]
  | converted operand => operand.values

/-- Whether an expression is taken for itself exactly where there are levels for it and its numbers are read
back. -/
def IsTakenWithin (expr : Expr) (levels : Nat) : Prop :=
  ofJson? levels expr.toJson = some expr
    ↔ expr.toJson.depth ≤ levels ∧ ∀ value ∈ expr.values, value.ReadsBack

/-- Only levels that are enough for the node itself need a look. -/
theorem isTakenWithin_of_enough {expr : Expr} (h : ∀ rest, expr.IsTakenWithin (rest + expr.nodeDepth))
    (levels : Nat) : expr.IsTakenWithin levels := by
  rcases Nat.lt_or_ge levels expr.nodeDepth with hfew | henough
  · have hdepth : ¬expr.toJson.depth ≤ levels := by
      have := depth_toJson expr
      omega
    rw [IsTakenWithin, ofJson?_toJson_of_lt hfew]
    exact iff_of_false (by simp) fun hboth => hdepth hboth.1
  · obtain ⟨rest, rfl⟩ := Nat.exists_eq_add_of_le' henough
    exact h rest

/-- **An expression is taken for itself** where there are levels for it and its numbers are read back. -/
theorem isTakenWithin (expr : Expr) (levels : Nat) : expr.IsTakenWithin levels := by
  induction expr generalizing levels with
  | binary op left right hleft hright =>
    refine isTakenWithin_of_enough (fun rest => ?_) levels
    have hboth : ofJson? (rest + 2) (binary op left right).toJson = some (binary op left right)
        ↔ ofJson? rest left.toJson = some left ∧ ofJson? rest right.toJson = some right := by
      simp [ofJson?_binary, Option.bind_eq_some_iff]
    have hdepth : (binary op left right).toJson.depth ≤ rest + 2
        ↔ left.toJson.depth ≤ rest ∧ right.toJson.depth ≤ rest := by
      rw [depth_toJson, nodeDepth]
      dsimp only
      omega
    simp only [IsTakenWithin] at hleft hright ⊢
    rw [nodeDepth, hboth, hleft, hright, hdepth, values, List.forall_mem_append]
    exact and_and_and_comm
  | column name =>
    refine isTakenWithin_of_enough (fun rest => ?_) levels
    have hcolumn : ofJson? (rest + 2) (column name).toJson = some (column name) := by
      rw [toJson, ofJson?_member]
      rfl
    rw [IsTakenWithin, nodeDepth, hcolumn, depth_toJson, nodeDepth]
    simp [values]
  | captured name value =>
    refine isTakenWithin_of_enough (fun rest => ?_) levels
    rw [IsTakenWithin, nodeDepth, ofJson?_captured, depth_toJson, nodeDepth, Nat.add_comm rest]
    simp [values, Value.ofJson?_toJson_iff]
  | constant value =>
    refine isTakenWithin_of_enough (fun rest => ?_) levels
    rw [IsTakenWithin, nodeDepth, ofJson?_constant, depth_toJson, nodeDepth, Nat.add_comm rest]
    simp [values, Value.ofJson?_toJson_iff]
  | converted operand ih =>
    refine isTakenWithin_of_enough (fun rest => ?_) levels
    simp only [IsTakenWithin] at ih ⊢
    rw [nodeDepth, ofJson?_converted, depth_toJson, nodeDepth, Nat.add_comm rest]
    simp [values, ih]

/-- An expression is read back from its text if it is nested no deeper than is read and its numbers are read
back. -/
theorem read?_compact_toJson_iff (expr : Expr) :
    read? expr.toJson.compact = some expr
      ↔ expr.toJson.depth ≤ Json.depthLimit ∧ ∀ value ∈ expr.values, value.ReadsBack := by
  rw [read?, Json.read?_compact expr.isWritten_toJson, Option.bind_some]
  exact expr.isTakenWithin Json.depthLimit

end Expr

/-! ## Round trips -/

/-- **Values and expressions are read back from their texts**: a value if it is finite and the digits of its
number are read back, whatever it holds otherwise, and an expression if that is so for all its values and it
is nested no deeper than is read.  Digits are read back if they make up a number of 53 bits and the point is
near.  Even where a finite number is read as another one, the variant stays, and no two variants share a
text. -/
theorem read?_compact_toJson :
    (∀ value : Value, Value.read? value.toJson.compact = some value ↔ value.ReadsBack)
    ∧ (∀ expr : Expr, Expr.read? expr.toJson.compact = some expr
      ↔ expr.toJson.depth ≤ Json.depthLimit ∧ ∀ value ∈ expr.values, value.ReadsBack)
    ∧ (∀ x : Binary64, x.isFinite = true → (FloatLayout.json.numeral x).digits < 2 ^ 53 →
      (FloatLayout.json.numeral x).scale.natAbs ≤ 22 → (Value.float x).ReadsBack)
    ∧ (∀ value other : Value, value.hasLiteral = true → Value.read? value.toJson.compact = some other →
      other.variant = value.variant)
    ∧ (∀ value other : Value, value.hasLiteral = true → other.hasLiteral = true →
      value.toJson.compact = other.toJson.compact → value.variant = other.variant) := by
  refine ⟨Value.read?_compact_toJson_iff, Expr.read?_compact_toJson_iff, ?_, ?_, ?_⟩
  · intro x hfinite hdigits hscale
    exact (Value.readsBack_iff _).mpr ⟨hfinite, Binary64.readsBack_of_short hfinite hdigits hscale⟩
  · intro value other hfinite hread
    rw [Value.read?, Json.read?_compact value.isWritten_toJson, Option.bind_some] at hread
    exact Value.variant_eq_of_ofJson?_toJson hfinite hread
  · intro value other hvalue hother hcompact
    exact Value.variant_eq_of_compact_toJson_eq hvalue hother hcompact

/-- A conversion of a negative zero, a column with quotes and a line break in its name, and no bytes. -/
def zeroOffset : Expr :=
  .binary .notEq
    (.binary .sub (.converted (.captured "Übertrag".toList (.float (.ofCode true 0))))
      (.column "\"a\"\n".toList))
    (.constant (.blob []))

/-- This expression is read back, the integer two and the number two have texts of their own, and a whole
number that is read as its neighbour stays a floating-point number. -/
theorem read?_compact_toJson_zeroOffset :
    let large : Value := .float (.ofDecimal false 9007199254740991 0)
    let neighbour : Value := .float (.ofDecimal false 9007199254740990 0)
    Expr.read? zeroOffset.toJson.compact = some zeroOffset
      ∧ (Value.int 2).toJson.compact ≠ (Value.float (.ofDecimal false 2 0)).toJson.compact
      ∧ Value.read? large.toJson.compact = some neighbour ∧ neighbour.variant = large.variant := by
  intro large neighbour
  obtain ⟨-, hexpr, hshort, hstays, hapart⟩ := read?_compact_toJson
  refine ⟨(hexpr zeroOffset).mpr ⟨by decide, ?_⟩, ?_, ?_⟩
  · intro value hvalue
    simp only [zeroOffset, Expr.values, List.append_nil, List.cons_append, List.nil_append, List.mem_cons,
      List.not_mem_nil, or_false] at hvalue
    rcases hvalue with rfl | rfl
    · exact hshort _ (by decide) (by decide) (by decide)
    · exact (Value.readsBack_iff _).mpr trivial
  · intro hsame
    have hvariant := hapart _ _ rfl (by decide +kernel) hsame
    exact absurd hvariant (by decide)
  · have hread : Value.read? large.toJson.compact = some neighbour := by
      rw [Value.read?, Json.read?_compact large.isWritten_toJson]
      decide +kernel
    exact ⟨hread, hstays large neighbour (by decide +kernel) hread⟩

end BulkDml
