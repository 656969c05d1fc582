import BulkDml.Expr.Json
import BulkDml.Request

/-! # Requests as JSON

A request is a record of seven fields, of which only the kind and the query are required: what is missing
is an update, without assignments, ignored columns, values or a route.  `Request.read?` reads a request
from a text, and `Request.toJson` writes all seven fields.
-/

namespace BulkDml

/-- The name of an operation. -/
def Operation.key : Operation → Text
  | update => "update".toList
  | delete => "delete".toList

/-- The operation that a document writes. -/
def Operation.ofJson? (levels : Nat) (document : Json) : Option Operation := do
  let name ← document.unitVariant? levels
  [update, delete].find? (·.key == name)

/-- The document of a route. -/
def Route.toJson (route : Route) : Json :=
  .ofFields [("from", .ofText route.logical), ("to", .ofText route.physical)]

/-- The route that a document writes. -/
def Route.ofJson? (levels : Nat) (document : Json) : Option Route := do
  match ← document.record? levels ["from".toList, "to".toList] with
  | [some logical, some physical] => return ⟨← logical.text?, ← physical.text?⟩
  | _ => none

/-- The document of an assignment. -/
def Assignment.Entry.toJson (entry : Assignment.Entry) : Json :=
  .ofFields [("column", .ofText entry.column), ("value", entry.value.toJson)]

/-- The assignment that a document writes. -/
def Assignment.Entry.ofJson? (levels : Nat) (document : Json) : Option Assignment.Entry := do
  match ← document.record? levels ["column".toList, "value".toList] with
  | [some column, some value] => return ⟨← column.text?, ← Expr.ofJson? (levels - 1) value⟩
  | _ => none

/-- The items of an array, each read by `item?`; the empty list if there is no document. -/
def listOfJson? {α : Type} (item? : Json → Option α) (levels : Nat) : Option Json → Option (List α)
  | none => some []
  | some document => do (← document.items? levels).mapM item?

namespace Request

/-- The names of a request's fields. -/
def fieldNames : List Text :=
  ["kind".toList, "operation".toList, "query".toList, "set".toList, "ignore".toList,
   "bindings".toList, "shard".toList]

/-- The document of a request. -/
def toJson (request : Request) : Json :=
  .ofFields
    [("kind", .ofText request.kind),
     ("operation", .ofText request.operation.key),
     ("query", .ofText request.query),
     ("set", .array (request.set.map (·.toJson))),
     ("ignore", .array (request.ignored.columns.map .ofText)),
     ("bindings", .array (request.bindings.map (·.toJson))),
     ("shard", request.shard.elim .null (·.toJson))]

/-- The operation of a request, an update if there is no document. -/
def operationOfJson? (levels : Nat) : Option Json → Option Operation
  | none => some .update
  | some document => Operation.ofJson? levels document

/-- The route of a request, none if there is no document or it is `null`. -/
def shardOfJson? (levels : Nat) : Option Json → Option (Option Route)
  | none | some .null => some none
  | some document => (Route.ofJson? levels document).map some

/-- The request that a document writes. -/
def ofJson? (levels : Nat) (document : Json) : Option Request := do
  match ← document.record? levels fieldNames with
  | [some kind, operation, some query, set, ignored, bindings, shard] =>
    let inner := levels - 1
    return {
      kind := ← kind.text?
      operation := ← operationOfJson? inner operation
      query := ← query.text?
      set := ← listOfJson? (Assignment.Entry.ofJson? (inner - 1)) inner set
      ignored := ⟨← listOfJson? Json.text? inner ignored⟩
      bindings := ← listOfJson? (Binding.ofJson? (inner - 1)) inner bindings
      shard := ← shardOfJson? inner shard }
  | _ => none

/-- The request that a text writes. -/
def read? (text : Text) : Option Request := (Json.read? text).bind (ofJson? Json.depthLimit)

end Request

/-- The expression that a text writes. -/
def Expr.read? (text : Text) : Option Expr := (Json.read? text).bind (Expr.ofJson? Json.depthLimit)

/-- The value that a text writes. -/
def Value.read? (text : Text) : Option Value := (Json.read? text).bind (Value.ofJson? Json.depthLimit)

end BulkDml
