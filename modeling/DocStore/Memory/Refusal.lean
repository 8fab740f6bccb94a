/-
Module: DocStore.Memory.Refusal
Purpose: why the store in memory refuses a request, and what it answers then.
Main exports:
  Refusal, Refusal.status, Refusal.number, Refusal.message, Refusal.response
-/
import DocStore.Exchange.Message

namespace DocStore

/-- Why a request is refused. -/
inductive Refusal where
  /-- The request lacks something. -/
  | lacking (what : String)
  /-- A body is no object. -/
  | notObject (what : String)
  | unsupportedQuery (aql : String)
  | noSource (name : String)
  | nameTaken (name : String)
  | noIndex (id : String)
  | noAnalyzer (name : String)
  | noDocument (collection key : String)
  | keyTaken (key : String)
  | noEdgeEnd (side : String)
  | noCursor (id : String)
  /-- A transaction writes to a collection that it has not declared. -/
  | undeclared (collection : String)
  | noTransaction (id : String)
  | noRoute (method : Method) (path : String)
deriving DecidableEq, Repr

namespace Refusal

/-- The status of the answer. -/
def status : Refusal → Nat
  | lacking _ => 400
  | notObject _ => 400
  | unsupportedQuery _ => 400
  | noSource _ => 404
  | nameTaken _ => 409
  | noIndex _ => 404
  | noAnalyzer _ => 404
  | noDocument .. => 404
  | keyTaken _ => 409
  | noEdgeEnd _ => 400
  | noCursor _ => 404
  | undeclared _ => 400
  | noTransaction _ => 404
  | noRoute .. => 404

/-- The error number in the answer. -/
def number : Refusal → Int
  | lacking _ => 10
  | notObject _ => 10
  | unsupportedQuery _ => 10
  | noSource _ => StoreError.dataSourceNotFound
  | nameTaken _ => StoreError.duplicateName
  | noIndex _ => StoreError.indexNotFound
  | noAnalyzer _ => StoreError.documentNotFound
  | noDocument .. => StoreError.documentNotFound
  | keyTaken _ => StoreError.uniqueConstraintViolated
  | noEdgeEnd _ => 1233
  | noCursor _ => 1600
  | undeclared _ => 1652
  | noTransaction _ => 1655
  | noRoute .. => 404

/-- The wording of the answer. -/
def message : Refusal → String
  | lacking what => "missing " ++ what
  | notObject what => what ++ " must be an object"
  | unsupportedQuery aql => "unsupported query: " ++ aql
  | noSource name => "collection or view not found: " ++ name
  | nameTaken name => "duplicate name: " ++ name
  | noIndex id => "index not found: " ++ id
  | noAnalyzer name => "analyzer not found: " ++ name
  | noDocument collection key => "document not found: " ++ collection ++ "/" ++ key
  | keyTaken key =>
      "unique constraint violated - in index primary, conflicting key: " ++ key
  | noEdgeEnd side => "edge attribute missing or invalid: " ++ side
  | noCursor id => "cursor not found: " ++ id
  | undeclared collection => "unregistered collection used in transaction: " ++ collection
  | noTransaction id => "transaction '" ++ id ++ "' not found"
  | noRoute method path => "unknown route " ++ method.word ++ " " ++ path

/-- The answer to a refused request. -/
def response (f : Refusal) : Response :=
  { status := f.status
    body := .obj ⟨[("code", .int f.status), ("error", .bool true),
      ("errorMessage", .str f.message), ("errorNum", .int f.number)]⟩ }

/-- A refused request does not succeed. -/
theorem isSuccess_response (f : Refusal) : f.response.isSuccess = false := by
  simp [response, Response.isSuccess, Json.field, Json.get?, Dict.get?, Dict.lookupEntry,
    Json.bool?]

end Refusal

end DocStore
