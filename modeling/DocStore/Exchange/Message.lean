/-
Module: DocStore.Exchange.Message
Purpose: requests to the store, its responses, and handles of stream transactions.
Main exports:
  Method, Transaction, Request, Request.fullPath, Response, Response.result, Reply
-/
import DocStore.Error

namespace DocStore

/-- What a request does to the resource that its path names. -/
inductive Method where
  | get
  | post
  | put
  | patch
  | delete
deriving DecidableEq, Repr, Inhabited

/-- The word for a method. -/
def Method.word : Method → String
  | get => "GET"
  | post => "POST"
  | put => "PUT"
  | patch => "PATCH"
  | delete => "DELETE"

/-- The handle of a stream transaction.  What is to happen inside a transaction
takes its handle. -/
structure Transaction where
  id : String
  database : Option String := none
deriving DecidableEq, Repr, Inhabited

/-- A request.  Its path is relative to the interface of a database; without a
database it is addressed to the default one of the connection. -/
structure Request where
  method : Method
  path : String
  query : List (String × String) := []
  body : Option Json := none
  database : Option String := none
  transaction : Option String := none
deriving Inhabited

namespace Request

/-- A request for what is at a path. -/
def get (path : String) : Request :=
  { method := .get, path }

/-- A request to make something of a body. -/
def post (path : String) (body : Json) : Request :=
  { method := .post, path, body := some body }

/-- A request to put a body in the place of something. -/
def put (path : String) (body : Json) : Request :=
  { method := .put, path, body := some body }

/-- A request to change something by a body. -/
def patch (path : String) (body : Json) : Request :=
  { method := .patch, path, body := some body }

/-- A request to remove something. -/
def delete (path : String) : Request :=
  { method := .delete, path }

/-- Append a query parameter. -/
def withQuery (r : Request) (key value : String) : Request :=
  { r with query := r.query ++ [(key, value)] }

/-- Address a database. -/
def withDatabase (r : Request) (database : Option String) : Request :=
  { r with database }

/-- Attach the request to a transaction, whose database wins over the one
addressed. -/
def inTransaction (r : Request) (transaction : Option Transaction) : Request :=
  match transaction with
  | none => r
  | some t => { r with transaction := some t.id, database := t.database.or r.database }

/-- The path on the server. -/
def fullPath (r : Request) (defaultDatabase : String) : String :=
  "/_db/" ++ r.database.getD defaultDatabase ++ "/_api/" ++ r.path

end Request

/-- The answer of the store. -/
structure Response where
  status : Nat
  body : Json
deriving Inhabited

namespace Response

/-- Whether a request succeeded: by its status, and unless the body reports an
error. -/
def isSuccess (r : Response) : Bool :=
  200 ≤ r.status && r.status < 300 && (r.body.field "error").bool? != some true

/-- The body of a successful response, or the store's error. -/
def result (r : Response) : Except Error Json :=
  if r.isSuccess then .ok r.body
  else
    let number := (r.body.field "errorNum").signed?.getD r.status
    let message := (r.body.field "errorMessage").text?.getD
      ("request failed with HTTP " ++ toString r.status)
    .error (.store r.status number message)

end Response

/-- What comes back for a request: a response, or nothing. -/
inductive Reply where
  | answered (response : Response)
  | lost (fault : TransportFault)

/-- The body of a successful response, or why there is none. -/
def Reply.result : Reply → Except Error Json
  | answered response => response.result
  | lost fault => .error (.transport fault)

end DocStore
