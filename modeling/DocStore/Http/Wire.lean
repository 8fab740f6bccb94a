/-
Module: DocStore.Http.Wire
Purpose: requests and responses as they are sent over HTTP.
Main exports:
  WireRequest, HttpSettings.wire, WireReply, HttpSettings.receive, WireRequest.request?
-/
import DocStore.Http.Settings
import DocStore.Http.Target
import DocStore.Json.Printer
import DocStore.Text.Blank

namespace DocStore

/-- A request as it is sent.  Without a body its text is empty. -/
structure WireRequest where
  method : String
  target : String
  headers : List (String × String)
  body : String
deriving DecidableEq, Repr

/-- A response as it is received. -/
structure WireReply where
  status : Nat
  text : String
deriving DecidableEq, Repr

/-- The name that requests give of their sender. -/
def userAgent : String := "aqueduct/0.1.0"

/-- The header that names a transaction. -/
def transactionHeader : String := "x-arango-trx-id"

namespace HttpSettings

/-- The header that names the user and the password. -/
def authorization (s : HttpSettings) : List (String × String) :=
  match s.username with
  | none => []
  | some user =>
      [("authorization", "Basic " ++ Http.base64 (user ++ ":" ++ s.password.getD ""))]

/-- The headers of a request. -/
def headers (s : HttpSettings) (r : Request) : List (String × String) :=
  [("user-agent", userAgent)] ++ s.authorization ++
    (match r.transaction with
      | none => []
      | some id => [(transactionHeader, id)]) ++
    (if r.body.isSome then [("content-type", "application/json")] else [])

/-- A request as it is sent. -/
def wire (s : HttpSettings) (r : Request) : WireRequest where
  method := r.method.word
  target := ((Http.Target.ofUrl (s.url r)).withPairs r.query).render
  headers := s.headers r
  body := match r.body with
    | none => ""
    | some body => body.render

/-- The text of a response without the mark that can stand in front of it. -/
def unmarked : List Char → List Char
  | '\ufeff' :: text => text
  | text => text

/-- What a response means.  A blank text counts as null. -/
def receive (s : HttpSettings) (r : Request) (w : WireReply) : Reply :=
  let text := unmarked w.text.toList
  if (Text.trim text).isEmpty then .answered ⟨w.status, .null⟩
  else
    match Json.parse? (String.ofList text) with
    | some body => .answered ⟨w.status, body⟩
    | none => .lost (.malformedBody (r.method.word ++ " " ++ r.fullPath s.database) w.status)

end HttpSettings

namespace WireRequest

/-- The method of a word. -/
def methodOf? (word : String) : Option Method :=
  [Method.get, .post, .put, .patch, .delete].find? fun m => m.word == word

/-- The pair that a part of a query writes. -/
def pairOf? (field : List Char) : Option (String × String) :=
  let (key, value) := (Text.splitOnce? ['='] field).getD (field, [])
  (Http.formDecode key).bind fun k => (Http.formDecode value).map fun v => (k, v)

/-- The pairs of a query. -/
def pairsOf (query : List Char) : List (String × String) :=
  ((Text.splitAll ['&'] query).filter fun field => !field.isEmpty).filterMap pairOf?

/-- The request that a store reads off what is sent to it.  Its target names the
database. -/
def request? (w : WireRequest) : Option Request := do
  let method ← methodOf? w.method
  let target := w.target.toList
  let path := target.takeWhile (· != '?')
  let rest ← Text.dropLeading? "/_db/".toList path
  let (database, path') ← Text.splitOnce? "/_api/".toList rest
  let database ← Http.percentDecode database
  let resource ← Http.percentDecode path'
  let body ← if w.body.isEmpty then some none else (Json.parse? w.body).map some
  some { method, path := String.ofList resource, query := pairsOf (target.drop (path.length + 1))
         body, database := some (String.ofList database)
         transaction := Dict.lookupEntry transactionHeader w.headers }

end WireRequest

end DocStore
