/-
Module: DocStore.Exchange.Cursor
Purpose: reading the rows of a query page by page.
Main exports:
  CursorRead, CursorRead.start, CursorRead.request, CursorRead.receive
-/
import DocStore.Exchange.Message

namespace DocStore

/-- Where the reading of a cursor stands: at its start, with the query to send, or
at the next page of an open cursor. -/
inductive CursorPosition where
  | start (aql : String) (bindVars : Dict Json)
  | page (id : String)

/-- The reading of a cursor: where it stands, and the rows read so far. -/
structure CursorRead where
  database : Option String
  transaction : Option Transaction
  position : CursorPosition
  rows : List Json

namespace CursorRead

/-- The start of a reading. -/
def start (database : Option String) (aql : String) (bindVars : Dict Json)
    (transaction : Option Transaction) : CursorRead :=
  { database, transaction, position := .start aql bindVars, rows := [] }

/-- The request that the position calls for. -/
def bareRequest : CursorPosition → Request
  | .start aql bindVars =>
      .post "cursor" (.obj ⟨[("bindVars", .obj bindVars), ("query", .str aql)]⟩)
  | .page id => { method := .post, path := "cursor/" ++ id }

/-- The next request of a reading. -/
def request (c : CursorRead) : Request :=
  ((bareRequest c.position).withDatabase c.database).inTransaction c.transaction

/-- What an answer leads to: a further page, or the end. -/
inductive Progress where
  | more (next : CursorRead)
  | finished (result : Except Error (List Json))

/-- A page without its rows. -/
def withoutRows (page : Json) : Json :=
  match page with
  | .obj members =>
      if members.contains "result" then .obj (members.insert "result" .null) else page
  | other => other

/-- Take in a page.  It must carry an array of rows; if it reports more, also the
name of the cursor. -/
def receivePage (c : CursorRead) (page : Json) : Progress :=
  match (page.field "result").items? with
  | none => .finished (.error (.transport (.noResultArray (withoutRows page))))
  | some batch =>
      let rows := c.rows ++ batch
      if (page.field "hasMore").bool? = some true then
        match (page.field "id").text? with
        | some id => .more { c with position := .page id, rows }
        | none => .finished (.error (.transport .noCursorId))
      else .finished (.ok rows)

/-- Take in an answer. -/
def receive (c : CursorRead) (reply : Reply) : Progress :=
  match reply.result with
  | .error e => .finished (.error e)
  | .ok page => c.receivePage page

end CursorRead

end DocStore
