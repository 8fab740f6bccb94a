/-
Module: DocStore.Exchange.Server
Purpose: running operations against whoever answers their requests.
Main exports:
  Server, Run, Server.drain, Exchange.runOn, scripted
-/
import DocStore.Exchange.Transaction

namespace DocStore

/-- Who answers requests: an answer for every state and request, and for every
state a bound on the pages that its open cursors can still hand out. -/
structure Server (σ : Type) where
  answer : σ → Request → Reply × σ
  pagesLeft : σ → Nat

/-- What a run leads to: the outcome, the state of the server, the requests in the
order in which they were sent, and the warnings. -/
structure Run (σ α : Type) where
  outcome : Except Error α
  state : σ
  sent : List Request
  warnings : List Warning

namespace Server

variable {σ : Type}

/-- The reading of a cursor that hands out more pages than its server can have. -/
def endlessCursor : Error :=
  .transport (.lost "cursor" "more pages than rows")

/-- Read on, through at most `pages` further pages after the next one. -/
def follow (server : Server σ) : Nat → σ → CursorRead → Run σ (List Json)
  | pages, s, cursor =>
      let (reply, next) := server.answer s cursor.request
      match cursor.receive reply with
      | .finished result => ⟨result, next, [cursor.request], []⟩
      | .more cursor' =>
          match pages with
          | 0 => ⟨.error endlessCursor, next, [cursor.request], []⟩
          | pages + 1 =>
              let run := server.follow pages next cursor'
              { run with sent := cursor.request :: run.sent }

/-- Read all rows of a cursor.  The first answer decides how many pages there can
be. -/
def drain (server : Server σ) (s : σ) (cursor : CursorRead) : Run σ (List Json) :=
  let (reply, next) := server.answer s cursor.request
  match cursor.receive reply with
  | .finished result => ⟨result, next, [cursor.request], []⟩
  | .more cursor' =>
      let run := server.follow (server.pagesLeft next) next cursor'
      { run with sent := cursor.request :: run.sent }

end Server

/-- Run an operation against a server from a state on. -/
def Exchange.runOn {σ α : Type} (server : Server σ) (s : σ) : Exchange α → Run σ α
  | .done outcome => ⟨outcome, s, [], []⟩
  | .send request next =>
      let (reply, s') := server.answer s request
      let run := (next reply).runOn server s'
      { run with sent := request :: run.sent }
  | .drain cursor next =>
      let rows := server.drain s cursor
      let run := (next rows.outcome).runOn server rows.state
      { run with sent := rows.sent ++ run.sent }
  | .warn warning next =>
      let run := next.runOn server s
      { run with warnings := warning :: run.warnings }

/-- The answer of a script that has run out. -/
def scriptEnd : Reply :=
  .answered ⟨500, .obj ⟨[("error", .bool true)]⟩⟩

/-- A server that gives prepared replies one after the other, whatever is asked. -/
def scripted : Server (List Reply) where
  answer
    | [], _ => (scriptEnd, [])
    | reply :: rest, _ => (reply, rest)
  pagesLeft := List.length

end DocStore
