/-
Module: DocStore.Http.Remote
Purpose: a server that is reached over HTTP.
Main exports:
  Server.remote
-/
import DocStore.Exchange.Server
import DocStore.Http.Wire

namespace DocStore

/-- The answer to what is no request. -/
def WireReply.unreadable : WireReply :=
  ⟨400, ""⟩

/-- The text of a response. -/
def Response.wire (r : Response) : WireReply :=
  ⟨r.status, r.body.render⟩

/-- A server behind HTTP: requests and responses pass over the wire.  Without a
response there is nothing to send back. -/
def Server.remote {σ : Type} (server : Server σ) (settings : HttpSettings) : Server σ where
  answer state r :=
    match (settings.wire r).request? with
    | none => (settings.receive r .unreadable, state)
    | some received =>
        match server.answer state received with
        | (.answered response, next) => (settings.receive r response.wire, next)
        | (.lost fault, next) => (.lost fault, next)
  pagesLeft := server.pagesLeft

end DocStore
