/-
Module: DocStore.Exchange.Basic
Purpose: operations as exchanges of requests and replies, whoever answers them.
Main exports:
  Warning, Exchange, Exchange.request, Exchange.attempt, Exchange.runCursor
-/
import DocStore.Exchange.Cursor

namespace DocStore

/-- What an operation reports without failing. -/
inductive Warning where
  | outdated (fault : OrderFault)
  | abortFailed
  | commandFailed
deriving DecidableEq, Repr

/-- The level and the wording of a warning. -/
def Warning.text : Warning → String
  | outdated fault => "WARN " ++ fault.message
  | abortFailed => "WARN failed to abort transaction"
  | commandFailed => "ERROR migration command failed"

/-- An operation that exchanges requests and replies with a store.  It ends with a
value or an error; it sends a request and goes on with the reply; it reads all
rows of a cursor, as many pages as the store hands out, and goes on with them; or
it reports a warning and goes on. -/
inductive Exchange (α : Type) where
  | done (outcome : Except Error α)
  | send (request : Request) (next : Reply → Exchange α)
  | drain (cursor : CursorRead) (next : Except Error (List Json) → Exchange α)
  | warn (warning : Warning) (next : Exchange α)

namespace Exchange

variable {α β : Type}

/-- Go on with a value; an error ends the whole. -/
def bind (x : Exchange α) (f : α → Exchange β) : Exchange β :=
  match x with
  | done (.ok a) => f a
  | done (.error e) => .done (.error e)
  | send request next => .send request fun reply => (next reply).bind f
  | drain cursor next => .drain cursor fun rows => (next rows).bind f
  | warn warning next => .warn warning (next.bind f)

instance : Monad Exchange where
  pure a := .done (.ok a)
  bind := .bind

/-- End with an error. -/
def fail (e : Error) : Exchange α :=
  .done (.error e)

/-- End as a computation without requests ends. -/
def ofExcept (x : Except Error α) : Exchange α :=
  .done x

/-- End as a check of a definition ends. -/
def ofSchema (x : Except SchemaFault α) : Exchange α :=
  match x with
  | .ok a => .done (.ok a)
  | .error fault => .done (.error (.schema fault))

/-- Go on with the outcome, be it a value or an error. -/
def attempt : Exchange α → Exchange (Except Error α)
  | done outcome => .done (.ok outcome)
  | send request next => .send request fun reply => (next reply).attempt
  | drain cursor next => .drain cursor fun rows => (next rows).attempt
  | warn warning next => .warn warning next.attempt

/-- Report a warning. -/
def report (warning : Warning) : Exchange Unit :=
  .warn warning (.done (.ok ()))

/-- Send a request; the value is the body of a successful response. -/
def request (r : Request) : Exchange Json :=
  .send r fun reply => .done reply.result

/-- Send a request whose response carries nothing of interest. -/
def command (r : Request) : Exchange Unit :=
  .send r fun reply => .done (reply.result.map fun _ => ())

/-- Send a request; the value is the response, whatever its status. -/
def rawSend (r : Request) : Exchange Response :=
  .send r fun
    | .answered response => .done (.ok response)
    | .lost fault => .done (.error (.transport fault))

/-- Run a query and read all its rows. -/
def runCursor (database : Option String) (aql : String) (bindVars : Dict Json)
    (transaction : Option Transaction) : Exchange (List Json) :=
  .drain (.start database aql bindVars transaction) .done

/-- Run one operation per element, in order; the values in that order. -/
def forEach (f : α → Exchange β) : List α → Exchange (List β)
  | [] => .done (.ok [])
  | a :: rest => (f a).bind fun b => (forEach f rest).bind fun bs => .done (.ok (b :: bs))

end Exchange

end DocStore
