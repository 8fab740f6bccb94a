/-
Module: DocStore.Proofs.Exchange.Draining
Purpose: the rows of a query are those of all its pages, in order, or there is an error, and
  nothing is asked after the reply that shows which.
Main exports:
  FurtherPage, LastPage, Reply.Malformed, Server.reads_iff, Server.reads_ok_iff,
  Server.reads_error_iff, Exchange.runCursor_drains
-/
import DocStore.Proofs.Exchange.Reading
import DocStore.Proofs.Exchange.Replies
import DocStore.Proofs.Memory.Changes

namespace DocStore

/-!
A reply to the reading of a cursor is a page after which there are more, the last page, or
neither.  A reading goes on through pages of the first kind; the first reply of another kind
ends it.
-/

/-! ### Pages -/

/-- A page that is not the last one: a successful response with rows, which reports that there
are more, and the name of the cursor to ask for them. -/
structure FurtherPage where
  response : Response
  rows : List Json
  id : String
  success : response.isSuccess = true
  result_eq : response.body.field "result" = .arr rows
  hasMore : response.body.field "hasMore" = .bool true
  named : response.body.field "id" = .str id

/-- A last page: a successful response with rows that does not report more. -/
structure LastPage where
  response : Response
  rows : List Json
  success : response.isSuccess = true
  result_eq : response.body.field "result" = .arr rows
  final : response.body.field "hasMore" ≠ .bool true

/-- The reply that a page is. -/
def FurtherPage.reply (p : FurtherPage) : Reply :=
  .answered p.response

/-- The reply that a last page is. -/
def LastPage.reply (p : LastPage) : Reply :=
  .answered p.response

/-- The reply is no page. -/
def Reply.Malformed (reply : Reply) : Prop :=
  (∀ p : FurtherPage, reply ≠ p.reply) ∧ ∀ p : LastPage, reply ≠ p.reply

/-- A response that is no success is no page. -/
theorem Response.malformed_of_failure {response : Response} (failure : response.isSuccess = false) :
    (Reply.answered response).Malformed := by
  constructor
  · intro p is
    have success := p.success
    rw [← Reply.answered.inj is, failure] at success
    cases success
  · intro p is
    have success := p.success
    rw [← Reply.answered.inj is, failure] at success
    cases success

theorem Response.result_of_isSuccess {response : Response} (success : response.isSuccess = true) :
    response.result = .ok response.body :=
  if_pos success

theorem Json.items?_eq_some_iff {j : Json} {items : List Json} :
    j.items? = some items ↔ j = .arr items := by
  cases j <;> simp [items?]

theorem Json.bool?_eq_some_iff {j : Json} {b : Bool} : j.bool? = some b ↔ j = .bool b := by
  cases j <;> simp [bool?]

namespace CursorRead

variable {c : CursorRead} {reply : Reply} {rows : List Json} {e : Error}

/-- The reading after a page: its rows are read, and the next page is to be asked for. -/
def followed (c : CursorRead) (p : FurtherPage) : CursorRead :=
  { c with position := .page p.id, rows := c.rows ++ p.rows }

theorem receive_further (c : CursorRead) (p : FurtherPage) :
    c.receive p.reply = .more (c.followed p) := by
  have page : p.reply.result = .ok p.response.body := Response.result_of_isSuccess p.success
  simp [receive, page, receivePage, p.result_eq, p.hasMore, p.named, Json.items?, Json.bool?,
    Json.text?, followed]

theorem receive_last (c : CursorRead) (p : LastPage) :
    c.receive p.reply = .finished (.ok (c.rows ++ p.rows)) := by
  have page : p.reply.result = .ok p.response.body := Response.result_of_isSuccess p.success
  have final : (p.response.body.field "hasMore").bool? ≠ some true := fun more =>
    p.final (Json.bool?_eq_some_iff.mp more)
  simp [receive, page, receivePage, p.result_eq, final, Json.items?]

/-- What is no page ends the reading with an error, whatever is wrong with it. -/
theorem receive_malformed (c : CursorRead) (malformed : reply.Malformed) :
    ∃ e, c.receive reply = .finished (.error e) := by
  cases reply with
  | lost fault => exact ⟨_, rfl⟩
  | answered response =>
      by_cases success : response.isSuccess = true
      · have page : (Reply.answered response).result = .ok response.body :=
          Response.result_of_isSuccess success
        have received : c.receive (.answered response) = c.receivePage response.body := by
          simp only [receive, page]
        rw [received, receivePage]
        split
        · exact ⟨_, rfl⟩
        · next rows items =>
            have result_eq := Json.items?_eq_some_iff.mp items
            dsimp only
            split
            · next more =>
                split
                · next id named =>
                    exact absurd rfl (malformed.1 ⟨response, rows, id, success, result_eq,
                      Json.bool?_eq_some_iff.mp more, Json.text?_eq_some_iff.mp named⟩)
                · exact ⟨_, rfl⟩
            · next final =>
                exact absurd rfl (malformed.2 ⟨response, rows, success, result_eq,
                  fun more => final (Json.bool?_eq_some_iff.mpr more)⟩)
      · obtain ⟨e, refused⟩ : ∃ e, response.result = .error e := ⟨_, if_neg success⟩
        exact ⟨e, by simp only [receive, Reply.result, refused]⟩

/-- A reply is of one of the three kinds. -/
theorem receive_cases (c : CursorRead) (reply : Reply) :
    (∃ p : FurtherPage, reply = p.reply ∧ c.receive reply = .more (c.followed p)) ∨
      (∃ p : LastPage, reply = p.reply ∧ c.receive reply = .finished (.ok (c.rows ++ p.rows))) ∨
      reply.Malformed ∧ ∃ e, c.receive reply = .finished (.error e) := by
  by_cases further : ∃ p : FurtherPage, reply = p.reply
  · obtain ⟨p, rfl⟩ := further
    exact Or.inl ⟨p, rfl, c.receive_further p⟩
  · by_cases last : ∃ p : LastPage, reply = p.reply
    · obtain ⟨p, rfl⟩ := last
      exact Or.inr (Or.inl ⟨p, rfl, c.receive_last p⟩)
    · have malformed : reply.Malformed := ⟨not_exists.mp further, not_exists.mp last⟩
      exact Or.inr (Or.inr ⟨malformed, c.receive_malformed malformed⟩)

theorem further_of_receive {next : CursorRead} (more : c.receive reply = .more next) :
    ∃ p : FurtherPage, reply = p.reply ∧ next = c.followed p := by
  rcases c.receive_cases reply with ⟨p, is, received⟩ | ⟨_, _, received⟩ | ⟨_, _, received⟩
  · cases more.symm.trans received
    exact ⟨p, is, rfl⟩
  · cases more.symm.trans received
  · cases more.symm.trans received

theorem receive_eq_ok_iff : c.receive reply = .finished (.ok rows) ↔
    ∃ p : LastPage, reply = p.reply ∧ rows = c.rows ++ p.rows := by
  constructor
  · intro finished
    rcases c.receive_cases reply with ⟨_, _, received⟩ | ⟨p, is, received⟩ | ⟨_, _, received⟩
    · cases finished.symm.trans received
    · cases finished.symm.trans received
      exact ⟨p, is, rfl⟩
    · cases finished.symm.trans received
  · rintro ⟨p, rfl, rfl⟩
    exact c.receive_last p

theorem exists_receive_eq_error_iff :
    (∃ e, c.receive reply = .finished (.error e)) ↔ reply.Malformed := by
  constructor
  · rintro ⟨e, finished⟩
    rcases c.receive_cases reply with ⟨_, _, received⟩ | ⟨_, _, received⟩ | ⟨malformed, _⟩
    · cases finished.symm.trans received
    · cases finished.symm.trans received
    · exact malformed
  · exact c.receive_malformed

/-! ### Readings through many pages -/

/-- The request for the next page of a cursor. -/
def pageRequest (database : Option String) (transaction : Option Transaction) (id : String) :
    Request :=
  (({ method := .post, path := "cursor/" ++ id } : Request).withDatabase database).inTransaction
    transaction

/-- The requests of a reading that these pages, and then one further reply, are the replies
to. -/
def requests (c : CursorRead) (pages : List FurtherPage) : List Request :=
  c.request :: pages.map fun p => pageRequest c.database c.transaction p.id

theorem requests_cons (c : CursorRead) (p : FurtherPage) (pages : List FurtherPage) :
    c.requests (p :: pages) = c.request :: (c.followed p).requests pages := rfl

theorem length_requests (c : CursorRead) (pages : List FurtherPage) :
    (c.requests pages).length = pages.length + 1 := by
  simp [requests]

/-- Everything that a reading asks for is posted, in one database and transaction. -/
theorem requests_start {database : Option String} {aql : String} {bindVars : Dict Json}
    {transaction : Option Transaction} (pages : List FurtherPage) :
    ∀ r ∈ (start database aql bindVars transaction).requests pages, r.method = .post ∧
      r.database = (transaction.bind (·.database)).or database ∧
      r.transaction = transaction.map (·.id) := by
  intro r member
  rcases List.mem_cons.mp member with rfl | later
  · cases transaction <;> exact ⟨rfl, rfl, rfl⟩
  · obtain ⟨p, _, rfl⟩ := List.mem_map.mp later
    cases transaction <;> exact ⟨rfl, rfl, rfl⟩

theorem path_requests_start {database : Option String} {aql : String} {bindVars : Dict Json}
    {transaction : Option Transaction} (pages : List FurtherPage) :
    ((start database aql bindVars transaction).requests pages).map (·.path) =
      "cursor" :: pages.map fun p => "cursor/" ++ p.id := by
  rw [requests, List.map_cons, List.map_map]
  cases transaction <;> rfl

theorem rows_foldl_followed (c : CursorRead) (pages : List FurtherPage) :
    (pages.foldl followed c).rows = c.rows ++ pages.flatMap (·.rows) := by
  induction pages generalizing c with
  | nil => simp
  | cons p rest inductionHypothesis =>
      rw [List.foldl_cons, inductionHypothesis, List.flatMap_cons, ← List.append_assoc]
      rfl

end CursorRead

namespace Server

variable {σ : Type} {server : Server σ} {s s' : σ} {c : CursorRead} {sent : List Request}
  {outcome : Except Error (List Json)}

/-- A reading that comes to its end has gone through pages, each of them asked for by the name
that the page before it gave, up to a reply that finishes it. -/
theorem reads_iff : server.Reads s c sent outcome s' ↔
    ∃ (pages : List FurtherPage) (reply : Reply), sent = c.requests pages ∧
      server.replies s sent = pages.map FurtherPage.reply ++ [reply] ∧
      (pages.foldl CursorRead.followed c).receive reply = .finished outcome ∧
      s' = server.after s sent := by
  constructor
  · intro reads
    induction reads with
    | finished received => exact ⟨[], _, rfl, rfl, received, rfl⟩
    | more received _ inductionHypothesis =>
        obtain ⟨p, is, rfl⟩ := CursorRead.further_of_receive received
        obtain ⟨pages, reply, rfl, replied, finished, rfl⟩ := inductionHypothesis
        refine ⟨p :: pages, reply, rfl, ?_, finished, rfl⟩
        rw [replies, replied, is]
        rfl
  · rintro ⟨pages, reply, rfl, replied, finished, rfl⟩
    induction pages generalizing s c with
    | nil =>
        obtain ⟨rfl⟩ : (server.answer s c.request).1 = reply := List.head_eq_of_cons_eq replied
        exact .finished finished
    | cons p rest inductionHypothesis =>
        rw [CursorRead.requests_cons, replies, List.map_cons, List.cons_append,
          List.cons.injEq] at replied
        refine .more ?_ (inductionHypothesis replied.2 finished)
        rw [replied.1]
        exact c.receive_further p

/-- A reading ends with rows exactly if it comes to a last page, and then with the rows of all
pages in order. -/
theorem reads_ok_iff {rows : List Json} : server.Reads s c sent (.ok rows) s' ↔
    ∃ (pages : List FurtherPage) (last : LastPage), sent = c.requests pages ∧
      server.replies s sent = pages.map FurtherPage.reply ++ [last.reply] ∧
      rows = c.rows ++ pages.flatMap (·.rows) ++ last.rows ∧ s' = server.after s sent := by
  rw [reads_iff]
  constructor
  · rintro ⟨pages, reply, asked, replied, finished, reached⟩
    obtain ⟨last, rfl, rfl⟩ := CursorRead.receive_eq_ok_iff.mp finished
    exact ⟨pages, last, asked, replied, by rw [CursorRead.rows_foldl_followed], reached⟩
  · rintro ⟨pages, last, asked, replied, rfl, reached⟩
    refine ⟨pages, last.reply, asked, replied, ?_, reached⟩
    rw [CursorRead.receive_last, CursorRead.rows_foldl_followed]

/-- A reading ends with an error exactly if it comes to a reply that is no page. -/
theorem reads_error_iff : (∃ e, server.Reads s c sent (.error e) s') ↔
    ∃ (pages : List FurtherPage) (broken : Reply), broken.Malformed ∧ sent = c.requests pages ∧
      server.replies s sent = pages.map FurtherPage.reply ++ [broken] ∧
      s' = server.after s sent := by
  constructor
  · rintro ⟨e, reads⟩
    obtain ⟨pages, reply, asked, replied, finished, reached⟩ := reads_iff.mp reads
    exact ⟨pages, reply, CursorRead.exists_receive_eq_error_iff.mp ⟨e, finished⟩, asked, replied,
      reached⟩
  · rintro ⟨pages, broken, malformed, asked, replied, reached⟩
    obtain ⟨e, finished⟩ := (pages.foldl CursorRead.followed c).receive_malformed malformed
    exact ⟨e, reads_iff.mpr ⟨pages, broken, asked, replied, finished, reached⟩⟩

end Server

/-! ### Scripts -/

section

variable {script given rest s' : List Reply} {requests sent : List Request} {c : CursorRead}
  {outcome : Except Error (List Json)}

theorem scripted_answer (script : List Reply) (r : Request) :
    scripted.answer script r = (script.headD scriptEnd, script.tail) := by
  cases script <;> rfl

/-- Requests are answered by as many replies of the script. -/
theorem scripted_replies (rest : List Reply) (enough : given.length = requests.length) :
    scripted.replies (given ++ rest) requests = given ∧
      scripted.after (given ++ rest) requests = rest := by
  induction requests generalizing given with
  | nil =>
      obtain rfl := List.eq_nil_of_length_eq_zero enough
      exact ⟨rfl, rfl⟩
  | cons r later inductionHypothesis =>
      cases given with
      | nil => cases enough
      | cons reply others =>
          obtain ⟨replied, reached⟩ := inductionHypothesis (Nat.succ.inj enough)
          exact ⟨congrArg (reply :: ·) replied, reached⟩

/-- With at most one request more than the script has replies, the script and its end begin with
the replies. -/
theorem scripted_replies_append (bound : requests.length ≤ script.length + 1) :
    ∃ rest, script ++ [scriptEnd] = scripted.replies script requests ++ rest := by
  induction requests generalizing script with
  | nil => exact ⟨_, rfl⟩
  | cons r later inductionHypothesis =>
      cases script with
      | nil =>
          obtain rfl : later = [] := List.eq_nil_of_length_eq_zero (by simpa using bound)
          exact ⟨[], rfl⟩
      | cons reply others =>
          have fewer : later.length ≤ others.length + 1 := by simpa using bound
          obtain ⟨rest, is⟩ := inductionHypothesis fewer
          exact ⟨rest, congrArg (reply :: ·) is⟩

/-- A script is always read to the end of the cursor, with at most one request more than it has
replies. -/
theorem scripted_reads (script : List Reply) (c : CursorRead) :
    ∃ sent outcome s', scripted.Reads script c sent outcome s' ∧
      sent.length ≤ script.length + 1 := by
  induction script generalizing c with
  | nil =>
      have malformed : scriptEnd.Malformed := Response.malformed_of_failure rfl
      obtain ⟨e, finished⟩ := c.receive_malformed malformed
      exact ⟨_, _, _, .finished finished, Nat.le_refl _⟩
  | cons reply rest inductionHypothesis =>
      cases received : c.receive reply with
      | finished outcome =>
          exact ⟨_, _, _, .finished received, Nat.succ_le_succ (Nat.zero_le _)⟩
      | more next =>
          obtain ⟨sent, outcome, s', reads, bound⟩ := inductionHypothesis next
          exact ⟨_, outcome, s', .more received reads, Nat.succ_le_succ bound⟩

/-- The bound on pages is not reached in a script. -/
theorem scripted_drain_eq (reads : scripted.Reads script c sent outcome s') :
    scripted.drain script c = ⟨outcome, s', sent, []⟩ := by
  obtain ⟨sentAlso, _, _, also, bound⟩ := scripted_reads script c
  obtain ⟨rfl, _, _⟩ := reads.unique also
  apply reads.drain_eq
  rw [scripted_answer]
  change sent.length ≤ script.tail.length + 2
  rw [List.length_tail]
  omega

theorem scripted_reads_ok (pages : List FurtherPage) (last : LastPage)
    (is : script = pages.map FurtherPage.reply ++ last.reply :: rest) :
    scripted.Reads script c (c.requests pages)
      (.ok (c.rows ++ pages.flatMap (·.rows) ++ last.rows)) rest := by
  have enough : (pages.map FurtherPage.reply ++ [last.reply]).length =
      (c.requests pages).length := by
    simp [CursorRead.length_requests]
  obtain ⟨replied, reached⟩ := scripted_replies rest enough
  rw [List.append_assoc, List.singleton_append, ← is] at replied reached
  exact Server.reads_ok_iff.mpr ⟨pages, last, rfl, replied, rfl, reached.symm⟩

/-- A script of which rows are read begins with their pages. -/
theorem script_of_reads_ok {rows : List Json}
    (reads : scripted.Reads script c sent (.ok rows) s') :
    ∃ (pages : List FurtherPage) (last : LastPage) (rest : List Reply),
      script = pages.map FurtherPage.reply ++ last.reply :: rest ∧
        rows = c.rows ++ pages.flatMap (·.rows) ++ last.rows := by
  obtain ⟨sentAlso, _, _, also, bound⟩ := scripted_reads script c
  obtain ⟨rfl, _, _⟩ := reads.unique also
  obtain ⟨pages, last, _, replied, is, _⟩ := Server.reads_ok_iff.mp reads
  obtain ⟨further, begins⟩ := scripted_replies_append bound
  rw [replied] at begins
  rcases List.eq_nil_or_concat further with rfl | ⟨rest, reply, rfl⟩
  · -- The end of a script is no page.
    rw [List.append_nil] at begins
    have malformed : scriptEnd.Malformed := Response.malformed_of_failure rfl
    exact absurd (List.append_inj_right' begins rfl |> List.head_eq_of_cons_eq) (malformed.2 last)
  · refine ⟨pages, last, rest, ?_, is⟩
    rw [List.concat_eq_append, ← List.append_assoc] at begins
    rw [List.append_inj_left' begins rfl, List.append_assoc, List.singleton_append]

/-- A query is run against a script by reading its cursor to the end. -/
theorem runCursor_scripted {database : Option String} {aql : String} {bindVars : Dict Json}
    {transaction : Option Transaction}
    (reads : scripted.Reads script (.start database aql bindVars transaction) sent outcome s') :
    (Exchange.runCursor database aql bindVars transaction).runOn scripted script =
      ⟨outcome, s', sent, []⟩ := by
  simp only [Exchange.runCursor, Exchange.runOn, scripted_drain_eq reads, List.append_nil]

end

namespace Exchange

/-- Whatever a connection replies, the rows of a query are read exactly if its replies begin with
pages of which only the last one does not report more: then they are the rows of all pages in
order, and what was asked is the query and, by the name that each page gave, the next page, all in
one database and transaction.  Otherwise there is an error, and the first reply that is no page is
the last one that was asked for.  A script comes to one of the two; for every other connection it
is said of the readings that come to an end. -/
theorem runCursor_drains (database : Option String) (aql : String) (bindVars : Dict Json)
    (transaction : Option Transaction) :
    let cursor := CursorRead.start database aql bindVars transaction
    (∀ script : List Reply,
      let run := (runCursor database aql bindVars transaction).runOn scripted script
      (∀ rows, run.outcome = .ok rows ↔
        ∃ (pages : List FurtherPage) (last : LastPage) (rest : List Reply),
          script = pages.map FurtherPage.reply ++ last.reply :: rest ∧
            rows = pages.flatMap (·.rows) ++ last.rows) ∧
      (∀ (pages : List FurtherPage) (last : LastPage) (rest : List Reply),
        script = pages.map FurtherPage.reply ++ last.reply :: rest →
          run.sent = cursor.requests pages ∧ run.state = rest) ∧
      ((¬∃ (pages : List FurtherPage) (last : LastPage) (rest : List Reply),
          script = pages.map FurtherPage.reply ++ last.reply :: rest) →
        ∃ (e : Error) (pages : List FurtherPage) (broken : Reply) (rest : List Reply),
          run.outcome = .error e ∧ broken.Malformed ∧
            script ++ [scriptEnd] = pages.map FurtherPage.reply ++ broken :: rest ∧
            run.sent = cursor.requests pages)) ∧
    (∀ (σ : Type) (server : Server σ) (s s' : σ) (sent : List Request),
      (∀ rows, server.Reads s cursor sent (.ok rows) s' ↔
        ∃ (pages : List FurtherPage) (last : LastPage), sent = cursor.requests pages ∧
          server.replies s sent = pages.map FurtherPage.reply ++ [last.reply] ∧
          rows = pages.flatMap (·.rows) ++ last.rows ∧ s' = server.after s sent) ∧
      ((∃ e, server.Reads s cursor sent (.error e) s') ↔
        ∃ (pages : List FurtherPage) (broken : Reply), broken.Malformed ∧
          sent = cursor.requests pages ∧
          server.replies s sent = pages.map FurtherPage.reply ++ [broken] ∧
          s' = server.after s sent)) ∧
    ∀ pages : List FurtherPage,
      (cursor.requests pages).map (·.path) =
          "cursor" :: pages.map (fun p => "cursor/" ++ p.id) ∧
        ∀ r ∈ cursor.requests pages, r.method = .post ∧
          r.database = (transaction.bind (·.database)).or database ∧
          r.transaction = transaction.map (·.id) := by
  intro cursor
  refine ⟨fun script => ?_, fun σ server s s' sent => ⟨fun rows => ?_, ?_⟩, fun pages => ?_⟩
  · obtain ⟨sent, outcome, s', reads, bound⟩ := scripted_reads script cursor
    rw [runCursor_scripted reads]
    refine ⟨fun rows => ⟨?_, ?_⟩, ?_, ?_⟩
    · rintro rfl
      exact script_of_reads_ok reads
    · rintro ⟨pages, last, rest, is, rfl⟩
      exact (reads.unique (scripted_reads_ok pages last is)).2.1
    · intro pages last rest is
      obtain ⟨asked, _, reached⟩ := reads.unique (scripted_reads_ok pages last is)
      exact ⟨asked, reached⟩
    · intro otherwise
      cases outcome with
      | ok rows =>
          obtain ⟨pages, last, rest, is, _⟩ := script_of_reads_ok reads
          exact absurd ⟨pages, last, rest, is⟩ otherwise
      | error e =>
          obtain ⟨pages, broken, malformed, asked, replied, _⟩ :=
            Server.reads_error_iff.mp ⟨e, reads⟩
          obtain ⟨rest, begins⟩ := scripted_replies_append bound
          rw [replied, List.append_assoc, List.singleton_append] at begins
          exact ⟨e, pages, broken, rest, rfl, malformed, begins, asked⟩
  · exact Server.reads_ok_iff
  · exact Server.reads_error_iff
  · exact ⟨CursorRead.path_requests_start pages, CursorRead.requests_start pages⟩

/-- A page with the row 1, after which there are more under the name 7. -/
def firstPage : FurtherPage where
  response := ⟨201, .obj ⟨[("hasMore", .bool true), ("id", .str "7"), ("result", .arr [.int 1])]⟩⟩
  rows := [.int 1]
  id := "7"
  success := rfl
  result_eq := rfl
  hasMore := rfl
  named := rfl

/-- A last page with the row 2. -/
def secondPage : LastPage where
  response := ⟨200, .obj ⟨[("result", .arr [.int 2])]⟩⟩
  rows := [.int 2]
  success := rfl
  result_eq := rfl
  final := nofun

/-- What follows the last page is not asked for. -/
theorem runCursor_drains_of_twoPages :
    let run := (runCursor none "RETURN 1" {} none).runOn scripted
      [firstPage.reply, secondPage.reply, .lost .noCursorId]
    run.outcome = .ok [.int 1, .int 2] ∧ run.sent.map (·.path) = ["cursor", "cursor/7"] ∧
      run.state = [.lost .noCursorId] := by
  intro run
  obtain ⟨scripts, _, paths⟩ := runCursor_drains none "RETURN 1" {} none
  obtain ⟨value, asked, _⟩ := scripts [firstPage.reply, secondPage.reply, .lost .noCursorId]
  obtain ⟨sent, state⟩ := asked [firstPage] secondPage [.lost .noCursorId] rfl
  refine ⟨(value _).mpr ⟨[firstPage], secondPage, [.lost .noCursorId], rfl, rfl⟩, ?_, state⟩
  rw [sent]
  exact (paths [firstPage]).1

end Exchange

end DocStore
