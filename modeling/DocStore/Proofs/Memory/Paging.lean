/-
Module: DocStore.Proofs.Memory.Paging
Purpose: a query to the store in memory ends with all its rows, however many pages they
  take.
Main exports:
  Store.pageCount, Store.LeavesNoCursor, Store.reads_rows, Store.ends_runCursor_ok,
  Store.ends_runCursor_error
-/
import DocStore.Proofs.Dict
import DocStore.Proofs.Exchange.Reading
import DocStore.Proofs.Memory.Names
import DocStore.Proofs.Memory.Routing
import DocStore.Proofs.Memory.Serving

namespace DocStore

namespace Store

/-! ### Requests of a reading -/

theorem transaction_request (c : CursorRead) :
    c.request.transaction = c.transaction.map (·.id) := by
  rcases c with ⟨database, transaction, position, rows⟩
  cases position <;> cases transaction <;> rfl

theorem route_of_page {c : CursorRead} {id : String} (position : c.position = .page id)
    (plain : '/' ∉ id.toList) : Route.of? c.request = some (.readCursor id) := by
  have request : c.request.path = "cursor/" ++ id ∧ c.request.method = .post := by
    simp only [CursorRead.request, CursorRead.bareRequest, position]
    cases c.transaction <;> exact ⟨rfl, rfl⟩
  have cut : Text.splitAt '/' ("cursor/" ++ id) = ["cursor", id] :=
    Route.segments_named "cursor" id (by decide) plain
  rw [Route.of?, request.1, request.2, cut]
  rfl

/-- Whatever the name of a page is, its request asks for nothing but a cursor. -/
theorem eq_of_route_page {c : CursorRead} {id : String} (position : c.position = .page id)
    {route : Route} (routed : Route.of? c.request = some route) :
    ∃ name, route = .readCursor name := by
  have path : c.request.path = "cursor" ++ "/" ++ id := by
    rcases c with ⟨_, transaction, _, _⟩
    cases position
    cases transaction <;> rfl
  have shape := Route.of?_eq_some_iff.mp routed
  rw [path, Route.segments_append "cursor" id (by decide)] at shape
  cases route <;> simp [Route.shapes, Text.splitAt_ne_nil] at shape ⊢

theorem route_of_start {c : CursorRead} {aql : String} {bindVars : Dict Json}
    (position : c.position = .start aql bindVars) : Route.of? c.request = some .openCursor := by
  have request : c.request.path = "cursor" ∧ c.request.method = .post := by
    simp only [CursorRead.request, CursorRead.bareRequest, position]
    cases c.transaction <;> exact ⟨rfl, rfl⟩
  exact Route.of?_post "cursor" request.2 request.1 (by decide)

/-! ### Pages -/

theorem page_short (s : Store) {rows : List Json} {batch : Nat} (fits : rows.length ≤ batch) :
    s.page rows batch =
      (.ok (answered 201 (.obj ⟨[("hasMore", .bool false), ("result", .arr rows)]⟩)), s) := by
  rw [page, if_pos fits]

theorem page_long (s : Store) {rows : List Json} {batch : Nat} (longer : batch < rows.length) :
    s.page rows batch =
      (.ok (answered 201 (.obj ⟨[("hasMore", .bool true), ("id", .str (hexName (s.names + 1))),
        ("result", .arr (rows.take batch))]⟩)),
        { s with
          names := s.names + 1
          cursors := s.cursors.insert (hexName (s.names + 1)) (rows.drop batch) }) := by
  rw [page, if_neg (Nat.not_le.mpr longer)]
  rfl

theorem receive_short (c : CursorRead) (rows : List Json) :
    c.receive (.answered (answered 201
      (.obj ⟨[("hasMore", .bool false), ("result", .arr rows)]⟩))) =
        .finished (.ok (c.rows ++ rows)) := by
  have result : (answered 201 (.obj ⟨[("hasMore", .bool false), ("result", .arr rows)]⟩)).result =
      .ok (.obj ⟨[("hasMore", .bool false), ("result", .arr rows)]⟩) :=
    Response.result_answered (by decide) nofun
  rw [CursorRead.receive, Reply.result, result]
  rfl

theorem receive_long (c : CursorRead) (rows : List Json) (id : String) :
    c.receive (.answered (answered 201
      (.obj ⟨[("hasMore", .bool true), ("id", .str id), ("result", .arr rows)]⟩))) =
        .more { c with position := .page id, rows := c.rows ++ rows } := by
  have result : (answered 201
      (.obj ⟨[("hasMore", .bool true), ("id", .str id), ("result", .arr rows)]⟩)).result =
        .ok (.obj ⟨[("hasMore", .bool true), ("id", .str id), ("result", .arr rows)]⟩) :=
    Response.result_answered (by decide) nofun
  rw [CursorRead.receive, Reply.result, result]
  rfl

/-- The store that hands out the rows of a cursor has noted the request, and keeps the rows no
longer. -/
def takeCursor (s : Store) (r : Request) (id : String) : Store :=
  { s.noteRequest r with cursors := s.cursors.erase id }

theorem sameData_takeCursor (s : Store) (r : Request) (id : String) :
    SameData s (s.takeCursor r id) :=
  ⟨rfl, rfl, rfl, rfl, Nat.le_refl _⟩

/-- The answer to a request for the next page of an open cursor. -/
theorem answer_page {s : Store} {c : CursorRead} {id : String} {rows : List Json}
    (position : c.position = .page id) (plain : '/' ∉ id.toList) (opened : s.Opened c.transaction)
    (stored : s.cursors.get? id = some rows) :
    Store.server.answer s c.request =
      (.answered (responseTo ((s.takeCursor c.request id).page rows s.batchSize).1),
        ((s.takeCursor c.request id).page rows s.batchSize).2) := by
  have answered := answer_of_route (opened.knows (transaction_request c))
    (route_of_page position plain)
  have kept : (s.noteRequest c.request).cursors.get? id = some rows := stored
  rw [answered, perform, readCursor, kept]
  rfl

theorem length_le_pagesLeft {s : Store} {id : String} {rows : List Json}
    (stored : s.cursors.get? id = some rows) : rows.length ≤ Store.server.pagesLeft s := by
  have total : ∀ (values : List (List Json)) (start : Nat), start ≤
      values.foldl (fun n rows => n + rows.length) start := by
    intro values
    induction values with
    | nil => exact fun start => Nat.le_refl start
    | cons value rest inductionHypothesis =>
        exact fun start => Nat.le_trans (Nat.le_add_right _ _) (inductionHypothesis _)
  have counted : ∀ (values : List (List Json)) (start : Nat), rows ∈ values → rows.length ≤
      values.foldl (fun n rows => n + rows.length) start := by
    intro values
    induction values with
    | nil => exact fun _ member => by cases member
    | cons value rest inductionHypothesis =>
        intro start member
        rcases List.mem_cons.mp member with rfl | later
        · exact Nat.le_trans (Nat.le_add_left _ _) (total rest _)
        · exact inductionHypothesis _ later
  have entry := Dict.mem_of_lookupEntry_eq_some stored
  exact counted _ _ (List.mem_map.mpr ⟨_, entry, rfl⟩)

/-- A page holds all rows, or it names the cursor that the other rows are kept under. -/
theorem receive_page {s s₁ : Store} {c : CursorRead} {rows : List Json} {size : Nat}
    (answered : Store.server.answer s c.request =
      (.answered (responseTo (s₁.page rows size).1), (s₁.page rows size).2)) :
    (rows.length ≤ size ∧ (Store.server.answer s c.request).2 = s₁ ∧
      c.receive (Store.server.answer s c.request).1 = .finished (.ok (c.rows ++ rows))) ∨
      ∃ id, '/' ∉ id.toList ∧ size < rows.length ∧
        SameData s₁ (Store.server.answer s c.request).2 ∧
        (Store.server.answer s c.request).2.cursors = s₁.cursors.insert id (rows.drop size) ∧
        c.receive (Store.server.answer s c.request).1 =
          .more { c with position := .page id, rows := c.rows ++ rows.take size } := by
  rw [answered]
  by_cases fits : rows.length ≤ size
  · rw [page_short s₁ fits]
    exact Or.inl ⟨fits, rfl, receive_short c rows⟩
  · have longer := Nat.not_le.mp fits
    rw [page_long s₁ longer]
    exact Or.inr ⟨_, slash_notMem_hexName _, longer, ⟨rfl, rfl, rfl, rfl, Nat.le_succ _⟩, rfl,
      receive_long c _ _⟩

/-! ### Readings -/

/-- How many pages of a size rows take.  No rows take a page as well. -/
def pageCount (size rows : Nat) : Nat :=
  (rows - 1) / size + 1

theorem pageCount_of_le {size rows : Nat} (fits : rows ≤ size) : pageCount size rows = 1 := by
  unfold pageCount
  cases rows with
  | zero => rw [Nat.zero_sub, Nat.zero_div]
  | succ rows => rw [Nat.add_sub_cancel, Nat.div_eq_of_lt fits]

theorem pageCount_of_lt {size rows : Nat} (positive : 0 < size) (longer : size < rows) :
    pageCount size rows = pageCount size (rows - size) + 1 := by
  have one : (rows - 1) / size = (rows - 1 - size) / size + 1 :=
    Nat.div_eq_sub_div positive (Nat.le_sub_one_of_lt longer)
  have order : rows - size - 1 = rows - 1 - size := Nat.sub_right_comm rows size 1
  rw [pageCount, one, pageCount, order]

theorem pageCount_le (size rows : Nat) : pageCount size rows ≤ rows + 1 :=
  Nat.succ_le_succ (Nat.le_trans (Nat.div_le_self _ _) (Nat.sub_le _ _))

/-- Every cursor of the second store is a cursor of the first one, with the same rows. -/
def LeavesNoCursor (s s' : Store) : Prop :=
  ∀ id rows, s'.cursors.get? id = some rows → s.cursors.get? id = some rows

/-- A page that is handed out is read to the end of its rows, through as many pages as they
take: each further page takes the cursor of the one before out of the store. -/
theorem reads_rows {s s₁ : Store} {c : CursorRead} {rows : List Json} (opened : s₁.Opened
    c.transaction) (batch : rows.length ≤ s₁.batchSize ∨ 0 < s₁.batchSize)
    (answered : Store.server.answer s c.request =
      (.answered (responseTo (s₁.page rows s₁.batchSize).1), (s₁.page rows s₁.batchSize).2)) :
    ∃ sent s', Store.server.Reads s c sent (.ok (c.rows ++ rows)) s' ∧
      sent.length = pageCount s₁.batchSize rows.length ∧ SameData s₁ s' ∧ s₁.LeavesNoCursor s' := by
  induction taken : rows.length using Nat.strongRecOn generalizing s s₁ c rows with
  | ind _ inductionHypothesis =>
      rcases receive_page answered with
        ⟨fits, unchanged, last⟩ | ⟨id, plain, longer, same, cursors, more⟩
      · refine ⟨_, _, .finished last, ?_⟩
        rw [unchanged, ← taken, pageCount_of_le fits]
        exact ⟨rfl, SameData.refl s₁, fun _ _ kept => kept⟩
      · have positive : 0 < s₁.batchSize := batch.resolve_left (Nat.not_le.mpr longer)
        have size := same.batchSize_eq
        have stored : (Store.server.answer s c.request).2.cursors.get? id =
            some (rows.drop s₁.batchSize) := by
          rw [cursors, Dict.get?_insert_self]
        let next : CursorRead :=
          { c with position := .page id, rows := c.rows ++ rows.take s₁.batchSize }
        have onward := sameData_takeCursor (Store.server.answer s c.request).2 next.request id
        have shorter : (rows.drop s₁.batchSize).length < rows.length := by
          rw [List.length_drop]
          omega
        obtain ⟨sent, s', rest, count, sameRest, leaves⟩ := inductionHypothesis _ (taken ▸ shorter)
          (c := next) ((opened.of_sameData same).of_sameData onward)
          (Or.inr (onward.batchSize_eq.trans size ▸ positive))
          (answer_page rfl plain (opened.of_sameData same) stored) rfl
        rw [onward.batchSize_eq, size, List.length_drop] at count
        have whole : next.rows ++ rows.drop s₁.batchSize = c.rows ++ rows := by
          rw [List.append_assoc, List.take_append_drop]
        refine ⟨_, s', .more more (whole ▸ rest), ?_, same.trans (onward.trans sameRest), ?_⟩
        · rw [List.length_cons, count, ← taken, pageCount_of_lt positive longer]
        · -- The cursor of this page is gone when the next one is read.
          intro other kept is
          have before : ((s₁.cursors.insert id (rows.drop s₁.batchSize)).erase id).get? other =
              some kept := cursors ▸ leaves other kept is
          rw [Dict.get?_erase] at before
          split at before
          · cases before
          · next apart => rwa [Dict.get?_insert_of_ne _ _ apart] at before

/-- The bound on the pages that the store gives is large enough for the reading of its rows. -/
theorem drain_of_reads {s s₁ s' : Store} {c : CursorRead} {rows : List Json}
    {sent : List Request} {outcome : Except Error (List Json)}
    (batch : rows.length ≤ s₁.batchSize ∨ 0 < s₁.batchSize)
    (answered : Store.server.answer s c.request =
      (.answered (responseTo (s₁.page rows s₁.batchSize).1), (s₁.page rows s₁.batchSize).2))
    (reads : Store.server.Reads s c sent outcome s')
    (count : sent.length = pageCount s₁.batchSize rows.length) :
    Store.server.drain s c = ⟨outcome, s', sent, []⟩ := by
  refine reads.drain_eq ?_
  rw [count]
  rcases receive_page answered with ⟨fits, _⟩ | ⟨id, _, longer, _, cursors, _⟩
  · rw [pageCount_of_le fits]
    exact Nat.succ_le_succ (Nat.zero_le _)
  · have left : (rows.drop s₁.batchSize).length ≤ _ :=
      length_le_pagesLeft (cursors ▸ Dict.get?_insert_self _ id _)
    rw [pageCount_of_lt (batch.resolve_left (Nat.not_le.mpr longer)) longer]
    rw [List.length_drop] at left
    exact Nat.succ_le_succ (Nat.le_trans (pageCount_le _ _) (Nat.succ_le_succ left))

/-! ### Queries -/

section

variable {s : Store} {database : Option String} {aql : String} {bindVars : Dict Json}
  {transaction : Option Transaction}

/-- The request that starts the reading of a query. -/
def startRequest (database : Option String) (aql : String) (bindVars : Dict Json)
    (transaction : Option Transaction) : Request :=
  (CursorRead.start database aql bindVars transaction).request

/-- The store that runs a query has noted the request and the query. -/
def noteQuery (s : Store) (r : Request) (aql : String) : Store :=
  { s.noteRequest r with queries := s.queries ++ [aql] }

theorem sameData_noteQuery (s : Store) (r : Request) (aql : String) :
    SameData s (s.noteQuery r aql) :=
  ⟨rfl, rfl, rfl, rfl, Nat.le_refl _⟩

/-- The first page of what a query led to. -/
def firstPage (size : Nat) : Served (List Json) → Served Response
  | (.error refusal, s) => (.error refusal, s)
  | (.ok rows, s) => s.page rows size

theorem openCursor_eq (s : Store) (r : Request) (aql : String) (bindVars : Dict Json) :
    s.openCursor r (.obj ⟨[("bindVars", .obj bindVars), ("query", .str aql)]⟩) =
      firstPage s.batchSize ({ s with queries := s.queries ++ [aql] }.runQuery r aql bindVars) :=
  rfl

theorem answer_startRequest (database : Option String) (aql : String) (bindVars : Dict Json)
    (opened : s.Opened transaction) :
    Store.server.answer s (startRequest database aql bindVars transaction) =
      let served := firstPage s.batchSize
        ((s.noteQuery (startRequest database aql bindVars transaction) aql).runQuery
          (startRequest database aql bindVars transaction) aql bindVars)
      (.answered (responseTo served.1), served.2) := by
  have body : (startRequest database aql bindVars transaction).body =
      some (.obj ⟨[("bindVars", .obj bindVars), ("query", .str aql)]⟩) := by
    cases transaction <;> rfl
  have answered := answer_of_route (r := startRequest database aql bindVars transaction)
    (opened.knows (transaction_request (.start database aql bindVars transaction)))
    (route_of_start (c := .start database aql bindVars transaction) rfl)
  rw [answered, body, Option.getD_some, perform, openCursor_eq]
  rfl

/-- The rows of a query that the store can run are read to their end. -/
theorem reads_query {s₁ : Store} {rows : List Json} (opened : s.Opened transaction)
    (batch : rows.length ≤ s.batchSize ∨ 0 < s.batchSize)
    (run : (s.noteQuery (startRequest database aql bindVars transaction) aql).runQuery
      (startRequest database aql bindVars transaction) aql bindVars = (.ok rows, s₁))
    (batchKept : s₁.batchSize = s.batchSize) (openedKept : s₁.Opened transaction) :
    ∃ sent s', Store.server.Reads s (.start database aql bindVars transaction) sent (.ok rows) s' ∧
      Store.server.drain s (.start database aql bindVars transaction) = ⟨.ok rows, s', sent, []⟩ ∧
      sent.length = pageCount s.batchSize rows.length ∧ SameData s₁ s' ∧ s₁.LeavesNoCursor s' := by
  have answered := answer_startRequest database aql bindVars opened
  rw [run, ← batchKept] at answered
  rw [← batchKept] at batch ⊢
  obtain ⟨sent, s', reads, count, rest⟩ :=
    reads_rows (c := .start database aql bindVars transaction) openedKept batch answered
  exact ⟨sent, s', reads, drain_of_reads batch answered reads count, count, rest⟩

/-- A query that the store can run ends with its rows. -/
theorem ends_runCursor_ok {s₁ : Store} {rows : List Json} (opened : s.Opened transaction)
    (batch : 0 < s.batchSize) (run : (s.noteQuery (startRequest database aql bindVars transaction)
      aql).runQuery (startRequest database aql bindVars transaction) aql bindVars = (.ok rows, s₁))
    (batchKept : s₁.batchSize = s.batchSize) (openedKept : s₁.Opened transaction) :
    ∃ s', (Exchange.runCursor database aql bindVars transaction).Ends Store.server s (.ok rows) s' ∧
      SameData s₁ s' := by
  obtain ⟨_, s', _, drained, _, same, _⟩ :=
    reads_query opened (Or.inr batch) run batchKept openedKept
  exact ⟨s', Exchange.ends_runCursor_iff.mpr (by rw [drained]; exact ⟨rfl, rfl⟩), same⟩

/-- A reading that is refused at its start is at its end. -/
theorem reads_refused {s₁ : Store} {refusal : Refusal}
    (answered : Store.server.answer s (startRequest database aql bindVars transaction) =
      (.answered refusal.response, s₁)) :
    Store.server.Reads s (.start database aql bindVars transaction)
        [startRequest database aql bindVars transaction]
        (.error (.store refusal.status refusal.number refusal.message)) s₁ ∧
      Store.server.drain s (.start database aql bindVars transaction) =
        ⟨.error (.store refusal.status refusal.number refusal.message), s₁,
          [startRequest database aql bindVars transaction], []⟩ := by
  have result : (Reply.answered refusal.response).result =
      .error (.store refusal.status refusal.number refusal.message) :=
    Response.result_refusal refusal
  have received : (CursorRead.start database aql bindVars transaction).receive
      (Store.server.answer s (startRequest database aql bindVars transaction)).1 =
        .finished (.error (.store refusal.status refusal.number refusal.message)) := by
    rw [answered, CursorRead.receive, result]
  have state : (Store.server.answer s
      (CursorRead.start database aql bindVars transaction).request).2 = s₁ :=
    congrArg Prod.snd answered
  have reads := Server.Reads.finished received
  rw [state] at reads
  exact ⟨reads, reads.drain_eq (Nat.succ_le_succ (Nat.zero_le _))⟩

/-- A query that the store refuses ends with the error of the refusal. -/
theorem ends_runCursor_error {s₁ : Store} {refusal : Refusal} (opened : s.Opened transaction)
    (run : (s.noteQuery (startRequest database aql bindVars transaction)
      aql).runQuery (startRequest database aql bindVars transaction) aql bindVars =
        (.error refusal, s₁)) :
    (Exchange.runCursor database aql bindVars transaction).Ends Store.server s
      (.error (.store refusal.status refusal.number refusal.message)) s₁ := by
  have answered := answer_startRequest database aql bindVars opened
  rw [run] at answered
  rw [Exchange.ends_runCursor_iff, (reads_refused answered).2]
  exact ⟨rfl, rfl⟩

end

end Store

end DocStore
