/-
Module: DocStore.Memory.Store
Purpose: a store in memory that answers requests: databases, stream transactions, cursors
  and a log of what was asked.
Main exports:
  Store, Store.answer, Store.server, Store.documents, Store.openTransactions
-/
import DocStore.Memory.Documents
import DocStore.Memory.Route
import DocStore.Exchange.Server

namespace DocStore

/-- An open transaction: its database, the collections that it may write to, and
how its writes are taken back, the latest first. -/
structure OpenTransaction where
  database : String
  write : List String
  undo : List Undo := []

/-- A store in memory.  `home` is the database of requests that name none;
`revisions` and `names` count the revisions and the names that it has given. -/
structure Store where
  home : String := "_system"
  batchSize : Nat := 1000
  databases : Dict Database := {}
  transactions : Dict OpenTransaction := {}
  cursors : Dict (List Json) := {}
  requests : List String := []
  queries : List String := []
  revisions : Nat := 0
  names : Nat := 0

/-- What serving a request leads to: an answer or a refusal, and the store
afterwards. -/
abbrev Served (α : Type) := Except Refusal α × Store

/-- A number in hexadecimal digits, with zeros in front up to 32 digits. -/
def hexName (n : Nat) : String :=
  let digits := Nat.toDigits 16 n
  String.ofList (List.replicate (32 - digits.length) '0' ++ digits)

namespace Store

/-- The database of a name.  One that was never used is empty. -/
def database (s : Store) (name : String) : Database :=
  (s.databases.get? name).getD {}

/-- Put a database under a name. -/
def putDatabase (s : Store) (name : String) (db : Database) : Store :=
  { s with databases := s.databases.insert name db }

/-- The database that a request is addressed to. -/
def databaseOf (s : Store) (r : Request) : String :=
  r.database.getD s.home

/-- Give a revision. -/
def takeRevision (s : Store) : String × Store :=
  let n := s.revisions + 1
  ("_rev" ++ toString n, { s with revisions := n })

/-- Give a name. -/
def takeName (s : Store) : String × Store :=
  let n := s.names + 1
  (hexName n, { s with names := n })

/-- Serve a request that concerns the definitions in one database. -/
def serveChange (s : Store) (database : String) (change : Database → Change) : Served Response :=
  match change (s.database database) with
  | .ok (response, db) => (.ok response, s.putDatabase database db)
  | .error refusal => (.error refusal, s)

/-! ### Documents -/

/-- Whether a request may write to a collection: outside of transactions, or if
its transaction has declared the collection. -/
def permitWrite (s : Store) (r : Request) (collection : String) : Except Refusal Unit :=
  match r.transaction.bind s.transactions.get? with
  | none => .ok ()
  | some t => if t.write.contains collection then .ok () else .error (.undeclared collection)

/-- Note how a write is taken back, if the request belongs to a transaction. -/
def noteUndo (s : Store) (r : Request) (undo : Undo) : Store :=
  match r.transaction with
  | none => s
  | some id =>
      { s with transactions := s.transactions.modify id fun t => { t with undo := undo :: t.undo } }

/-- Put a collection of a database in place. -/
def putCollection (s : Store) (database name : String) (c : StoredCollection) : Store :=
  s.putDatabase database ((s.database database).putCollection name c)

/-- The key of a new document: the one that it gives, or a name of the store. -/
def keyFor (s : Store) (fields : Dict Json) : String × Store :=
  match (Document.value fields "_key").text? with
  | some key => (key, s)
  | none => s.takeName

/-- Insert a document. -/
def insertDocument (s : Store) (r : Request) (collection : String) (body : Json) :
    Served Response :=
  match Database.objectBody "document body" body, s.permitWrite r collection with
  | .error refusal, _ => (.error refusal, s)
  | .ok _, .error refusal => (.error refusal, s)
  | .ok fields, .ok () =>
      let database := s.databaseOf r
      let (revision, s) := s.takeRevision
      match (s.database database).collection collection with
      | .error refusal => (.error refusal, s)
      | .ok c =>
          let (key, s) := s.keyFor fields
          match c.insertDocument collection key revision fields with
          | .error refusal => (.error refusal, s)
          | .ok (d, c) =>
              (.ok (answered 201
                (.obj ((Dict.ofList (StoredCollection.header d)).insert "new" (.obj d)))),
                (s.putCollection database collection c).noteUndo r (.remove collection key))

/-- The document of a collection with a key. -/
def findDocument (s : Store) (database collection key : String) :
    Except Refusal (StoredCollection × Document) := do
  let c ← (s.database database).collection collection
  match c.document? key with
  | some d => .ok (c, d)
  | none => .error (.noDocument collection key)

/-- Show a document. -/
def showDocument (s : Store) (r : Request) (collection key : String) : Served Response :=
  match s.findDocument (s.databaseOf r) collection key with
  | .ok (_, d) => (.ok (answered 200 (.obj d)), s)
  | .error refusal => (.error refusal, s)

/-- Overwrite attributes of a document. -/
def changeDocument (s : Store) (r : Request) (collection key : String) (body : Json) :
    Served Response :=
  match s.permitWrite r collection with
  | .error refusal => (.error refusal, s)
  | .ok () =>
      let database := s.databaseOf r
      let (revision, s) := s.takeRevision
      match s.findDocument database collection key with
      | .error refusal => (.error refusal, s)
      | .ok (c, old) =>
          let new := StoredCollection.changed old revision body
          (.ok (answered 202
            (.obj ((Dict.ofList (StoredCollection.header new)).insert "new" (.obj new)))),
            (s.putCollection database collection (c.changeDocument key new)).noteUndo r
              (.restore collection old))

/-- Remove a document. -/
def removeDocument (s : Store) (r : Request) (collection key : String) : Served Response :=
  match s.permitWrite r collection with
  | .error refusal => (.error refusal, s)
  | .ok () =>
      let database := s.databaseOf r
      match s.findDocument database collection key with
      | .error refusal => (.error refusal, s)
      | .ok (c, old) =>
          (.ok (answered 202 (.obj (.ofList (StoredCollection.header old)))),
            (s.putCollection database collection (c.removeDocument key)).noteUndo r
              (.restore collection old))

/-! ### Queries -/

/-- Remove the documents that a query found. -/
def removeFound (s : Store) (r : Request) (collection : String) (c : StoredCollection)
    (found : List Document) : Store :=
  found.foldl (fun s d => s.noteUndo r (.restore collection d))
    (s.putCollection (s.databaseOf r) collection (c.removeAll found))

/-- Run a query.  It may turn out only after a removal that what it returns is
not supported. -/
def runStatement (s : Store) (r : Request) (aql : String) (q : Statement) : Served (List Json) :=
  let permitted := if q.effect = .removal then s.permitWrite r q.collection else .ok ()
  match permitted, (s.database (s.databaseOf r)).collection q.collection with
  | .error refusal, _ => (.error refusal, s)
  | .ok (), .error refusal => (.error refusal, s)
  | .ok (), .ok c =>
      let found := q.found c.documents
      match q.effect with
      | .reading => (q.rows aql found, s)
      | .removal => (q.rows aql found, s.removeFound r q.collection c found)
      | .update => (.error (.unsupportedQuery aql), s)

/-- Run the text of a query. -/
def runQuery (s : Store) (r : Request) (aql : String) (bindVars : Dict Json) :
    Served (List Json) :=
  match Statement.read? aql bindVars with
  | none => (.error (.unsupportedQuery aql), s)
  | some q => s.runStatement r aql q

/-- Hand out the first rows, and keep the others under the name of a cursor. -/
def page (s : Store) (rows : List Json) (batch : Nat) : Served Response :=
  if rows.length ≤ batch then
    (.ok (answered 201 (.obj ⟨[("hasMore", .bool false), ("result", .arr rows)]⟩)), s)
  else
    let (id, s) := s.takeName
    (.ok (answered 201 (.obj ⟨[("hasMore", .bool true), ("id", .str id),
      ("result", .arr (rows.take batch))]⟩)),
      { s with cursors := s.cursors.insert id (rows.drop batch) })

/-- Run a query and hand out its first rows. -/
def openCursor (s : Store) (r : Request) (body : Json) : Served Response :=
  match (body.field "query").text? with
  | none => (.error (.lacking "query"), s)
  | some aql =>
      let bindVars := (body.field "bindVars").members?.getD {}
      let batch := (body.field "batchSize").natural?.getD s.batchSize
      match { s with queries := s.queries ++ [aql] }.runQuery r aql bindVars with
      | (.error refusal, s) => (.error refusal, s)
      | (.ok rows, s) => s.page rows batch

/-- Hand out the next rows of a cursor. -/
def readCursor (s : Store) (id : String) : Served Response :=
  match s.cursors.get? id with
  | none => (.error (.noCursor id), s)
  | some rows => { s with cursors := s.cursors.erase id }.page rows s.batchSize

/-! ### Transactions -/

/-- The collections that a transaction declares to write to. -/
def declaredWrites (body : Json) : List String :=
  match (body.field "collections").field "write" with
  | .str name => [name]
  | .arr names => names.filterMap Json.text?
  | _ => []

/-- The answer about a transaction. -/
def transactionAnswer (status : Nat) (id word : String) : Response :=
  answered status (.obj ⟨[("result", .obj ⟨[("id", .str id), ("status", .str word)]⟩)]⟩)

/-- Begin a transaction. -/
def beginTransaction (s : Store) (r : Request) (body : Json) : Served Response :=
  let database := s.databaseOf r
  let (id, s) := s.takeName
  (.ok (transactionAnswer 201 id "running"),
    { s with transactions :=
        s.transactions.insert id { database, write := declaredWrites body } })

/-- End a transaction and keep its writes. -/
def commitTransaction (s : Store) (id : String) : Served Response :=
  match s.transactions.get? id with
  | none => (.error (.noTransaction id), s)
  | some _ =>
      (.ok (transactionAnswer 200 id "committed"),
        { s with transactions := s.transactions.erase id })

/-- End a transaction and take its writes back, the latest first. -/
def abortTransaction (s : Store) (id : String) : Served Response :=
  match s.transactions.get? id with
  | none => (.error (.noTransaction id), s)
  | some t =>
      (.ok (transactionAnswer 200 id "aborted"),
        { s with transactions := s.transactions.erase id }.putDatabase t.database
          (t.undo.foldl Database.undo (s.database t.database)))

/-! ### Requests -/

/-- Do what a request asks for. -/
def perform (s : Store) (r : Request) (body : Json) : Route → Served Response
  | .createCollection => s.serveChange (s.databaseOf r) (·.createCollection body)
  | .showCollection name => s.serveChange (s.databaseOf r) (·.showCollection name)
  | .changeCollection name => s.serveChange (s.databaseOf r) (·.changeCollection name body)
  | .renameCollection name => s.serveChange (s.databaseOf r) (·.renameCollection name body)
  | .dropCollection name => s.serveChange (s.databaseOf r) (·.dropCollection name)
  | .createIndex => s.serveChange (s.databaseOf r) (·.createIndex r body)
  | .listIndexes => s.serveChange (s.databaseOf r) (·.listIndexes r)
  | .dropIndex collection number => s.serveChange (s.databaseOf r) (·.dropIndex collection number)
  | .createView => s.serveChange (s.databaseOf r) (·.createView body)
  | .showView name => s.serveChange (s.databaseOf r) (·.showView name)
  | .changeView name => s.serveChange (s.databaseOf r) (·.changeView name body)
  | .renameView name => s.serveChange (s.databaseOf r) (·.renameView name body)
  | .dropView name => s.serveChange (s.databaseOf r) (·.dropView name)
  | .createAnalyzer => s.serveChange (s.databaseOf r) (·.createAnalyzer body)
  | .showAnalyzer name => s.serveChange (s.databaseOf r) (·.showAnalyzer name)
  | .dropAnalyzer name => s.serveChange (s.databaseOf r) (·.dropAnalyzer name)
  | .insertDocument collection => s.insertDocument r collection body
  | .showDocument collection key => s.showDocument r collection key
  | .changeDocument collection key => s.changeDocument r collection key body
  | .removeDocument collection key => s.removeDocument r collection key
  | .openCursor => s.openCursor r body
  | .readCursor id => s.readCursor id
  | .beginTransaction => s.beginTransaction r body
  | .commitTransaction id => s.commitTransaction id
  | .abortTransaction id => s.abortTransaction id

/-- Whether a request belongs to no transaction or to an open one. -/
def knowsTransaction (s : Store) (r : Request) : Except Refusal Unit :=
  match r.transaction with
  | none => .ok ()
  | some id => if s.transactions.contains id then .ok () else .error (.noTransaction id)

/-- Serve a request.  Its transaction is looked up before anything else. -/
def serve (s : Store) (r : Request) : Served Response :=
  match s.knowsTransaction r with
  | .error refusal => (.error refusal, s)
  | .ok () =>
      match Route.of? r with
      | none => (.error (.noRoute r.method r.path), s)
      | some route => s.perform r (r.body.getD .null) route

/-- Note a request. -/
def noteRequest (s : Store) (r : Request) : Store :=
  { s with requests := s.requests ++ [r.method.word ++ " " ++ r.fullPath s.home] }

/-- The response to what was served or refused. -/
def responseTo : Except Refusal Response → Response
  | .ok response => response
  | .error refusal => refusal.response

/-- Answer a request. -/
def answer (s : Store) (r : Request) : Reply × Store :=
  let served := (s.noteRequest r).serve r
  (.answered (responseTo served.1), served.2)

/-- The store as a server.  A cursor hands out at least one row per page. -/
def server : Server Store where
  answer := answer
  pagesLeft s := s.cursors.values.foldl (fun n rows => n + rows.length) 0

/-! ### Inspection -/

/-- A database by its name, or the home database. -/
def inspected (s : Store) (name : Option String) : Database :=
  s.database (name.getD s.home)

/-- The properties of a collection. -/
def collectionProperties (s : Store) (database : Option String) (name : String) :
    Option (Dict Json) :=
  ((s.inspected database).collections.get? name).map (·.properties)

/-- The documents of a collection. -/
def documents (s : Store) (database : Option String) (name : String) : List Document :=
  match (s.inspected database).collections.get? name with
  | some c => c.documents
  | none => []

/-- The indexes of a collection. -/
def indexes (s : Store) (database : Option String) (name : String) : List (Dict Json) :=
  match (s.inspected database).collections.get? name with
  | some c => c.indexes
  | none => []

/-- A view. -/
def view (s : Store) (database : Option String) (name : String) : Option (Dict Json) :=
  (s.inspected database).views.get? name

/-- An analyzer. -/
def analyzer (s : Store) (database : Option String) (name : String) : Option Json :=
  (s.inspected database).analyzers.get? name

/-- How many transactions are open. -/
def openTransactions (s : Store) : Nat :=
  s.transactions.entries.length

/-- Forget which requests were made and which queries were run. -/
def clearRequests (s : Store) : Store :=
  { s with requests := [], queries := [] }

end Store

end DocStore
