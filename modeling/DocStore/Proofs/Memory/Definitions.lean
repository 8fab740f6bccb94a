/-
Module: DocStore.Proofs.Memory.Definitions
Purpose: requests that change the definitions in a database: what each does when what it asks
  for can be done, and how it is answered.
Main exports:
  Store.answer_of_change, Store.ends_command_of_made, Store.ends_command_of_refused,
  Store.ends_command_cases, Store.change_of_ends_command
-/
import DocStore.Proofs.Memory.Untouched

namespace DocStore

namespace Database

/-- A new collection takes a name that is free. -/
theorem createCollection_eq (db : Database) {fields : Dict Json} {name : String}
    (named : (Json.obj fields).field "name" = .str name) (nonempty : name.isEmpty = false) :
    db.createCollection (.obj fields) =
      if db.nameTaken name then .error (.nameTaken name)
      else .ok (answered 200 (.obj (newProperties fields)),
        db.putCollection name { properties := newProperties fields }) := by
  simp only [createCollection, objectBody, nameIn, named, Json.text?, Bind.bind, Except.bind,
    nonempty, freshName, Bool.false_eq_true, if_false]
  cases db.nameTaken name <;> rfl

theorem get?_newProperties_of_ne (fields : Dict Json) {key : String} (noType : key ≠ "type")
    (noSchema : key ≠ "schema") : (newProperties fields).get? key = fields.get? key := by
  rw [newProperties, Dict.get?_insertNew_of_ne _ _ noSchema, Dict.get?_insertNew_of_ne _ _ noType]

end Database

namespace Store

variable {s : Store} {r : Request} {route : Route} {change : Database → Change}

/-- How a request that concerns definitions is answered, outside of transactions. -/
theorem answer_of_change (outside : r.transaction = none) (routed : Route.of? r = some route)
    (is : route.change? r (r.body.getD .null) = some change) :
    Store.server.answer s r =
      (.answered (responseTo ((s.noteRequest r).serveChange (s.databaseOf r) change).1),
        ((s.noteRequest r).serveChange (s.databaseOf r) change).2) := by
  rw [answer_of_route (knowsTransaction_none outside) routed, perform_of_change is]
  rfl

/-- A change of definitions that is made puts the changed database in place. -/
theorem answer_of_made {response : Response} {db : Database} (outside : r.transaction = none)
    (routed : Route.of? r = some route) (is : route.change? r (r.body.getD .null) = some change)
    (made : change (s.database (s.databaseOf r)) = .ok (response, db)) :
    Store.server.answer s r =
      (.answered response, (s.noteRequest r).putDatabase (s.databaseOf r) db) := by
  have kept : change ((s.noteRequest r).database (s.databaseOf r)) = .ok (response, db) := made
  rw [answer_of_change outside routed is, serveChange, kept]
  rfl

/-- A change of definitions that is refused leaves the store. -/
theorem answer_of_refused {refusal : Refusal} (outside : r.transaction = none)
    (routed : Route.of? r = some route) (is : route.change? r (r.body.getD .null) = some change)
    (refused : change (s.database (s.databaseOf r)) = .error refusal) :
    Store.server.answer s r = (.answered refusal.response, s.noteRequest r) := by
  have kept : change ((s.noteRequest r).database (s.databaseOf r)) = .error refusal := refused
  rw [answer_of_change outside routed is, serveChange, kept]
  rfl

/-- A change of definitions that is refused ends with the error of the refusal. -/
theorem ends_command_of_refused {refusal : Refusal} (outside : r.transaction = none)
    (routed : Route.of? r = some route)
    (is : route.change? r (r.body.getD .null) = some change)
    (refused : change (s.database (s.databaseOf r)) = .error refusal) :
    (Exchange.command r).Ends Store.server s
      (.error (.store refusal.status refusal.number refusal.message)) (s.noteRequest r) := by
  have kept : change ((s.noteRequest r).database (s.databaseOf r)) = .error refusal := refused
  apply ends_command_refused
  rw [answer_of_change outside routed is, serveChange, kept]
  rfl

/-- A change of definitions that is made ends well, unless its answer reports an
error all the same. -/
theorem ends_command_of_made {response : Response} {db : Database} {body : Json}
    (outside : r.transaction = none) (routed : Route.of? r = some route)
    (is : route.change? r (r.body.getD .null) = some change)
    (made : change (s.database (s.databaseOf r)) = .ok (response, db))
    (success : response.result = .ok body) :
    (Exchange.command r).Ends Store.server s (.ok ())
      ((s.noteRequest r).putDatabase (s.databaseOf r) db) := by
  have kept : change ((s.noteRequest r).database (s.databaseOf r)) = .ok (response, db) := made
  apply ends_command_answered _ success
  rw [answer_of_change outside routed is, serveChange, kept]
  rfl

/-- Something that is shown is the value of the request. -/
theorem ends_request_of_made {response : Response} {db : Database} {body : Json}
    (outside : r.transaction = none) (routed : Route.of? r = some route)
    (is : route.change? r (r.body.getD .null) = some change)
    (made : change (s.database (s.databaseOf r)) = .ok (response, db))
    (success : response.result = .ok body) :
    (Exchange.request r).Ends Store.server s (.ok body)
      ((s.noteRequest r).putDatabase (s.databaseOf r) db) := by
  have kept : change ((s.noteRequest r).database (s.databaseOf r)) = .ok (response, db) := made
  rw [Exchange.ends_request_iff, answer_of_change outside routed is, serveChange, kept]
  exact ⟨success.symm, rfl⟩

/-- A change of definitions is refused, which leaves the store, or the changed database is put in
place and the outcome is what its answer reports. -/
theorem ends_command_cases {s' : Store} {outcome : Except Error Unit}
    (outside : r.transaction = none) (routed : Route.of? r = some route)
    (is : route.change? r (r.body.getD .null) = some change)
    (ends : (Exchange.command r).Ends Store.server s outcome s') :
    (∃ refusal, change (s.database (s.databaseOf r)) = .error refusal ∧
        outcome = .error (.store refusal.status refusal.number refusal.message) ∧
        s' = s.noteRequest r) ∨
      ∃ response db, change (s.database (s.databaseOf r)) = .ok (response, db) ∧
        outcome = response.result.map (fun _ => ()) ∧
        s' = (s.noteRequest r).putDatabase (s.databaseOf r) db := by
  cases made : change (s.database (s.databaseOf r)) with
  | error refusal =>
      obtain ⟨failed, same⟩ := ends.unique (ends_command_of_refused outside routed is made)
      exact Or.inl ⟨refusal, rfl, failed, same⟩
  | ok result =>
      obtain ⟨response, db⟩ := result
      rw [Exchange.ends_command_iff, answer_of_made outside routed is made] at ends
      exact Or.inr ⟨response, db, rfl, ends.1, ends.2⟩

/-- A change of definitions that ended well was made, and the answer to it is a
success. -/
theorem change_of_ends_command {s' : Store} (outside : r.transaction = none)
    (routed : Route.of? r = some route)
    (is : route.change? r (r.body.getD .null) = some change)
    (ends : (Exchange.command r).Ends Store.server s (.ok ()) s') :
    ∃ response db body, change (s.database (s.databaseOf r)) = .ok (response, db) ∧
      response.result = .ok body ∧
      s' = (s.noteRequest r).putDatabase (s.databaseOf r) db := by
  rcases ends_command_cases outside routed is ends with
    ⟨refusal, _, failed, _⟩ | ⟨response, db, made, outcome, reached⟩
  · cases failed
  · cases success : response.result with
    | error e =>
        rw [success] at outcome
        cases outcome
    | ok body => exact ⟨response, db, body, made, success, reached⟩

theorem answer_of_noRoute (outside : r.transaction = none) (unknown : Route.of? r = none) :
    Store.server.answer s r =
      (.answered (Refusal.noRoute r.method r.path).response, s.noteRequest r) := by
  change answer s r = _
  simp only [answer, serve, knowsTransaction_none outside, unknown]
  rfl

/-- A request without a route is refused. -/
theorem ends_command_of_noRoute (outside : r.transaction = none) (unknown : Route.of? r = none) :
    (Exchange.command r).Ends Store.server s
      (.error (.store 404 404 ("unknown route " ++ r.method.word ++ " " ++ r.path)))
      (s.noteRequest r) :=
  ends_command_refused (answer_of_noRoute outside unknown)

end Store

end DocStore
