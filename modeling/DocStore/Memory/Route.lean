/-
Module: DocStore.Memory.Route
Purpose: what a request asks of the store, read off its method and path.
Main exports:
  Route, Route.of?
-/
import DocStore.Exchange.Message
import DocStore.Text.Scan

namespace DocStore

/-- What a request asks for. -/
inductive Route where
  | createCollection
  | showCollection (name : String)
  | changeCollection (name : String)
  | renameCollection (name : String)
  | dropCollection (name : String)
  | createIndex
  | listIndexes
  | dropIndex (collection number : String)
  | createView
  | showView (name : String)
  | changeView (name : String)
  | renameView (name : String)
  | dropView (name : String)
  | createAnalyzer
  | showAnalyzer (name : String)
  | dropAnalyzer (name : String)
  | insertDocument (collection : String)
  | showDocument (collection key : String)
  | changeDocument (collection key : String)
  | removeDocument (collection key : String)
  | openCursor
  | readCursor (id : String)
  | beginTransaction
  | commitTransaction (id : String)
  | abortTransaction (id : String)
deriving DecidableEq, Repr

namespace Route

/-- What a request to read asks for. -/
def ofGet? : List String → Option Route
  | ["collection", name] => some (.showCollection name)
  | ["collection", name, "properties"] => some (.showCollection name)
  | ["index"] => some .listIndexes
  | ["view", name] => some (.showView name)
  | ["view", name, "properties"] => some (.showView name)
  | ["analyzer", name] => some (.showAnalyzer name)
  | ["document", collection, key] => some (.showDocument collection key)
  | _ => none

/-- What a request to make something asks for. -/
def ofPost? : List String → Option Route
  | ["collection"] => some .createCollection
  | ["index"] => some .createIndex
  | ["view"] => some .createView
  | ["analyzer"] => some .createAnalyzer
  | ["document", collection] => some (.insertDocument collection)
  | ["cursor"] => some .openCursor
  | ["cursor", id] => some (.readCursor id)
  | ["transaction", "begin"] => some .beginTransaction
  | _ => none

/-- What a request to put something in place asks for. -/
def ofPut? : List String → Option Route
  | ["collection", name, "properties"] => some (.changeCollection name)
  | ["collection", name, "rename"] => some (.renameCollection name)
  | ["view", name, "rename"] => some (.renameView name)
  | ["cursor", id] => some (.readCursor id)
  | ["transaction", id] => some (.commitTransaction id)
  | _ => none

/-- What a request to change something asks for. -/
def ofPatch? : List String → Option Route
  | ["view", name, "properties"] => some (.changeView name)
  | ["document", collection, key] => some (.changeDocument collection key)
  | _ => none

/-- What a request to remove something asks for. -/
def ofDelete? : List String → Option Route
  | ["collection", name] => some (.dropCollection name)
  | ["index", collection, number] => some (.dropIndex collection number)
  | ["view", name] => some (.dropView name)
  | ["analyzer", name] => some (.dropAnalyzer name)
  | ["document", collection, key] => some (.removeDocument collection key)
  | ["transaction", id] => some (.abortTransaction id)
  | _ => none

/-- What a request asks for, if the store knows it. -/
def of? (r : Request) : Option Route :=
  let segments := Text.splitAt '/' r.path
  match r.method with
  | .get => ofGet? segments
  | .post => ofPost? segments
  | .put => ofPut? segments
  | .patch => ofPatch? segments
  | .delete => ofDelete? segments

end Route

end DocStore
