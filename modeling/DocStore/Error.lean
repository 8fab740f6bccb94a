/-
Module: DocStore.Error
Purpose: every way in which an operation of the library can fail, and its wording.
Main exports:
  Error, Error.message, Error.number?, Error.isConflict, Error.isNotFound
-/
import DocStore.DocumentId
import DocStore.Definition.Fault
import DocStore.Query.Fault

namespace DocStore

/-! ### Numbers of store errors -/

namespace StoreError

/-- No such document. -/
def documentNotFound : Int := 1202

/-- No such collection or view. -/
def dataSourceNotFound : Int := 1203

/-- The name is taken. -/
def duplicateName : Int := 1207

/-- The key is taken. -/
def uniqueConstraintViolated : Int := 1210

/-- No such index. -/
def indexNotFound : Int := 1212

end StoreError

/-- What is wrong with data on its way in or out. -/
inductive DataFault where
  /-- No candidate type has all its fields among the keys. -/
  | noType (keys : List String)
  /-- A bookkeeping row without a version. -/
  | bookkeepingRow (row : Json)
  | primaryKey (field : String) (value : Json)
  | edgeEnd (edge side : String)
  /-- A result row that is not an array. -/
  | notRow (columns : Nat) (value : Json)
  | rowLength (columns values : Nat)
  | migrationName (name : String)
  | migrationFile (path : String)
  /-- A failure that a caller declares. -/
  | declared (text : String)

/-- The wording of a data fault.  The details of a malformed file are left to its
reader. -/
def DataFault.message : DataFault → String
  | noType keys => "no type matches fields " ++ Text.inspectList (keys.map Text.inspect)
  | bookkeepingRow row => "malformed bookkeeping row " ++ row.render
  | primaryKey field value =>
      "primary key `" ++ field ++ "` must be a string or number, got " ++ value.render
  | edgeEnd edge side =>
      "edge `" ++ edge ++ "` requires `" ++ side ++ "` as a document id"
  | notRow columns value =>
      "expected a result array of " ++ toString columns ++ " values, got " ++ value.render
  | rowLength columns values =>
      "expected " ++ toString columns ++ " values per row, got " ++ toString values
  | migrationName name => "migration name `" ++ name ++ "` must be lower-case with underscores"
  | migrationFile path => "invalid migration file " ++ path
  | declared text => text

/-- What can go wrong between a request and the use of its answer. -/
inductive TransportFault where
  /-- No answer came. -/
  | lost (context message : String)
  | noResultArray (page : Json)
  | noCursorId
  | noTransactionId (body : Json)
  | noDocumentKey (collection : String) (body : Json)
  /-- The body of an answer is not JSON. -/
  | malformedBody (context : String) (status : Nat)

namespace TransportFault

/-- What was going on. -/
def context : TransportFault → String
  | lost context _ => context
  | noResultArray _ => "cursor"
  | noCursorId => "cursor"
  | noTransactionId _ => "transaction/begin"
  | noDocumentKey collection _ => "document/" ++ collection
  | malformedBody context _ => context

/-- What went wrong. -/
def message : TransportFault → String
  | lost _ message => message
  | noResultArray page => "cursor response carries no result array: " ++ page.render
  | noCursorId => "response reports more rows but carries no cursor id"
  | noTransactionId body => "missing transaction id in " ++ body.render
  | noDocumentKey _ body => "insert response without `_key`: " ++ body.render
  | malformedBody _ status => "malformed response body (HTTP " ++ toString status ++ ")"

end TransportFault

/-- Why migrations may not run in an order. -/
inductive OrderFault where
  | outdated (version : Int) (name : String) (latest : Int)
  | repeatedVersion (version : Int)
  | repeatedName (name : String)
deriving DecidableEq, Repr

/-- The wording of an order fault. -/
def OrderFault.message : OrderFault → String
  | outdated version name latest =>
      "migration " ++ toString version ++ " (" ++ name ++
        ") is older than the latest applied version " ++ toString latest ++
        "; rolling back later may revert the wrong migration"
  | repeatedVersion version =>
      "migrations can't be executed, version " ++ toString version ++ " is duplicated"
  | repeatedName name => "migrations can't be executed, name " ++ name ++ " is duplicated"

/-- A command that has no inverse: what it does, and its description. -/
structure IrreversibleFault where
  action : String
  command : String
deriving DecidableEq, Repr

/-- The wording of a command without inverse. -/
def IrreversibleFault.message (f : IrreversibleFault) : String :=
  f.action ++ " cannot be reversed automatically, define `down` explicitly (" ++ f.command ++ ")"

/-- What can go wrong with a file. -/
inductive FileFault where
  | notText
deriving DecidableEq, Repr

/-- The wording of a file fault. -/
def FileFault.message : FileFault → String
  | notText => "stream did not contain valid UTF-8"

/-- Why an operation failed. -/
inductive Error where
  | compile (fault : CompileFault) (summary : String)
  | schema (fault : SchemaFault)
  | store (status : Nat) (number : Int) (message : String)
  | order (fault : OrderFault)
  | irreversible (fault : IrreversibleFault)
  | format (fault : IdFault)
  | transport (fault : TransportFault)
  | query (text : String) (params : List Json) (cause : Error)
  | validation (fault : DataFault)
  | file (fault : FileFault)

namespace Error

/-- The wording of an error. -/
def message : Error → String
  | compile fault summary => "compile error: " ++ fault.message ++ " (query: " ++ summary ++ ")"
  | schema fault => "schema validation error: " ++ fault.message
  | store status number message =>
      "store error " ++ toString number ++ " (HTTP " ++ toString status ++ "): " ++ message
  | order fault => "migration order error: " ++ fault.message
  | irreversible fault => "irreversible migration: " ++ fault.message
  | format fault => "invalid identifier format: " ++ fault.message
  | transport fault => "transport error (" ++ fault.context ++ "): " ++ fault.message
  | query text params cause =>
      "query failed: " ++ cause.message ++ " (query: " ++ text ++ ", params: " ++
        Text.inspectList (params.map Json.inspect) ++ ")"
  | validation fault => "validation error: " ++ fault.message
  | file fault => "I/O error: " ++ fault.message

/-- The number that the store gave to the error, also of a query that it refused. -/
def number? : Error → Option Int
  | store _ number _ => some number
  | query _ _ cause => cause.number?
  | _ => none

/-- Whether the store reported that a name is taken. -/
def isConflict (e : Error) : Bool :=
  e.number? == some StoreError.duplicateName

/-- Whether the store reported that something does not exist. -/
def isNotFound (e : Error) : Bool :=
  e.number? == some StoreError.dataSourceNotFound ||
    e.number? == some StoreError.documentNotFound ||
    e.number? == some StoreError.indexNotFound

end Error

end DocStore
