/-
Module: DocStore.Migration.Command
Purpose: the commands of a migration, their inverses and their JSON form.
Main exports:
  Command, Command.describe, Command.withDefaultTenant, Command.reverse, Command.toJson,
  Command.read?
-/
import DocStore.Definition.Basic
import DocStore.Error

namespace DocStore

/-- A step of a migration. -/
inductive Command where
  | create (object : Definition)
  | createIfNotExists (object : Definition)
  | drop (object : Definition)
  | dropIfExists (object : Definition)
  | alterCollection (collection : Collection) (columns : List ColumnOp)
  | alterView (view : View) (changes : List ViewChange)
  | rename (source target : Definition)
  /-- A query sent as it is. -/
  | execute (aql : String)

namespace Command

/-- A short description. -/
def describe : Command → String
  | create o => "create " ++ o.kindWord ++ " " ++ o.name
  | createIfNotExists o => "create " ++ o.kindWord ++ " " ++ o.name ++ " if not exists"
  | drop o => "drop " ++ o.kindWord ++ " " ++ o.name
  | dropIfExists o => "drop " ++ o.kindWord ++ " " ++ o.name ++ " if exists"
  | alterCollection c _ => "alter collection " ++ c.name
  | alterView v _ => "alter view " ++ v.name
  | rename source target =>
      "rename " ++ source.kindWord ++ " " ++ source.name ++ " to " ++ target.name
  | execute aql => "execute " ++ aql

/-- Give every object of the command a database unless it declares one. -/
def withDefaultTenant (tenant : Option String) : Command → Command
  | create o => .create (o.withDefaultTenant tenant)
  | createIfNotExists o => .createIfNotExists (o.withDefaultTenant tenant)
  | drop o => .drop (o.withDefaultTenant tenant)
  | dropIfExists o => .dropIfExists (o.withDefaultTenant tenant)
  | alterCollection c columns => .alterCollection { c with tenant := c.tenant.or tenant } columns
  | alterView v changes => .alterView { v with tenant := v.tenant.or tenant } changes
  | rename source target =>
      .rename (source.withDefaultTenant tenant) (target.withDefaultTenant tenant)
  | execute aql => .execute aql

/-- The failure to invert a command. -/
def irreversible (command : Command) (action : String) : Error :=
  .irreversible ⟨action, command.describe⟩

/-- The change that takes back a change of a column; what is lost cannot be taken
back. -/
def reverseColumn (command : Command) : ColumnOp → Except Error ColumnOp
  | .add name _ _ => .ok (.remove name)
  | .rename source target => .ok (.rename target source)
  | .modify .. => .error (command.irreversible "modify column")
  | .remove _ => .error (command.irreversible "remove column")

/-- The changes that take back changes of columns, each in turn. -/
def reverseColumns (command : Command) : List ColumnOp → Except Error (List ColumnOp)
  | [] => .ok []
  | op :: ops => do
      let inverse ← command.reverseColumn op
      let inverses ← command.reverseColumns ops
      .ok (inverse :: inverses)

/-- The inverse of a command.  Columns are taken back from the last to the
first. -/
def reverse (command : Command) : Except Error Command :=
  match command with
  | create o => .ok (.drop o)
  | createIfNotExists o => .ok (.dropIfExists o)
  | drop o => .ok (.create o)
  | dropIfExists o => .ok (.createIfNotExists o)
  | rename source target => .ok (.rename target source)
  | alterCollection c columns =>
      (command.reverseColumns columns.reverse).map (.alterCollection c)
  | alterView .. => .error (command.irreversible "alter view")
  | execute _ => .error (command.irreversible "execute")

/-- The inverses of commands, each in turn. -/
def reverseAll : List Command → Except Error (List Command)
  | [] => .ok []
  | command :: rest => do
      let inverse ← command.reverse
      let inverses ← reverseAll rest
      .ok (inverse :: inverses)

/-! ### JSON form -/

/-- A value under the name of a kind of command. -/
def named (name : String) (value : Json) : Json :=
  .obj ⟨[(name, value)]⟩

/-- The JSON form, under the name of the kind of command. -/
def toJson : Command → Json
  | create o => named "create" o.toJson
  | createIfNotExists o => named "create_if_not_exists" o.toJson
  | drop o => named "drop" o.toJson
  | dropIfExists o => named "drop_if_exists" o.toJson
  | alterCollection c columns => named "alter_collection" (.obj ⟨[("collection", c.toJson),
      ("columns", .arr (ColumnOp.listToJson columns))]⟩)
  | alterView v changes => named "alter_view" (.obj ⟨[
      ("changes", .arr (changes.map ViewChange.toJson)), ("view", v.toJson)]⟩)
  | rename source target => named "rename" (.obj ⟨[("from", source.toJson),
      ("to", target.toJson)]⟩)
  | execute aql => named "execute" (.str aql)

/-- The fields of the JSON form of a change to a collection. -/
def alterCollectionFields : List String :=
  ["collection", "columns"]

/-- The fields of the JSON form of a change to a view. -/
def alterViewFields : List String :=
  ["view", "changes"]

/-- The fields of the JSON form of a renaming. -/
def renameFields : List String :=
  ["from", "to"]

/-- What is kept of the text of a command.  Definitions and changes carry tags, so
they are kept whole. -/
def outline : Json.Outline :=
  .choice [("alter_collection", .record alterCollectionFields [("collection", Collection.outline)]),
    ("alter_view", .record alterViewFields [("view", View.outline)]),
    ("rename", .record renameFields [])]

/-- Read the JSON form. -/
def read? (reading : Reading) (j : Json) : Option Command := do
  let (name, value) ← Choice.single? j
  if name = "create" then (Definition.read? reading value).map .create
  else if name = "create_if_not_exists" then
    (Definition.read? reading value).map .createIfNotExists
  else if name = "drop" then (Definition.read? reading value).map .drop
  else if name = "drop_if_exists" then (Definition.read? reading value).map .dropIfExists
  else if name = "alter_collection" then
    let r ← Choice.fields? alterCollectionFields reading value
    let collection ← r.required? "collection" (Collection.read? reading)
    let columns ← r.required? "columns" (ColumnOp.readList? reading)
    some (.alterCollection collection columns)
  else if name = "alter_view" then
    let r ← Choice.fields? alterViewFields reading value
    let view ← r.required? "view" (View.read? reading)
    let changes ← r.required? "changes" (Json.readList? (ViewChange.read? reading))
    some (.alterView view changes)
  else if name = "rename" then
    let r ← Choice.fields? renameFields reading value
    let source ← r.required? "from" (Definition.read? reading)
    let target ← r.required? "to" (Definition.read? reading)
    some (.rename source target)
  else if name = "execute" then value.readText?.map .execute
  else none

end Command

end DocStore
