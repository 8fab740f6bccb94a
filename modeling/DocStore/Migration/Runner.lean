/-
Module: DocStore.Migration.Runner
Purpose: applying migrations and taking them back, with a collection that records which
  versions are applied.
Main exports:
  RunnerOptions, RunnerOptions.appliedVersions, RunnerOptions.migrate,
  RunnerOptions.migrateUp, RunnerOptions.migrateDown, RunnerOptions.status
-/
import DocStore.Migration.Selection
import DocStore.Query.Compile

namespace DocStore

/-- The collection of applied versions, unless another one is named. -/
def defaultBookkeeping : String := "schema_migrations"

/-- Where migrations run and how strict their order is. -/
structure RunnerOptions where
  /-- The collection that records the applied versions. -/
  collection : String := defaultBookkeeping
  /-- The database that the migrations and the records live in. -/
  tenant : Option String := none
  strictOrder : Bool := false
  /-- Never create the collection of records. -/
  skipCreation : Bool := false

namespace RunnerOptions

/-- Create the collection of records if it is missing. -/
def ensureBookkeeping (o : RunnerOptions) : Exchange Unit :=
  if o.skipCreation then return ()
  else do
    let _ ← ((Command.createIfNotExists (.collection { name := o.collection })).withDefaultTenant
      o.tenant).perform none none
    return ()

/-- The query for all recorded versions. -/
def versionsQuery (o : RunnerOptions) : Query :=
  { root := { name := o.collection }, projection := some [.field 0 "version"] }

/-- The version in a row of records. -/
def versionOf (row : Json) : Except Error Int :=
  match (row.item 0).signed? with
  | some version => .ok version
  | none => .error (.validation (.bookkeepingRow row))

/-- The recorded versions, ascending. -/
def appliedVersions (o : RunnerOptions) : Exchange (List Int) := do
  o.ensureBookkeeping
  let compiled ← .ofExcept (o.versionsQuery.compile .select)
  let rows ← .runCursor o.tenant compiled.text compiled.bindVars none
  let versions ← .ofExcept (rows.mapM versionOf)
  return versions.mergeSort

/-- Record that a version went in a direction. -/
def record (o : RunnerOptions) (version : Int) (d : Direction)
    (transaction : Option Transaction) : Exchange Unit :=
  let request : Request :=
    match d with
    | .up => .post ("document/" ++ o.collection)
        (.obj ⟨[("_key", .str (toString version)), ("version", .int version)]⟩)
    | .down => .delete ("document/" ++ o.collection ++ "/" ++ toString version)
  .command ((request.withDatabase o.tenant).inTransaction transaction)

/-- Run the body of a migration and record it. -/
def runBody (o : RunnerOptions) (e : Entry) (d : Direction) (transaction : Option Transaction) :
    Exchange Unit := do
  let script ← .ofExcept (e.migration.body d)
  let progress ← ({ tenant := o.tenant, transaction } : Context).run script
  .ofExcept progress.outcome
  o.record e.version d transaction

/-- The collections that a migration writes to, each once, the records first. -/
def writeSet (o : RunnerOptions) (m : Migration) : List String :=
  m.writeCollections.foldl addName [o.collection]

/-- Run a migration in a direction, in a transaction of its own unless it asks for
none. -/
def apply (o : RunnerOptions) (e : Entry) (d : Direction) : Exchange Unit :=
  if e.migration.disableTransaction then o.runBody e d none
  else withTransaction o.tenant (o.writeSet e.migration) fun t => o.runBody e d (some t)

/-- Refuse an entry that is not newer than all recorded ones, or warn of it. -/
def demandOrder (o : RunnerOptions) (e : Entry) (applied : List Int) : Exchange Unit :=
  match checkOrder e applied with
  | .ok () => return ()
  | .error fault =>
      if o.strictOrder then .fail (.order fault) else .report (.outdated fault)

/-- Run one migration of a run, given the versions that are applied then; the
versions that are applied afterwards. -/
def runOne (o : RunnerOptions) (d : Direction) (applied : List Int) (e : Entry) :
    Exchange (List Int) :=
  match d with
  | .up => do
      o.demandOrder e applied
      o.apply e .up
      return applied ++ [e.version]
  | .down => do
      o.apply e .down
      return applied.filter (· != e.version)

/-- Run migrations in order, up to the first that fails. -/
def runEach (o : RunnerOptions) (d : Direction) (applied : List Int) :
    List Entry → Exchange Unit
  | [] => return ()
  | e :: rest => do
      let next ← o.runOne d applied e
      o.runEach d next rest

/-- Run the migrations that a strategy selects; their versions. -/
def migrate (o : RunnerOptions) (entries : List Entry) (d : Direction) (s : Strategy) :
    Exchange (List Int) := do
  let applied ← o.appliedVersions
  let pending := selectPending entries applied d s
  match checkDuplicates pending with
  | .error fault => .fail (.order fault)
  | .ok () => do
      o.runEach d applied pending
      return pending.map Entry.version

/-- Apply a migration unless it is recorded; whether it ran. -/
def migrateUp (o : RunnerOptions) (e : Entry) : Exchange Bool := do
  let applied ← o.appliedVersions
  if applied.contains e.version then return false
  else do
    o.demandOrder e applied
    o.apply e .up
    return true

/-- Take a migration back if it is recorded; whether it ran. -/
def migrateDown (o : RunnerOptions) (e : Entry) : Exchange Bool := do
  let applied ← o.appliedVersions
  if applied.contains e.version then do
    o.apply e .down
    return true
  else return false

/-- Every known or recorded version with its state. -/
def status (o : RunnerOptions) (entries : List Entry) : Exchange (List StatusLine) := do
  let applied ← o.appliedVersions
  return statusLines entries applied

end RunnerOptions

end DocStore
