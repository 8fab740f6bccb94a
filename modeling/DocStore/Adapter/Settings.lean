/-
Module: DocStore.Adapter.Settings
Purpose: the settings of an adapter, and reading them from named variables.
Main exports:
  AdapterSettings, AdapterSettings.ofVariables, AdapterSettings.runnerOptions
-/
import DocStore.Migration.Runner

namespace DocStore

/-- Where migrations are looked for, unless other places are named. -/
def defaultMigrationsPath : String := "priv/migrations"

/-- The settings of an adapter and of its migrations. -/
structure AdapterSettings where
  /-- The database that is used in the place of the default one. -/
  tenant : Option String := none
  /-- Whether missing collections stay missing; otherwise the first insert creates
  them. -/
  staticMode : Bool := true
  bookkeeping : String := defaultBookkeeping
  paths : List String := [defaultMigrationsPath]
  strictOrder : Bool := false

/-- The truth value that a word stands for, in letters of either case. -/
def flagOfWord? (word : String) : Option Bool :=
  let lower := Text.lowerAscii word
  if ["1", "true", "yes", "on"].contains lower then some true
  else if ["0", "false", "no", "off"].contains lower then some false
  else none

/-- A text unless it is empty. -/
def nonEmpty? (text : String) : Option String :=
  if text.isEmpty then none else some text

namespace AdapterSettings

/-- What the names of variables start with. -/
def variablePrefix : String := "AQUEDUCT_"

/-- The names of the variables. -/
def variableNames : List String :=
  ["PREFIX", "STATIC", "MIGRATIONS_COLLECTION", "MIGRATIONS_PATH", "STRICT_VERSION_ORDER"].map
    (variablePrefix ++ ·)

/-- The settings that variables give.  One that is not set, or has no meaning,
leaves the default. -/
def ofVariables (environment : Dict String) : AdapterSettings :=
  let get (name : String) : Option String := environment.get? (variablePrefix ++ name)
  { tenant := (get "PREFIX").bind nonEmpty?
    staticMode := ((get "STATIC").bind flagOfWord?).getD true
    bookkeeping := ((get "MIGRATIONS_COLLECTION").bind nonEmpty?).getD defaultBookkeeping
    paths := ((get "MIGRATIONS_PATH").map (Text.splitAt ':')).getD [defaultMigrationsPath]
    strictOrder := ((get "STRICT_VERSION_ORDER").bind flagOfWord?).getD false }

/-- The options of migrations. -/
def runnerOptions (s : AdapterSettings) : RunnerOptions :=
  { collection := s.bookkeeping, tenant := s.tenant, strictOrder := s.strictOrder }

end AdapterSettings

end DocStore
