/-
Module: DocStore.CommandLine.Arguments
Purpose: what a command line and the variables around it ask for.
Main exports:
  StoreAction, Action, Invocation, Invocation.read
-/
import DocStore.CommandLine.Options
import DocStore.Http.Settings

namespace DocStore

/-- What is to be done with a store. -/
inductive StoreAction where
  | migrate (strategy : Strategy) (strictOrder : Bool)
  | rollback (strategy : Strategy)
  | status
deriving DecidableEq, Repr

/-- What is to be done. -/
inductive Action where
  | store (action : StoreAction)
  /-- Write a new migration file of this name. -/
  | generate (name : String)
deriving DecidableEq, Repr

/-- A call of the program: where the store is, how migrations are found and run,
and what is to be done. -/
structure Invocation where
  http : HttpSettings
  settings : AdapterSettings
  askPassword : Bool
  action : Action

namespace Invocation

/-! ### Options -/

/-- Whether a text is a count. -/
def isCount (text : String) : Bool :=
  (Text.natural? text).isSome

/-- Whether a text is a version. -/
def isVersion (text : String) : Bool :=
  (Text.integer? text).isSome

/-- The options before the command. -/
def mainOptions : OptionSpec where
  values := [{ name := "endpoint" }, { name := "database" }, { name := "username" },
    { name := "password" }, { name := "prefix" },
    { name := "migrations-path", accepts := fun path => !path.isEmpty, repeatable := true },
    { name := "timeout-ms", accepts := isCount }]
  flags := ["ask-password"]
  hasVersion := true

/-- The options that say how far to go. -/
def targetValues : List ValueOption :=
  [{ name := "step", accepts := isCount }, { name := "to", accepts := isVersion },
    { name := "to-exclusive", accepts := isVersion }]

/-- The options of `migrate`. -/
def migrateOptions : OptionSpec where
  values := targetValues
  flags := ["all", "strict-version-order"]

/-- The options of `rollback`. -/
def rollbackOptions : OptionSpec where
  values := targetValues
  flags := ["all"]

/-- The strategies that options name. -/
def strategies (g : GivenOptions) : List Strategy :=
  (if g.flags.contains "all" then [.all] else []) ++
    (((g.value? "step").bind Text.natural?).map Strategy.step).toList ++
    (((g.value? "to").bind Text.integer?).map Strategy.through).toList ++
    (((g.value? "to-exclusive").bind Text.integer?).map Strategy.shortOf).toList

/-- The one strategy that options name, or the usual one. -/
def strategyOf (usual : Strategy) (g : GivenOptions) : Except EarlyEnd Strategy :=
  match strategies g with
  | [] => .ok usual
  | [strategy] => .ok strategy
  | _ => .error .wrongUsage

/-! ### Commands -/

/-- Options that no word may follow. -/
def readOnlyOptions (spec : OptionSpec) (arguments : List String) :
    Except EarlyEnd GivenOptions := do
  let (g, rest) ← spec.read {} arguments
  if rest = [] ∨ rest = ["--"] then .ok g else .error .wrongUsage

/-- The one word that a command without options takes. -/
def readName (found : Option String) : List String → Except EarlyEnd String
  | [] => found.elim (.error .wrongUsage) .ok
  | argument :: rest =>
      match Argument.of argument, found with
      | .word name, none => readName (some name) rest
      | .word _, some _ => .error .wrongUsage
      | .endOfOptions, _ =>
          match found.toList ++ rest with
          | [name] => .ok name
          | _ => .error .wrongUsage
      | .short letters, _ => .error (({} : OptionSpec).shortEnd letters)
      | .long "help" none, _ => .error .helpWanted
      | .long _ _, _ => .error .wrongUsage

/-- The names of the commands. -/
def commandNames : List String :=
  ["migrate", "rollback", "status", "gen-migration"]

/-- What a command and its arguments ask for. -/
def readAction : List String → Except EarlyEnd Action
  | "migrate" :: arguments => do
      let g ← readOnlyOptions migrateOptions arguments
      let strategy ← strategyOf .all g
      .ok (.store (.migrate strategy (g.flags.contains "strict-version-order")))
  | "rollback" :: arguments => do
      let g ← readOnlyOptions rollbackOptions arguments
      let strategy ← strategyOf (.step 1) g
      .ok (.store (.rollback strategy))
  | "status" :: arguments => do
      let _ ← readOnlyOptions {} arguments
      .ok (.store .status)
  | "gen-migration" :: arguments => do
      let name ← readName none arguments
      .ok (.generate name)
  | ["help"] => .error .helpWanted
  | ["help", name] => .error (if commandNames.contains name then .helpWanted else .wrongUsage)
  | _ => .error .wrongUsage

/-! ### The whole -/

/-- The timeout that an option or else a variable gives. -/
def readTimeout (g : GivenOptions) (environment : Dict String) : Except EarlyEnd (Option Nat) :=
  match (g.value? "timeout-ms").or (environment.get? (HttpSettings.variablePrefix ++ "TIMEOUT_MS"))
    with
  | none => .ok none
  | some text =>
      match Text.natural? text with
      | some n => .ok (some n)
      | none => .error .wrongUsage

/-- How the store is reached.  An option wins over a variable, even an empty one
over none. -/
def readHttp (g : GivenOptions) (environment : Dict String) : Except EarlyEnd HttpSettings := do
  let base : HttpSettings := {}
  let given (option name : String) : Option String :=
    (g.value? option).or (environment.get? (HttpSettings.variablePrefix ++ name))
  let timeout ← readTimeout g environment
  .ok
    { endpoint := (given "endpoint" "ENDPOINT").getD base.endpoint
      database := (given "database" "DATABASE").getD base.database
      username := (given "username" "USERNAME").or base.username
      password := given "password" "PASSWORD"
      timeout }

/-- The settings of migrations.  Options win over variables. -/
def readSettings (g : GivenOptions) (environment : Dict String) : AdapterSettings :=
  let base := AdapterSettings.ofVariables environment
  let paths := g.valuesOf "migrations-path"
  { base with
    tenant := (g.value? "prefix").or base.tenant
    paths := if paths.isEmpty then base.paths else paths }

/-- What arguments and variables ask for. -/
def read (arguments : List String) (environment : Dict String) : Except EarlyEnd Invocation := do
  let (g, rest) ← mainOptions.read {} arguments
  let action ← readAction rest
  let http ← readHttp g environment
  .ok { http, settings := readSettings g environment
        askPassword := g.flags.contains "ask-password", action }

end Invocation

end DocStore
