/-
Module: DocStore.CommandLine.Options
Purpose: telling options, their values and plain words apart on a command line.
Main exports:
  Argument, OptionSpec, OptionSpec.read, GivenOptions, EarlyEnd
-/
import DocStore.Text.Scan

namespace DocStore

/-- Why a command line leads to no action. -/
inductive EarlyEnd where
  /-- It is not well formed. -/
  | wrongUsage
  | helpWanted
  | versionWanted
deriving DecidableEq, Repr

/-- What an argument looks like. -/
inductive Argument where
  /-- A long name after two hyphens, perhaps with a value after an equality sign. -/
  | long (name : String) (value : Option String)
  /-- Letters after one hyphen. -/
  | short (letters : List Char)
  /-- Two hyphens alone: all that follows are words. -/
  | endOfOptions
  | word (text : String)
deriving DecidableEq, Repr

/-- What an argument looks like.  A hyphen alone is a word. -/
def Argument.of (text : String) : Argument :=
  match text.toList with
  | ['-', '-'] => .endOfOptions
  | '-' :: '-' :: rest =>
      match Text.splitOnce? ['='] rest with
      | none => .long (String.ofList rest) none
      | some (name, value) => .long (String.ofList name) (some (String.ofList value))
  | '-' :: c :: rest => .short (c :: rest)
  | _ => .word text

/-- An option that takes a value. -/
structure ValueOption where
  name : String
  accepts : String → Bool := fun _ => true
  repeatable : Bool := false

/-- The options that a command takes. -/
structure OptionSpec where
  values : List ValueOption := []
  flags : List String := []
  hasVersion : Bool := false

/-- The options that are given, in order. -/
structure GivenOptions where
  values : List (String × String) := []
  flags : List String := []

namespace GivenOptions

/-- The value of an option that is given once at most. -/
def value? (g : GivenOptions) (name : String) : Option String :=
  g.values.lookup name

/-- All values of an option. -/
def valuesOf (g : GivenOptions) (name : String) : List String :=
  (g.values.filter fun given => given.1 == name).map Prod.snd

/-- Take in a value.  It must be acceptable, and the only one unless the option is
repeatable. -/
def addValue (g : GivenOptions) (option : ValueOption) (value : String) :
    Except EarlyEnd GivenOptions :=
  if option.accepts value && (option.repeatable || (g.value? option.name).isNone) then
    .ok { g with values := g.values ++ [(option.name, value)] }
  else .error .wrongUsage

/-- Take in a flag, which must be the first of its name. -/
def addFlag (g : GivenOptions) (name : String) : Except EarlyEnd GivenOptions :=
  if g.flags.contains name then .error .wrongUsage
  else .ok { g with flags := g.flags ++ [name] }

end GivenOptions

namespace OptionSpec

/-- Take in a long option without a value of its own. -/
def takeFlag (spec : OptionSpec) (g : GivenOptions) (name : String) :
    Except EarlyEnd GivenOptions :=
  if spec.flags.contains name then g.addFlag name
  else if name = "help" then .error .helpWanted
  else if name = "version" && spec.hasVersion then .error .versionWanted
  else .error .wrongUsage

/-- What letters after one hyphen lead to. -/
def shortEnd (spec : OptionSpec) : List Char → EarlyEnd
  | 'h' :: _ => .helpWanted
  | 'V' :: _ => if spec.hasVersion then .versionWanted else .wrongUsage
  | _ => .wrongUsage

/-- Read options up to the first word or to the end of options; the options, and
the arguments from there on. -/
def read (spec : OptionSpec) (g : GivenOptions) :
    List String → Except EarlyEnd (GivenOptions × List String)
  | [] => .ok (g, [])
  | argument :: rest =>
      match Argument.of argument with
      | .endOfOptions => .ok (g, argument :: rest)
      | .word _ => .ok (g, argument :: rest)
      | .short letters => .error (spec.shortEnd letters)
      | .long name value =>
          match spec.values.find? fun option => option.name == name, value, rest with
          | some option, some value, rest => do
              let g ← g.addValue option value
              spec.read g rest
          | some option, none, next :: rest =>
              match Argument.of next with
              | .word value => do
                  let g ← g.addValue option value
                  spec.read g rest
              | _ => .error .wrongUsage
          | some _, none, [] => .error .wrongUsage
          | none, none, rest => do
              let g ← spec.takeFlag g name
              spec.read g rest
          | none, some _, _ => .error .wrongUsage

end OptionSpec

end DocStore
