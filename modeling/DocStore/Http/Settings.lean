/-
Module: DocStore.Http.Settings
Purpose: where a store is reached over HTTP and who asks, and reading this from named
  variables.
Main exports:
  HttpSettings, HttpSettings.ofVariables, HttpSettings.url
-/
import DocStore.Adapter.Settings
import DocStore.Exchange.Message
import DocStore.Text.Numeral

namespace DocStore

/-- How a store is reached. -/
structure HttpSettings where
  endpoint : String := "http://localhost:8529"
  database : String := "_system"
  username : Option String := some "root"
  password : Option String := none
  /-- How many milliseconds to wait for an answer; without it, for ever. -/
  timeout : Option Nat := none

namespace HttpSettings

/-- What the names of variables start with. -/
def variablePrefix : String := "ARANGO_"

/-- The names of the variables. -/
def variableNames : List String :=
  ["ENDPOINT", "DATABASE", "USERNAME", "PASSWORD", "TIMEOUT_MS"].map (variablePrefix ++ ·)

/-- The settings that variables give.  One that is not set, is empty or has no
meaning leaves the default. -/
def ofVariables (environment : Dict String) : HttpSettings :=
  let get (name : String) : Option String :=
    (environment.get? (variablePrefix ++ name)).bind nonEmpty?
  let base : HttpSettings := {}
  { endpoint := (get "ENDPOINT").getD base.endpoint
    database := (get "DATABASE").getD base.database
    username := (get "USERNAME").or base.username
    password := (get "PASSWORD").or base.password
    timeout := ((get "TIMEOUT_MS").bind Text.natural?).or base.timeout }

/-- The address of what a request is about. -/
def url (s : HttpSettings) (r : Request) : String :=
  String.ofList (Text.trimTrailing '/' s.endpoint.toList) ++ r.fullPath s.database

end HttpSettings

end DocStore
