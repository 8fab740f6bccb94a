/-
Module: DocStore.Migration.Report
Purpose: what a command reports after it ran, and its wording.
Main exports:
  ReportLevel, Report, Report.level, Report.message, Report.metadata
-/
import DocStore.Error

namespace DocStore

/-- How serious a report is. -/
inductive ReportLevel where
  | info
  | error
deriving DecidableEq, Repr

/-- The word for a level. -/
def ReportLevel.word : ReportLevel → String
  | info => "info"
  | error => "error"

/-- What a command did.  Objects are given by the word for their kind and their
name. -/
inductive Report where
  | created (kind name : String)
  | alreadyThere (kind name : String)
  | dropped (kind name : String)
  | notThere (kind name : String)
  | altered (kind name : String)
  | renamed (kind source target : String)
  | queried (rows : Nat)
  | failed (error : Error)

namespace Report

/-- The level of a report. -/
def level : Report → ReportLevel
  | failed _ => .error
  | _ => .info

/-- The wording of a report. -/
def message : Report → String
  | created kind name => "created " ++ kind ++ " `" ++ name ++ "`"
  | alreadyThere kind name => kind ++ " `" ++ name ++ "` already exists"
  | dropped kind name => "dropped " ++ kind ++ " `" ++ name ++ "`"
  | notThere kind name => kind ++ " `" ++ name ++ "` does not exist"
  | altered kind name => "altered " ++ kind ++ " `" ++ name ++ "`"
  | renamed kind source target =>
      "renamed " ++ kind ++ " `" ++ source ++ "` to `" ++ target ++ "`"
  | queried _ => "executed query"
  | failed error => error.message

/-- What a report says besides its wording. -/
def metadata : Report → List (String × String)
  | queried rows => [("rows", toString rows)]
  | _ => []

end Report

end DocStore
