/-
Module: DocStore.Query.Fault
Purpose: why a query has no text, and the wording of each reason.
Main exports:
  CompileFault, CompileFault.message
-/
import DocStore.Query.Basic

namespace DocStore

/-- The two operations that change documents. -/
inductive Mutation where
  | delete
  | update
deriving DecidableEq, Repr

/-- The word for a mutation. -/
def Mutation.word : Mutation → String
  | delete => "delete"
  | update => "update"

/-- Why a query has no text. -/
inductive CompileFault where
  | sourceName (name : String)
  | unsupportedJoin (kind : JoinKind) (source : String)
  | groupNotField
  | unknownSource (index : Nat)
  | offsetWithoutLimit
  | distinctFields
  | emptyProjection
  | countBesideFields
  | severalCounts
  | countTarget
  | noFieldList (source : String)
  | mutatedView (mutation : Mutation) (source : String)
  | groupedMutation (mutation : Mutation)
  | noUpdates
  | countReturned
  | fieldName (name : String)
  | notGrouped (name : String)
  | rowAfterGroup
  | unboundParam (index : Nat)
  | nestedCount
  | notFinite (text : String)
  | updateWord (word : String)
deriving DecidableEq, Repr

/-- The wording of a reason. -/
def CompileFault.message : CompileFault → String
  | sourceName name => "invalid collection name `" ++ name ++ "`"
  | unsupportedJoin kind source =>
      "only inner joins are supported, got a " ++ kind.name ++ " join on `" ++ source ++ "`"
  | groupNotField => "group_by only supports field references"
  | unknownSource index => "unknown source index " ++ toString index
  | offsetWithoutLimit => "offset can only be used together with limit"
  | distinctFields => "DISTINCT on specific fields is not supported, use a boolean flag"
  | emptyProjection => "empty projection"
  | countBesideFields => "count cannot be selected together with other fields"
  | severalCounts => "only a single count aggregate can be selected"
  | countTarget => "count only accepts a field or a whole row"
  | noFieldList source =>
      "cannot select all fields of `" ++ source ++ "` without a field list or entity schema"
  | mutatedView mutation source =>
      "cannot " ++ mutation.word ++ " through view `" ++ source ++ "`, views are read-only"
  | groupedMutation mutation => "group_by is not allowed in " ++ mutation.word ++ " queries"
  | noUpdates => "update query without any update directives"
  | countReturned => "count cannot be returned from delete/update queries"
  | fieldName name => "invalid field name `" ++ name ++ "`"
  | notGrouped name => "field `" ++ name ++ "` must appear in group_by"
  | rowAfterGroup => "whole rows cannot be referenced after group_by"
  | unboundParam index => "parameter " ++ toString index ++ " is not bound"
  | nestedCount => "count is only allowed as the sole projection"
  | notFinite text => "non-finite number " ++ text
  | updateWord word =>
      "unknown update operator `" ++ word ++ "`, expected one of set, inc, push, pull"

end DocStore
