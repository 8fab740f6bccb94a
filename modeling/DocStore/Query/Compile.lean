/-
Module: DocStore.Query.Compile
Purpose: the text of a query for each operation, with the names of the returned columns.
Main exports:
  Operation, CompiledQuery, Query.compile, CompiledQuery.bindVars
-/
import DocStore.Query.Aql
import DocStore.Error

namespace DocStore

/-- What a query does with the rows it finds. -/
inductive Operation where
  | select
  | delete
  | update
deriving DecidableEq, Repr

/-- The text of a query, the values that it refers to as `@1`, `@2` and so on, and
the name of each element of a returned row. -/
structure CompiledQuery where
  text : String
  params : List Json
  columns : List String

/-- The values by the numbers that the text calls them by. -/
def CompiledQuery.bindVars (c : CompiledQuery) : Dict Json :=
  .ofList (c.params.zipIdx.map fun (value, i) => (toString (i + 1), value))

/-- The kind of update of a word. -/
def UpdateKind.read (word : String) : Except Error UpdateKind :=
  match UpdateKind.ofWord? word with
  | some kind => .ok kind
  | none => .error (.compile (.updateWord word) "update")

namespace Query

/-! ### Sources -/

/-- The variable of the source at a position: the first letter of its name in
lower case, or `t`, and the position. -/
def variableOf (name : String) (position : Nat) : String :=
  let letter := match name.toList.head? with
    | some c => if c.isAlpha then c.toLower else 't'
    | none => 't'
  String.singleton letter ++ toString position

/-- Whether a name can stand between backticks. -/
def isSourceName (name : String) : Bool :=
  !name.isEmpty && !name.toList.contains '`'

/-- The variables of the sources. -/
def rowVariables (q : Query) : List String :=
  q.sources.zipIdx.map fun (source, i) => variableOf source.name i

/-- The scope at the start of a query. -/
def scope (q : Query) : Except CompileFault Scope :=
  match q.sources.find? fun source => !isSourceName source.name with
  | some source => .error (.sourceName source.name)
  | none => .ok { rowVariables := q.rowVariables, paramCount := q.params.length }

/-- The loop over the rows of a source. -/
def loopText (loopVar name : String) : String :=
  "FOR " ++ loopVar ++ " IN `" ++ name ++ "`"

/-- The loop and the condition of a join. -/
def joinText (s : Scope) (loopVar : String) (j : Join) : Except CompileFault String :=
  if j.kind ≠ .inner then .error (.unsupportedJoin j.kind j.source.name)
  else do
    let condition ← j.condition.render s
    .ok (" " ++ loopText loopVar j.source.name ++ " FILTER " ++ condition)

/-- All joins, one after the other. -/
def joinsText (s : Scope) : List (String × Join) → Except CompileFault String
  | [] => .ok ""
  | (loopVar, j) :: rest => do
      let text ← joinText s loopVar j
      let texts ← joinsText s rest
      .ok (text ++ texts)

/-! ### Conditions -/

/-- Join conditions to the text of those before them.  That text is put in
parentheses whenever the connective changes. -/
def foldClauses (s : Scope) (connective : Connective) (text : String) :
    List Clause → Except CompileFault String
  | [] => .ok text
  | c :: rest => do
      let condition ← c.condition.render s
      let before := if c.connective = connective then text else parens text
      foldClauses s c.connective (before ++ c.connective.symbol ++ parens condition) rest

/-- The conditions of a segment after its keyword; nothing if there are none. -/
def segmentText (s : Scope) (keyword : String) (segment : Segment) (clauses : List Clause) :
    Except CompileFault String :=
  match clauses.filter fun c => c.segment == segment with
  | [] => .ok ""
  | first :: rest => do
      let condition ← first.condition.render s
      let text ← foldClauses s first.connective (parens condition) rest
      .ok (keyword ++ text)

/-! ### Projection -/

/-- What a query returns: one count under a name, or a row of fields. -/
inductive Projection where
  | count (name : String)
  | fields (exprs : List Expr)

/-- The name of an element of a returned row. -/
def columnName (position : Nat) : Expr → String
  | .field _ name => name
  | _ => "expr" ++ toString position

/-- The names of the elements of a returned row. -/
def columnsOf (exprs : List Expr) : List String :=
  exprs.zipIdx.map fun (e, i) => columnName i e

/-- The name of a count. -/
def countName (s : Scope) : Expr → Except CompileFault String
  | .countRows => .ok "total"
  | .countOf (.row _) => .ok "total"
  | .countOf (.field source name) => (s.rowVar source).map fun v => v ++ "_" ++ name
  | _ => .error .countTarget

/-- The fields of a whole row, by the entity type that its source is bound to.
The primary key is stored as the document key. -/
def expandRow (q : Query) (source : Nat) : Except CompileFault (List Expr) :=
  match q.sources[source]? with
  | none => .error (.unknownSource source)
  | some origin =>
      match origin.entity with
      | none => .error (.noFieldList origin.name)
      | some entity =>
          if entity.fields.isEmpty then .error (.noFieldList origin.name)
          else .ok (entity.fields.map fun name =>
            .field source (if name = entity.primaryKey then "_key" else name))

/-- The requested expressions with whole rows replaced by their fields. -/
def expandRows (q : Query) : List Expr → Except CompileFault (List Expr)
  | [] => .ok []
  | .row source :: rest => do
      let fields ← q.expandRow source
      let others ← q.expandRows rest
      .ok (fields ++ others)
  | e :: rest => do
      let others ← q.expandRows rest
      .ok (e :: others)

/-- The requested projection, by default the whole root row.  A count stands
alone. -/
def resolveProjection (q : Query) (s : Scope) : Except CompileFault Projection :=
  match q.projection.getD [.row 0] with
  | [] => .error .emptyProjection
  | requested =>
      let counts := requested.countP Expr.isCount
      if counts = 0 then (q.expandRows requested).map .fields
      else
        match requested with
        | [count] => (countName s count).map .count
        | _ =>
            if counts ≠ requested.length then .error .countBesideFields else .error .severalCounts

/-- A row of expressions in brackets. -/
def rowText (s : Scope) (exprs : List Expr) : Except CompileFault String := do
  let texts ← Expr.renderAll s exprs
  .ok ("[ " ++ Text.join ", " texts ++ " ]")

/-- The keyword that keeps equal rows from being returned twice. -/
def distinctText : Option Distinct → Except CompileFault String
  | none => .ok ""
  | some (.rows false) => .ok ""
  | some (.rows true) => .ok "DISTINCT "
  | some (.fields _) => .error .distinctFields

/-! ### Groups, order and window -/

/-- The variables that group terms are bound to, with their defining texts. -/
def groupTerms (s : Scope) : List Expr → Except CompileFault (List (GroupVariable × String))
  | [] => .ok []
  | .field source name :: rest => do
      let row ← s.rowVar source
      let text ← s.field source name
      let group : GroupVariable := ⟨source, name, row ++ "_" ++ name⟩
      let terms ← groupTerms s rest
      .ok ((group, group.name ++ " = " ++ text) :: terms)
  | _ :: _ => .error .groupNotField

/-- The grouping of a query and the scope after it. -/
def groupText (s : Scope) (count : Option String) (groups : List Expr) :
    Except CompileFault (String × Scope) :=
  if groups.isEmpty then .ok ("", s)
  else do
    let terms ← groupTerms s groups
    let counting := match count with
      | some name => " WITH COUNT INTO " ++ name
      | none => ""
    .ok (" COLLECT " ++ Text.join ", " (terms.map Prod.snd) ++ counting,
      { s with grouped := some (terms.map Prod.fst) })

/-- The sort criteria. -/
def sortTexts (s : Scope) : List SortTerm → Except CompileFault (List String)
  | [] => .ok []
  | term :: rest => do
      let text ← term.key.render s
      let texts ← sortTexts s rest
      .ok ((if term.order = .descending then text ++ " DESC" else text) :: texts)

/-- The order of a query; nothing if there are no criteria. -/
def sortText (s : Scope) (sorts : List SortTerm) : Except CompileFault String :=
  if sorts.isEmpty then .ok ""
  else do
    let texts ← sortTexts s sorts
    .ok (" SORT " ++ Text.join ", " texts)

/-- The window of rows; nothing if there is none. -/
def windowText (s : Scope) (offset limit : Option Expr) : Except CompileFault String :=
  match offset, limit with
  | some offset, some limit => do
      let skipped ← offset.render s
      let kept ← limit.render s
      .ok (" LIMIT " ++ skipped ++ ", " ++ kept)
  | none, some limit => do
      let kept ← limit.render s
      .ok (" LIMIT " ++ kept)
  | some _, none => .error .offsetWithoutLimit
  | none, none => .ok ""

/-! ### Operations -/

/-- The clauses that every operation starts with. -/
def headText (q : Query) (s : Scope) : Except CompileFault String := do
  let joins ← joinsText s (s.rowVariables.tail.zip q.joins)
  let search ← segmentText s " SEARCH " .search q.clauses
  let filter ← segmentText s " FILTER " .filter q.clauses
  .ok (loopText (variableOf q.root.name 0) q.root.name ++ joins ++ search ++ filter)

/-- What a selection returns after its head. -/
def selectText (q : Query) (s : Scope) : Except CompileFault (String × List String) := do
  let projection ← q.resolveProjection s
  let counter := match projection with
    | .count name => some name
    | .fields _ => none
  let (group, s) ← groupText s counter q.groups
  let sort ← sortText s q.sorts
  let window ← windowText s q.offset q.limit
  match projection with
  | .count name =>
      let counting := if q.groups.isEmpty then " COLLECT WITH COUNT INTO " ++ name else ""
      .ok (group ++ sort ++ window ++ counting ++ " RETURN " ++ name, [name])
  | .fields exprs =>
      let distinct ← distinctText q.distinct
      let row ← rowText s exprs
      .ok (group ++ sort ++ window ++ " RETURN " ++ distinct ++ row, columnsOf exprs)

/-- Documents can be changed through collections only, and not in groups. -/
def ensureMutable (q : Query) (mutation : Mutation) : Except CompileFault Unit :=
  match q.sources.find? fun source => source.kind == .view with
  | some source => .error (.mutatedView mutation source.name)
  | none => if q.groups.isEmpty then .ok () else .error (.groupedMutation mutation)

/-- What a mutation returns: the requested fields of the old or new documents, or
nothing if none are requested. -/
def returningText (q : Query) (s : Scope) (pseudo : String) :
    Except CompileFault (String × List String) :=
  if q.projection.isNone then .ok ("", [])
  else do
    match ← q.resolveProjection s with
    | .count _ => .error .countReturned
    | .fields exprs =>
        let row ← rowText { s with returned := some pseudo } exprs
        .ok (" RETURN " ++ row, columnsOf exprs)

/-- The deletion of the found documents. -/
def deleteText (q : Query) (s : Scope) : Except CompileFault (String × List String) := do
  q.ensureMutable .delete
  let sort ← sortText s q.sorts
  let window ← windowText s q.offset q.limit
  let remove := " REMOVE " ++ variableOf q.root.name 0 ++ " IN `" ++ q.root.name ++ "`"
  let (returning, columns) ← q.returningText s "OLD"
  .ok (sort ++ window ++ remove ++ returning, columns)

/-- The new value of a field. -/
def assignmentText (s : Scope) (u : Update) : Except CompileFault String := do
  let target ← s.field 0 u.field
  let value ← u.value.render s
  let text := match u.kind with
    | .set => value
    | .inc => target ++ " + " ++ u.value.asOperand value
    | .push => "PUSH(" ++ target ++ ", " ++ value ++ ")"
    | .pull => "REMOVE_VALUE(" ++ target ++ ", " ++ value ++ ", 1)"
  .ok ("`" ++ u.field ++ "`: " ++ text)

/-- The new values of all fields. -/
def assignmentTexts (s : Scope) : List Update → Except CompileFault (List String)
  | [] => .ok []
  | u :: rest => do
      let text ← assignmentText s u
      let texts ← assignmentTexts s rest
      .ok (text :: texts)

/-- The change of the found documents. -/
def updateText (q : Query) (s : Scope) : Except CompileFault (String × List String) := do
  q.ensureMutable .update
  let sort ← sortText s q.sorts
  let window ← windowText s q.offset q.limit
  if q.updates.isEmpty then .error .noUpdates
  else do
    let assignments ← assignmentTexts s q.updates
    let update := " UPDATE " ++ variableOf q.root.name 0 ++ " WITH \x7b" ++
      Text.join ", " assignments ++ "\x7d IN `" ++ q.root.name ++ "`"
    let (returning, columns) ← q.returningText s "NEW"
    .ok (sort ++ window ++ update ++ returning, columns)

/-- What an operation does after the head of the query. -/
def bodyText (q : Query) (s : Scope) : Operation → Except CompileFault (String × List String)
  | .select => q.selectText s
  | .delete => q.deleteText s
  | .update => q.updateText s

/-- The text of a query and the names of the returned columns. -/
def compileText (q : Query) (operation : Operation) :
    Except CompileFault (String × List String) := do
  let s ← q.scope
  let head ← q.headText s
  let (body, columns) ← q.bodyText s operation
  .ok (head ++ body, columns)

/-- Compile a query: its whole text, or the first reason why it has none. -/
def compile (q : Query) (operation : Operation) : Except Error CompiledQuery :=
  match q.compileText operation with
  | .ok (text, columns) => .ok { text, params := q.params, columns }
  | .error fault => .error (.compile fault q.describe)

end Query

end DocStore
