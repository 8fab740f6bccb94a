/-
Module: DocStore.Proofs.Adapter.Hydration
Purpose: the row that is made of a result of a query has an entry for every name among the
  columns, with the last value under that name.
Main exports:
  Query.returned, Query.columns_of_compile_eq, Query.nodup_columnsOf, Query.NamesApart,
  Query.namesApart_of_default, Query.hydrate_complete
-/
import DocStore.Proofs.Adapter.ReadBack
import DocStore.Proofs.Dict.Order
import DocStore.Proofs.Query.Scoped
import DocStore.Proofs.Text.Decimal

namespace DocStore

/-!
The columns of a result are named in three ways: a field by its own name, whatever source it is
of; any other expression by its position; and the key of a document, of whatever source, by the
primary key of the root.  A row is a map, so that of two columns with one name the last one is
kept.
-/

/-! ### Maps of entries whose keys may repeat -/

namespace Dict

variable {α : Type}

/-- Of the entries with one key the last one is kept. -/
theorem get?_insertAll_of_last {d : Dict α} {entries : List (String × α)} {i : Nat}
    {key : String} {value : α} (there : entries[i]? = some (key, value))
    (last : ∀ e ∈ entries.drop (i + 1), e.1 ≠ key) :
    (d.insertAll entries).get? key = some value := by
  induction entries generalizing d i with
  | nil => cases there
  | cons first rest inductionHypothesis =>
      change ((d.insert first.1 first.2).insertAll rest).get? key = some value
      rw [List.drop_succ_cons] at last
      cases i with
      | zero =>
          cases there
          exact (get?_insertAll_of_forall_ne _ last).trans (get?_insert_self ..)
      | succ i => exact inductionHypothesis there last

/-- A map of entries has as many of them as they have different keys. -/
theorem length_ofList (entries : List (String × α)) :
    (ofList entries).entries.length = (entries.map Prod.fst).dedup.length := by
  rw [← (keys_ofList_perm entries).length_eq, keys, List.length_map]

end Dict

/-! ### The name of the key -/

theorem columnName_key (e : Entity) : columnName (some e) "_key" = e.primaryKey := by
  unfold columnName
  exact if_pos rfl

theorem columnName_of_ne {column : String} (entity : Option Entity) (other : column ≠ "_key") :
    columnName entity column = column := by
  cases entity with
  | none => rfl
  | some e => exact if_neg other

/-- Different columns keep different names, unless the name of the key is already one of them. -/
theorem columnName_injOn {entity : Option Entity} {columns : List String}
    (apart : ∀ e, entity = some e → "_key" ∈ columns → e.primaryKey ∈ columns →
      e.primaryKey = "_key") :
    ∀ a ∈ columns, ∀ b ∈ columns, columnName entity a = columnName entity b → a = b := by
  cases entity with
  | none => exact fun a _ b _ same => same
  | some e =>
      intro a first b second same
      by_cases isKey : a = "_key" <;> by_cases isKey' : b = "_key"
      · exact isKey.trans isKey'.symm
      · rw [isKey, columnName_key, columnName_of_ne _ isKey'] at same
        exact absurd (same.symm.trans (apart e rfl (isKey ▸ first) (same ▸ second))) isKey'
      · rw [isKey', columnName_key, columnName_of_ne _ isKey] at same
        exact absurd (same.trans (apart e rfl (isKey' ▸ second) (same ▸ first))) isKey
      · rwa [columnName_of_ne _ isKey, columnName_of_ne _ isKey'] at same

/-! ### What a query returns -/

/-- The name of an expression that is a field. -/
def Expr.fieldName? : Expr → Option String
  | .field _ name => some name
  | _ => none

/-- A column has the name of its field, or one of its position. -/
theorem columnName_cases (position : Nat) (e : Expr) :
    e.fieldName? = some (Query.columnName position e) ∨
      e.fieldName? = none ∧ Query.columnName position e = "expr" ++ toString position := by
  cases e <;> first | exact Or.inl rfl | exact Or.inr ⟨rfl, rfl⟩

namespace Query

variable {q : Query} {s : Scope} {operation : Operation} {c : CompiledQuery}
  {columns : List String} {text : String}

/-- The expressions of a row, with whole rows replaced by their fields. -/
def rowExprs (q : Query) : List Expr :=
  match q.expandRows (q.projection.getD [.row 0]) with
  | .ok exprs => exprs
  | .error _ => []

/-- The expressions whose values make up a row of the result.  Mutations return nothing unless
they are asked to. -/
def returned (q : Query) : Operation → List Expr
  | .select => q.rowExprs
  | _ => if q.projection.isNone then [] else q.rowExprs

/-- The columns of a selection are those of its expressions, or there is one with a count. -/
theorem selectText_columns (is : q.selectText s = .ok (text, columns)) :
    columns = columnsOf q.rowExprs ∨ ∃ name, columns = [name] := by
  obtain ⟨projection, resolved, is⟩ := exceptBind_eq_ok_iff.mp is
  obtain ⟨⟨group, inner⟩, _, is⟩ := exceptBind_eq_ok_iff.mp is
  obtain ⟨sort, _, is⟩ := exceptBind_eq_ok_iff.mp is
  obtain ⟨window, _, is⟩ := exceptBind_eq_ok_iff.mp is
  rcases resolveProjection_cases resolved with ⟨_, name, _, _, rfl⟩ | ⟨exprs, expanded, rfl⟩
  · cases is
    exact Or.inr ⟨name, rfl⟩
  · obtain ⟨distinct, _, is⟩ := exceptBind_eq_ok_iff.mp is
    obtain ⟨row, _, is⟩ := exceptBind_eq_ok_iff.mp is
    cases is
    left
    rw [rowExprs, expanded]

/-- The columns of a mutation are those of the expressions that it is asked to return. -/
theorem returningText_columns {pseudo : String}
    (is : q.returningText s pseudo = .ok (text, columns)) :
    columns = columnsOf (if q.projection.isNone then [] else q.rowExprs) := by
  unfold returningText at is
  split at is
  · next nothing =>
      cases is
      rw [if_pos nothing]
      rfl
  · next asked =>
      rw [if_neg asked]
      obtain ⟨projection, resolved, is⟩ := exceptBind_eq_ok_iff.mp is
      rcases resolveProjection_cases resolved with ⟨_, name, _, _, rfl⟩ | ⟨exprs, expanded, rfl⟩
      · cases is
      · obtain ⟨row, _, is⟩ := exceptBind_eq_ok_iff.mp is
        cases is
        rw [rowExprs, expanded]

theorem deleteText_columns (is : q.deleteText s = .ok (text, columns)) :
    columns = columnsOf (if q.projection.isNone then [] else q.rowExprs) := by
  obtain ⟨_, _, is⟩ := exceptBind_eq_ok_iff.mp is
  obtain ⟨sort, _, is⟩ := exceptBind_eq_ok_iff.mp is
  obtain ⟨window, _, is⟩ := exceptBind_eq_ok_iff.mp is
  obtain ⟨⟨returning, listed⟩, returns, is⟩ := exceptBind_eq_ok_iff.mp is
  cases is
  exact returningText_columns returns

theorem updateText_columns (is : q.updateText s = .ok (text, columns)) :
    columns = columnsOf (if q.projection.isNone then [] else q.rowExprs) := by
  obtain ⟨_, _, is⟩ := exceptBind_eq_ok_iff.mp is
  obtain ⟨sort, _, is⟩ := exceptBind_eq_ok_iff.mp is
  obtain ⟨window, _, is⟩ := exceptBind_eq_ok_iff.mp is
  split at is
  · cases is
  · obtain ⟨assignments, _, is⟩ := exceptBind_eq_ok_iff.mp is
    obtain ⟨⟨returning, listed⟩, returns, is⟩ := exceptBind_eq_ok_iff.mp is
    cases is
    exact returningText_columns returns

/-- The columns of a compiled query are those of the expressions that it returns, or there is one
with a count. -/
theorem columns_of_compile_eq (compiles : q.compile operation = .ok c) :
    c.columns = columnsOf (q.returned operation) ∨ ∃ name, c.columns = [name] := by
  unfold compile at compiles
  split at compiles
  · next text columns texts =>
      cases compiles
      obtain ⟨s, _, texts⟩ := exceptBind_eq_ok_iff.mp texts
      obtain ⟨head, _, texts⟩ := exceptBind_eq_ok_iff.mp texts
      obtain ⟨⟨body, listed⟩, bodies, same⟩ := exceptBind_eq_ok_iff.mp texts
      cases same
      cases operation with
      | select => exact selectText_columns bodies
      | delete => exact Or.inl (deleteText_columns bodies)
      | update => exact Or.inl (updateText_columns bodies)
  · cases compiles

/-! ### Names that do not run into each other -/

/-- The names of the fields among expressions. -/
def fieldNames (exprs : List Expr) : List String :=
  exprs.filterMap Expr.fieldName?

theorem getElem?_columnsOf (exprs : List Expr) (i : Nat) :
    (columnsOf exprs)[i]? = exprs[i]?.map (columnName i) := by
  rw [columnsOf, List.getElem?_map, List.getElem?_zipIdx, Option.map_map, Nat.zero_add]
  rfl

theorem mem_fieldNames {exprs : List Expr} {i : Nat} {e : Expr} {name : String}
    (there : exprs[i]? = some e) (is : e.fieldName? = some name) : name ∈ fieldNames exprs :=
  List.mem_filterMap.mpr ⟨e, List.mem_of_getElem? there, is⟩

/-- A name that is listed once is that of one field. -/
theorem ne_of_nodup_fieldNames {exprs : List Expr} (once : (fieldNames exprs).Nodup) {i j : Nat}
    {e f : Expr} (before : i < j) (first : exprs[i]? = some e) (second : exprs[j]? = some f)
    {name : String} (is : e.fieldName? = some name) : f.fieldName? ≠ some name := by
  obtain ⟨inside, rfl⟩ := List.getElem?_eq_some_iff.mp first
  obtain ⟨inside', rfl⟩ := List.getElem?_eq_some_iff.mp second
  intro is'
  have apart := List.pairwise_iff_getElem.mp (List.pairwise_filterMap.mp once)
  exact apart i j inside inside' before name is name is' rfl

/-- No field has the name that another expression gets by its position. -/
def PositionsApart (exprs : List Expr) : Prop :=
  ∀ (i : Nat) (e : Expr), exprs[i]? = some e → e.fieldName? = none →
    "expr" ++ toString i ∉ fieldNames exprs

/-- Columns have different names if no field stands twice among them, and none has the name of a
position. -/
theorem nodup_columnsOf {exprs : List Expr} (once : (fieldNames exprs).Nodup)
    (apart : PositionsApart exprs) : (columnsOf exprs).Nodup := by
  rw [List.nodup_iff_getElem?_ne_getElem?]
  intro i j before inside same
  rw [columnsOf, List.length_map, List.length_zipIdx] at inside
  obtain ⟨f, second⟩ : ∃ f, exprs[j]? = some f := ⟨_, List.getElem?_eq_getElem inside⟩
  obtain ⟨e, first⟩ : ∃ e, exprs[i]? = some e :=
    ⟨_, List.getElem?_eq_getElem (before.trans inside)⟩
  rw [getElem?_columnsOf, getElem?_columnsOf, first, second] at same
  have names : columnName i e = columnName j f := Option.some.inj same
  rcases columnName_cases i e with field | ⟨other, position⟩ <;>
    rcases columnName_cases j f with field' | ⟨other', position'⟩
  · exact ne_of_nodup_fieldNames once before first second field (names ▸ field')
  · rw [names, position'] at field
    exact apart j f second other' (mem_fieldNames first field)
  · rw [← names, position] at field'
    exact apart i e first other (mem_fieldNames second field')
  · rw [position, position', String.append_right_inj] at names
    exact absurd (Text.toString_nat_injective names) (Nat.ne_of_lt before)

/-- The names that are made up for the columns of a query are not the names of other columns: a
position is not the name of a field, and the primary key of the root stands for the document
key alone. -/
structure NamesApart (q : Query) (operation : Operation) : Prop where
  positions_apart : PositionsApart (q.returned operation)
  key_apart : ∀ e, q.root.entity = some e → "_key" ∈ columnsOf (q.returned operation) →
    e.primaryKey ∈ columnsOf (q.returned operation) → e.primaryKey = "_key"

/-- By default a query returns the fields of its root, or nothing. -/
theorem returned_of_default (default : q.projection = none) :
    q.returned operation = [] ∨ ∃ e, q.root.entity = some e ∧ q.returned operation =
      (e.fields.map fun name => if name = e.primaryKey then "_key" else name).map (.field 0) := by
  have rows : q.rowExprs = [] ∨ ∃ e, q.root.entity = some e ∧ q.rowExprs =
      (e.fields.map fun name => if name = e.primaryKey then "_key" else name).map (.field 0) := by
    unfold rowExprs
    rw [default]
    split
    · next exprs expanded =>
        obtain ⟨fields, are, expanded⟩ := exceptBind_eq_ok_iff.mp expanded
        obtain ⟨root, e, found, bound, rfl⟩ := expandRow_eq_ok are
        cases found
        cases expanded
        exact Or.inr ⟨e, bound, by rw [List.append_nil, List.map_map]; rfl⟩
    · exact Or.inl rfl
  cases operation with
  | select => exact rows
  | delete => exact Or.inl (by simp [returned, default])
  | update => exact Or.inl (by simp [returned, default])

/-- By default the names of the columns do not run into each other. -/
theorem namesApart_of_default (default : q.projection = none) : q.NamesApart operation := by
  rcases returned_of_default default with nothing | ⟨e, bound, fields⟩
  · constructor <;> rw [nothing]
    · exact fun i e there => by cases there
    · exact fun e _ given => absurd given List.not_mem_nil
  · constructor <;> rw [fields]
    · intro i field there other
      obtain ⟨name, _, rfl⟩ := List.mem_map.mp (List.mem_of_getElem? there)
      cases other
    · rw [columnsOf_fields]
      intro root own _ given
      obtain rfl : e = root := Option.some.inj (bound.symm.trans own)
      obtain ⟨name, _, is⟩ := List.mem_map.mp given
      split at is
      · exact is.symm
      · next other => exact absurd is other

/-! ### Rows -/

theorem hydrate_of_length {columns : List String} {values : List Json} (entity : Option Entity)
    (whole : values.length = columns.length) :
    hydrate columns entity (.arr values) =
      .ok (.ofList ((columns.map (DocStore.columnName entity)).zip values)) :=
  if_neg (not_not.mpr whole)

theorem length_row {entity : Option Entity} {columns : List String} {values : List Json}
    (names : ∀ a ∈ columns, ∀ b ∈ columns,
      DocStore.columnName entity a = DocStore.columnName entity b → a = b)
    (whole : values.length = columns.length) :
    (Dict.ofList ((columns.map (DocStore.columnName entity)).zip values)).entries.length =
      columns.dedup.length := by
  have keys : ((columns.map (DocStore.columnName entity)).zip values).map Prod.fst =
      columns.map (DocStore.columnName entity) :=
    List.map_fst_zip (by rw [List.length_map, whole])
  have once : (columns.dedup.map (DocStore.columnName entity)).Nodup :=
    (List.nodup_dedup columns).map_on fun a first b second =>
      names a (List.mem_dedup.mp first) b (List.mem_dedup.mp second)
  have perm : (columns.map (DocStore.columnName entity)).dedup.Perm
      (columns.dedup.map (DocStore.columnName entity)) :=
    (List.perm_ext_iff_of_nodup (List.nodup_dedup _) once).mpr fun name => by
      simp only [List.mem_dedup, List.mem_map]
  rw [Dict.length_ofList, keys, perm.length_eq, List.length_map]

theorem NamesApart.key_apart_of_compile (apart : q.NamesApart operation)
    (compiles : q.compile operation = .ok c) (e : Entity) (bound : q.root.entity = some e)
    (key : "_key" ∈ c.columns) (own : e.primaryKey ∈ c.columns) : e.primaryKey = "_key" := by
  rcases columns_of_compile_eq compiles with columns | ⟨name, columns⟩
  · rw [columns] at key own
    exact apart.key_apart e bound key own
  · rw [columns] at key own
    exact (List.mem_singleton.mp own).trans (List.mem_singleton.mp key).symm

theorem nodup_columns (compiles : q.compile operation = .ok c) (apart : q.NamesApart operation)
    (once : (fieldNames (q.returned operation)).Nodup) : c.columns.Nodup := by
  rcases columns_of_compile_eq compiles with columns | ⟨name, columns⟩
  · rw [columns]
    exact nodup_columnsOf once apart.positions_apart
  · rw [columns]
    exact List.nodup_singleton name

/-- Without repetition every member is the last one of its kind. -/
theorem notMem_drop_of_nodup {columns : List String} (once : columns.Nodup) {i : Nat}
    {column : String} (there : columns[i]? = some column) : column ∉ columns.drop (i + 1) := by
  obtain ⟨inside, rfl⟩ := List.getElem?_eq_some_iff.mp there
  have rest := once.sublist (List.drop_sublist i columns)
  rw [List.drop_eq_getElem_cons inside] at rest
  exact (List.nodup_cons.mp rest).1

/-- Each value is found under the name of its column, if no later column has the same name. -/
theorem get?_row {entity : Option Entity} {columns : List String} {values : List Json}
    (names : ∀ a ∈ columns, ∀ b ∈ columns,
      DocStore.columnName entity a = DocStore.columnName entity b → a = b)
    {i : Nat} {column : String} {value : Json} (there : columns[i]? = some column)
    (given : values[i]? = some value) (last : column ∉ columns.drop (i + 1)) :
    (Dict.ofList ((columns.map (DocStore.columnName entity)).zip values)).get?
      (DocStore.columnName entity column) = some value := by
  apply Dict.get?_insertAll_of_last (i := i)
  · exact List.getElem?_zip_eq_some.mpr ⟨by rw [List.getElem?_map, there]; rfl, given⟩
  · intro e member same
    rw [List.zip, List.drop_zipWith, ← List.map_drop] at member
    obtain ⟨other, later, is⟩ := List.mem_map.mp (List.of_mem_zip member).1
    have equal : other = column := names other (List.mem_of_mem_drop later) column
      (List.mem_of_getElem? there) (is.trans same)
    exact last (equal ▸ later)

/-- A result with a value for every column makes a row.  If the names that are made up are not
those of other columns, the row has an entry for every name among the columns, with the value of
the last column of that name: the name of a field, with the primary key of the root for the
document key, the name of a position, or that of a count.  So no column is lost if no field is
returned twice. -/
theorem hydrate_complete {values : List Json} (compiles : q.compile operation = .ok c)
    (whole : values.length = c.columns.length) :
    ∃ row : Row, hydrate c.columns q.root.entity (.arr values) = .ok row ∧
      (q.NamesApart operation →
        row.entries.length = c.columns.dedup.length ∧
        (∀ (i : Nat) (column : String) (value : Json),
          c.columns[i]? = some column → values[i]? = some value →
          column ∉ c.columns.drop (i + 1) →
            row.get? (DocStore.columnName q.root.entity column) = some value) ∧
        ((fieldNames (q.returned operation)).Nodup →
          row.entries.length = c.columns.length ∧
          ∀ (i : Nat) (column : String) (value : Json),
            c.columns[i]? = some column → values[i]? = some value →
              row.get? (DocStore.columnName q.root.entity column) = some value)) := by
  refine ⟨_, hydrate_of_length _ whole, fun apart => ?_⟩
  have names := columnName_injOn (apart.key_apart_of_compile compiles)
  refine ⟨length_row names whole, fun _ _ _ there given last => get?_row names there given last,
    fun once => ?_⟩
  have columnsOnce := nodup_columns compiles apart once
  refine ⟨by rw [length_row names whole, columnsOnce.dedup], fun _ _ _ there given => ?_⟩
  exact get?_row names there given (notMem_drop_of_nodup columnsOnce there)

/-- Members with their posts. -/
def memberPosts (projection : List Expr) : Query where
  root := { name := "members", entity := some Adapter.memberEntity }
  joins := [⟨.inner, { name := "posts" }, .binary .eq (.field 1 "author") (.field 0 "_key")⟩]
  projection := some projection

/-- The key of a member, the title of a post, and whether the member is of age. -/
def titledPosts : Query :=
  memberPosts [.field 0 "_key", .field 1 "title", .binary .gt (.field 0 "age") (.literal (.int 17))]

theorem titledPosts_namesApart : titledPosts.NamesApart .select where
  positions_apart := by
    rintro (_ | _ | _ | i) e there other <;> cases there
    · cases other
    · cases other
    · decide
  key_apart := by
    rintro e ⟨rfl⟩
    decide

theorem hydrate_complete_of_titledPosts :
    ∃ c, titledPosts.compile .select = .ok c ∧
      ∃ row : Row, hydrate c.columns titledPosts.root.entity
          (.arr [.str "eve", .str "Hello", .bool true]) = .ok row ∧
        row.entries.length = 3 ∧ row.get? "id" = some (.str "eve") ∧
        row.get? "title" = some (.str "Hello") ∧ row.get? "expr2" = some (.bool true) := by
  obtain ⟨c, compiles, columns⟩ : ∃ c, titledPosts.compile .select = .ok c ∧
      c.columns = ["_key", "title", "expr2"] := ⟨_, rfl, rfl⟩
  have whole : [Json.str "eve", .str "Hello", .bool true].length = c.columns.length := by
    rw [columns]
    rfl
  obtain ⟨row, hydrates, complete⟩ := hydrate_complete compiles whole
  obtain ⟨many, found⟩ := (complete titledPosts_namesApart).2.2 (by decide)
  rw [columns] at many found
  exact ⟨c, compiles, row, hydrates, many, found 0 "_key" _ rfl rfl, found 1 "title" _ rfl rfl,
    found 2 "expr2" _ rfl rfl⟩

/-- The names of a member and of a post run into each other: the first one is lost. -/
theorem column_lost_of_sameName :
    ∃ c row, (memberPosts [.field 0 "name", .field 1 "name"]).compile .select = .ok c ∧
      c.columns = ["name", "name"] ∧
      hydrate c.columns (some Adapter.memberEntity) (.arr [.str "Eve", .str "Hello"]) = .ok row ∧
      row.entries.length ≠ c.columns.length ∧ ∀ name, row.get? name ≠ some (.str "Eve") := by
  refine ⟨_, ⟨[("name", .str "Hello")]⟩, rfl, rfl, rfl, by decide, fun name found => ?_⟩
  have member := List.mem_singleton.mp (Dict.mem_of_lookupEntry_eq_some found)
  simp at member

end Query

end DocStore
