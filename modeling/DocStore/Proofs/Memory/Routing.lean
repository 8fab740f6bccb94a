/-
Module: DocStore.Proofs.Memory.Routing
Purpose: the segments of a path that is put together from names, and what requests at such
  paths ask for.
Main exports:
  Text.splitAt_append, Text.splitAt_of_notMem, Text.eq_of_splitAt_eq_singleton,
  Text.eq_of_splitAt_eq_pair, Route.shapes, Route.of?_eq_some_iff, Request.Apart
-/
import DocStore.Memory.Route
import DocStore.Proofs.Text.Cutting

namespace DocStore

namespace Text

theorem splitAll_singleton_cons (separator c : Char) (text : List Char) :
    splitAll [separator] (c :: text) =
      if separator = c then [] :: splitAll [separator] text
      else consFirst c (splitAll [separator] text) := by
  by_cases same : separator = c
  · subst same
    simp [splitAll, splitFrom, dropLeading?]
  · simp [splitAll, splitFrom, dropLeading?, same]

theorem splitAll_append_separator (separator : Char) (before after : List Char) :
    splitAll [separator] (before ++ separator :: after) =
      splitAll [separator] before ++ splitAll [separator] after := by
  induction before with
  | nil =>
      rw [List.nil_append, splitAll_singleton_cons, if_pos rfl]
      rfl
  | cons c before inductionHypothesis =>
      rw [List.cons_append, splitAll_singleton_cons, splitAll_singleton_cons,
        inductionHypothesis]
      split
      · rfl
      · cases cut : splitAll [separator] before with
        | nil => exact absurd cut (splitAll_ne_nil (by simp) before)
        | cons piece pieces => rfl

/-- The segments on both sides of a separator are those of the two texts. -/
theorem splitAt_append (separator : Char) (before after : String) :
    splitAt separator (before ++ String.singleton separator ++ after) =
      splitAt separator before ++ splitAt separator after := by
  simp only [splitAt, String.toList_append, String.toList_singleton, List.append_assoc,
    List.singleton_append, splitAll_append_separator, List.map_append]

theorem splitAt_of_notMem {separator : Char} {text : String}
    (absent : separator ∉ text.toList) : splitAt separator text = [text] := by
  rw [splitAt, splitAll_of_clear (clear_of_head_notMem [] [] absent)]
  simp

/-- A text is put together from its segments. -/
theorem toList_eq_of_splitAt {separator : Char} {text : String} {segments : List String}
    (cut : splitAt separator text = segments) :
    [separator].intercalate (segments.map String.toList) = text.toList := by
  have whole : [separator].intercalate (splitAll [separator] text.toList) = text.toList :=
    intercalate_splitAll (by simp) text.toList
  rw [← cut, splitAt, List.map_map]
  have back : String.toList ∘ String.ofList = id := by
    funext characters
    exact String.toList_ofList
  rw [back, List.map_id, whole]

/-- A text with a single segment is that segment. -/
theorem eq_of_splitAt_eq_singleton {separator : Char} {text segment : String}
    (single : splitAt separator text = [segment]) : text = segment := by
  have whole := toList_eq_of_splitAt single
  rw [List.map_singleton, List.intercalate_singleton] at whole
  exact (String.toList_inj.mp whole).symm

/-- A text with two segments is the two with a separator between them. -/
theorem eq_of_splitAt_eq_pair {separator : Char} {text first second : String}
    (pair : splitAt separator text = [first, second]) :
    text = first ++ String.singleton separator ++ second := by
  have whole := toList_eq_of_splitAt pair
  apply String.toList_inj.mp
  rw [← whole]
  simp [List.intercalate]

theorem splitAt_ne_nil (separator : Char) (text : String) : splitAt separator text ≠ [] := by
  simpa [splitAt] using splitAll_ne_nil (by simp) text.toList

end Text

namespace Route

/-- The segments of a path below a resource. -/
theorem segments_append (resource rest : String) (plain : '/' ∉ resource.toList) :
    Text.splitAt '/' (resource ++ "/" ++ rest) = resource :: Text.splitAt '/' rest := by
  have cut := Text.splitAt_append '/' resource rest
  rw [Text.splitAt_of_notMem plain] at cut
  exact cut

theorem path_below (resource name last : String) :
    resource ++ "/" ++ name ++ ("/" ++ last) = resource ++ "/" ++ (name ++ "/" ++ last) := by
  simp only [String.append_assoc]

/-- The segments of a path below a resource that is named without slashes. -/
theorem segments_named (resource name : String) (plain : '/' ∉ resource.toList)
    (named : '/' ∉ name.toList) :
    Text.splitAt '/' (resource ++ "/" ++ name) = [resource, name] := by
  rw [segments_append resource name plain, Text.splitAt_of_notMem named]

/-- The segments of the path of a document. -/
theorem segments_document (collection key : String) :
    Text.splitAt '/' ("document/" ++ collection ++ "/" ++ key) =
      "document" :: Text.splitAt '/' (collection ++ "/" ++ key) := by
  have path : "document/" ++ collection ++ "/" ++ key =
      "document" ++ "/" ++ (collection ++ "/" ++ key) := by
    simp only [String.append_assoc]
    rfl
  rw [path]
  exact segments_append "document" _ (by decide)

/-- The methods and segments of the requests that lead to a route. -/
def shapes : Route → List (Method × List String)
  | createCollection => [(.post, ["collection"])]
  | showCollection name =>
      [(.get, ["collection", name]), (.get, ["collection", name, "properties"])]
  | changeCollection name => [(.put, ["collection", name, "properties"])]
  | renameCollection name => [(.put, ["collection", name, "rename"])]
  | dropCollection name => [(.delete, ["collection", name])]
  | createIndex => [(.post, ["index"])]
  | listIndexes => [(.get, ["index"])]
  | dropIndex collection number => [(.delete, ["index", collection, number])]
  | createView => [(.post, ["view"])]
  | showView name => [(.get, ["view", name]), (.get, ["view", name, "properties"])]
  | changeView name => [(.patch, ["view", name, "properties"])]
  | renameView name => [(.put, ["view", name, "rename"])]
  | dropView name => [(.delete, ["view", name])]
  | createAnalyzer => [(.post, ["analyzer"])]
  | showAnalyzer name => [(.get, ["analyzer", name])]
  | dropAnalyzer name => [(.delete, ["analyzer", name])]
  | insertDocument collection => [(.post, ["document", collection])]
  | showDocument collection key => [(.get, ["document", collection, key])]
  | changeDocument collection key => [(.patch, ["document", collection, key])]
  | removeDocument collection key => [(.delete, ["document", collection, key])]
  | openCursor => [(.post, ["cursor"])]
  | readCursor id => [(.post, ["cursor", id]), (.put, ["cursor", id])]
  | beginTransaction => [(.post, ["transaction", "begin"])]
  | commitTransaction id => [(.put, ["transaction", id])]
  | abortTransaction id => [(.delete, ["transaction", id])]

/-- A request leads to a route exactly if it has one of the shapes of the route. -/
theorem of?_eq_some_iff {r : Request} {route : Route} :
    of? r = some route ↔ (r.method, Text.splitAt '/' r.path) ∈ route.shapes := by
  unfold of?
  generalize r.method = method, Text.splitAt '/' r.path = segments
  constructor
  · intro routed
    cases method <;> simp only at routed
    case get =>
      unfold ofGet? at routed
      split at routed <;> cases routed <;> simp [shapes]
    case post =>
      unfold ofPost? at routed
      split at routed <;> cases routed <;> simp [shapes]
    case put =>
      unfold ofPut? at routed
      split at routed <;> cases routed <;> simp [shapes]
    case patch =>
      unfold ofPatch? at routed
      split at routed <;> cases routed <;> simp [shapes]
    case delete =>
      unfold ofDelete? at routed
      split at routed <;> cases routed <;> simp [shapes]
  · intro shape
    cases route <;>
      simp only [shapes, List.mem_cons, List.not_mem_nil, or_false, Prod.mk.injEq] at shape
    case showCollection | showView | readCursor =>
      rcases shape with ⟨rfl, rfl⟩ | ⟨rfl, rfl⟩ <;> rfl
    all_goals
      obtain ⟨rfl, rfl⟩ := shape
      rfl

/-- The route of a request to a resource as a whole. -/
theorem of?_post (resource : String) {r : Request} (posts : r.method = .post)
    (path : r.path = resource) (plain : '/' ∉ resource.toList) :
    of? r = ofPost? [resource] := by
  rw [of?, posts, path, Text.splitAt_of_notMem plain]

/-- The route of a request to drop what a resource has under a name without slashes. -/
theorem of?_delete (resource name : String) {r : Request} (deletes : r.method = .delete)
    (path : r.path = resource ++ "/" ++ name) (plain : '/' ∉ resource.toList)
    (named : '/' ∉ name.toList) : of? r = ofDelete? [resource, name] := by
  rw [of?, deletes, path, segments_named resource name plain named]

/-- The route of a request to drop something that a path names below its resource is that of the
name. -/
theorem ofDelete?_of_routed {r : Request} {resource name : String} {route : Route}
    (single : resource ∈ ["collection", "view", "analyzer"]) (deletes : r.method = .delete)
    (path : r.path = resource ++ "/" ++ name) (routed : Route.of? r = some route) :
    ofDelete? [resource, name] = some route := by
  have plain : '/' ∉ resource.toList := by
    simp only [List.mem_cons, List.not_mem_nil, or_false] at single
    rcases single with rfl | rfl | rfl <;> decide
  have shape := of?_eq_some_iff.mp routed
  rw [deletes, path, segments_append resource name plain] at shape
  simp only [List.mem_cons, List.not_mem_nil, or_false] at single
  rcases single with rfl | rfl | rfl
  · cases route <;> simp [shapes] at shape
    case dropCollection given => rw [Text.eq_of_splitAt_eq_singleton shape, ofDelete?]
  · cases route <;> simp [shapes] at shape
    case dropView given => rw [Text.eq_of_splitAt_eq_singleton shape, ofDelete?]
  · cases route <;> simp [shapes] at shape
    case dropAnalyzer given => rw [Text.eq_of_splitAt_eq_singleton shape, ofDelete?]

/-- Only the collection that a path names is dropped. -/
theorem eq_of_delete_collection {r : Request} {name : String} {route : Route}
    (deletes : r.method = .delete) (path : r.path = "collection" ++ "/" ++ name)
    (routed : Route.of? r = some route) : route = .dropCollection name :=
  (Option.some.inj (ofDelete?_of_routed (by decide) deletes path routed)).symm

/-- Only the view that a path names is dropped. -/
theorem eq_of_delete_view {r : Request} {name : String} {route : Route}
    (deletes : r.method = .delete) (path : r.path = "view" ++ "/" ++ name)
    (routed : Route.of? r = some route) : route = .dropView name :=
  (Option.some.inj (ofDelete?_of_routed (by decide) deletes path routed)).symm

/-- Only the analyzer that a path names is dropped. -/
theorem eq_of_delete_analyzer {r : Request} {name : String} {route : Route}
    (deletes : r.method = .delete) (path : r.path = "analyzer" ++ "/" ++ name)
    (routed : Route.of? r = some route) : route = .dropAnalyzer name :=
  (Option.some.inj (ofDelete?_of_routed (by decide) deletes path routed)).symm

/-- Only the index that a path names is dropped: the last part of the path is its
identifier. -/
theorem eq_of_delete_index {r : Request} {id : String} {route : Route}
    (deletes : r.method = .delete) (path : r.path = "index" ++ "/" ++ id)
    (routed : Route.of? r = some route) :
    ∃ collection number, route = .dropIndex collection number ∧
      id = collection ++ "/" ++ number := by
  have shape := of?_eq_some_iff.mp routed
  rw [deletes, path, segments_append "index" id (by decide)] at shape
  cases route <;> simp [shapes] at shape
  case dropIndex collection number =>
    have parts := Text.eq_of_splitAt_eq_pair shape
    exact ⟨collection, number, rfl, parts⟩

/-- Only the analyzer that a path names is shown. -/
theorem eq_of_get_analyzer {r : Request} {name : String} {route : Route}
    (gets : r.method = .get) (path : r.path = "analyzer" ++ "/" ++ name)
    (routed : Route.of? r = some route) : route = .showAnalyzer name := by
  have shape := of?_eq_some_iff.mp routed
  rw [gets, path, segments_append "analyzer" name (by decide)] at shape
  cases route <;> simp [shapes] at shape
  case showAnalyzer given => rw [Text.eq_of_splitAt_eq_singleton shape]

/-- Only the collection that a path names has its properties changed or is
renamed. -/
theorem eq_of_put_collection {r : Request} {name last : String} {route : Route}
    (puts : r.method = .put) (path : r.path = "collection" ++ "/" ++ (name ++ "/" ++ last))
    (plain : '/' ∉ last.toList) (routed : Route.of? r = some route) :
    last = "properties" ∧ route = .changeCollection name ∨
      last = "rename" ∧ route = .renameCollection name := by
  have whole : Text.splitAt '/' (name ++ "/" ++ last) = Text.splitAt '/' name ++ [last] := by
    have cut := Text.splitAt_append '/' name last
    rw [Text.splitAt_of_notMem plain] at cut
    exact cut
  have single : ∀ {given word : String},
      Text.splitAt '/' name ++ [last] = [given, word] → last = word ∧ given = name := by
    intro given word same
    have parts : Text.splitAt '/' name ++ [last] = [given] ++ [word] := same
    obtain ⟨front, back⟩ := List.append_inj' parts rfl
    exact ⟨(List.cons.inj back).1, (Text.eq_of_splitAt_eq_singleton front).symm⟩
  have shape := of?_eq_some_iff.mp routed
  rw [puts, path, segments_append "collection" _ (by decide), whole] at shape
  cases route <;> simp [shapes] at shape
  case changeCollection given =>
    obtain ⟨isLast, rfl⟩ := single shape
    exact Or.inl ⟨isLast, rfl⟩
  case renameCollection given =>
    obtain ⟨isLast, rfl⟩ := single shape
    exact Or.inr ⟨isLast, rfl⟩

end Route

namespace Request

/-- A request to a resource other than collections, documents, transactions and
cursors. -/
def Apart (r : Request) : Prop :=
  ∃ head rest, Text.splitAt '/' r.path = head :: rest ∧
    head ∉ ["collection", "document", "transaction", "cursor"]

variable {r : Request}

theorem apart_at (head : String) (path : r.path = head) (plain : '/' ∉ head.toList)
    (apart : head ∉ ["collection", "document", "transaction", "cursor"]) : r.Apart := by
  refine ⟨head, [], ?_, apart⟩
  rw [path]
  exact Text.splitAt_of_notMem plain

theorem apart_below (head rest : String) (path : r.path = head ++ "/" ++ rest)
    (plain : '/' ∉ head.toList)
    (apart : head ∉ ["collection", "document", "transaction", "cursor"]) : r.Apart := by
  refine ⟨head, Text.splitAt '/' rest, ?_, apart⟩
  rw [path]
  exact Route.segments_append head rest plain

end Request

end DocStore
