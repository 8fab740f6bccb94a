/-
Module: DocStore.Proofs.Query.Scoping
Purpose: the clauses of a query text with the variables that each of them introduces and
  uses, when the clauses are well scoped, and a run over the clauses that shows it.
Main exports:
  Aql.Role, Aql.roles, Aql.Phrase, Aql.cut, Aql.WellScoped, Aql.Scoped,
  Aql.Scoped.wellScoped
-/
import DocStore.Proofs.Query.Token
import Mathlib.Data.List.Nodup
import Mathlib.Data.List.Pairwise

namespace DocStore

/-- The variable that stands for the document before or after its change. -/
def Operation.pseudo? : Operation → Option String
  | .select => none
  | .delete => some "OLD"
  | .update => some "NEW"

namespace Aql

/-! ### Keywords -/

/-- The clauses of a query text. -/
inductive ClauseKind where
  | loop
  | search
  | filter
  | collect
  | sort
  | limit
  | remove
  | update
  | result
deriving DecidableEq, Repr

namespace ClauseKind

/-- The keyword that a clause starts with. -/
def keyword : ClauseKind → String
  | loop => "FOR"
  | search => "SEARCH"
  | filter => "FILTER"
  | collect => "COLLECT"
  | sort => "SORT"
  | limit => "LIMIT"
  | remove => "REMOVE"
  | update => "UPDATE"
  | result => "RETURN"

/-- All kinds of clauses. -/
def all : List ClauseKind :=
  [loop, search, filter, collect, sort, limit, remove, update, result]

end ClauseKind

/-- The clause that a word starts.  A keyword can be written in small letters too. -/
def clauseKind? (letters : List Char) : Option ClauseKind :=
  ClauseKind.all.find? fun kind => kind.keyword.toList == letters.map Char.toUpper

/-- The keywords that stand inside of clauses. -/
def innerKeywords : List String :=
  ["IN", "INTO", "WITH", "COUNT", "ASC", "DESC", "DISTINCT", "NULL", "TRUE", "FALSE", "NOT",
    "AND", "OR", "LIKE"]

/-- Whether a word is a keyword that stands inside of clauses. -/
def isInnerKeyword (letters : List Char) : Bool :=
  innerKeywords.any fun keyword => keyword.toList == letters.map Char.toUpper

/-- Whether a word stands for a changed document.  These words are written in capitals. -/
def isPseudo (letters : List Char) : Bool :=
  letters == "OLD".toList || letters == "NEW".toList

/-- The clause that a token starts. -/
def Token.clauseKind? : Token → Option ClauseKind
  | .word letters => Aql.clauseKind? letters
  | _ => none

/-! ### What a word is there for -/

/-- What a clause does with a variable. -/
inductive Role where
  | introduced (name : List Char)
  | used (name : List Char)
  | pseudo (name : List Char)
deriving DecidableEq, Repr

/-- Where a token stands: behind `FOR` or `INTO`, where a variable is introduced; behind a
point or an at sign, where a word names an attribute or a parameter; or elsewhere. -/
inductive Place where
  | free
  | introducing
  | inside
deriving DecidableEq, Repr

/-- The place behind a token of a clause. -/
def Token.place : Token → Place
  | .word letters => if letters.map Char.toUpper = "INTO".toList then .introducing else .free
  | .sign c => if c = '.' ∨ c = '@' then .inside else .free
  | _ => .free

/-- Whether a word before these tokens is given a value: a single equals sign follows. -/
def startsValue (after : List Token) : Bool :=
  after.head? == some (.sign '=') && after.tail.head? != some (.sign '=')

/-- Whether a word before these tokens is the name of a function, the space of such a name,
or a key: a parenthesis or a colon follows. -/
def startsCall (after : List Token) : Bool :=
  after.head? == some (.sign '(') || after.head? == some (.sign ':')

/-- What a clause does with a word at a place and before other tokens. -/
def role (place : Place) (letters : List Char) (after : List Token) : List Role :=
  match place with
  | .inside => []
  | .introducing => [.introduced letters]
  | .free =>
      if isPseudo letters then [.pseudo letters]
      else if isInnerKeyword letters || startsCall after then []
      else if startsValue after then [.introduced letters]
      else [.used letters]

/-- What a clause does with the words among its tokens, from the first to the last. -/
def roles : Place → List Token → List Role
  | _, [] => []
  | place, .word letters :: after =>
      role place letters after ++ roles (Token.word letters).place after
  | _, t :: after => roles t.place after

/-- The variables that are introduced. -/
def introductions (found : List Role) : List (List Char) :=
  found.filterMap fun
    | .introduced v => some v
    | _ => none

/-- The variables that are used. -/
def uses (found : List Role) : List (List Char) :=
  found.filterMap fun
    | .used v => some v
    | _ => none

/-- The words for a changed document. -/
def pseudos (found : List Role) : List (List Char) :=
  found.filterMap fun
    | .pseudo v => some v
    | _ => none

/-! ### Clauses -/

/-- A clause: its kind, and its tokens behind the keyword. -/
structure Phrase where
  kind : ClauseKind
  body : List Token
deriving DecidableEq, Repr

namespace Phrase

/-- What a clause does with its words. -/
def roles (p : Phrase) : List Role :=
  Aql.roles (if p.kind = .loop then .introducing else .free) p.body

/-- The variables that a clause introduces. -/
def introduced (p : Phrase) : List (List Char) :=
  introductions p.roles

/-- The variables that a clause uses. -/
def used (p : Phrase) : List (List Char) :=
  uses p.roles

/-- The words for a changed document in a clause. -/
def pseudo (p : Phrase) : List (List Char) :=
  pseudos p.roles

end Phrase

/-- The tokens before the first clause, and the clauses. -/
def cut : List Token → List Token × List Phrase
  | [] => ([], [])
  | t :: ts =>
      match t.clauseKind? with
      | some kind => ([], ⟨kind, (cut ts).1⟩ :: (cut ts).2)
      | none => (t :: (cut ts).1, (cut ts).2)

/-- The clauses of a query text. -/
def phrases (text : String) : List Phrase :=
  (cut (tokens text)).2

/-- Variables are used in later clauses than those that introduce them. -/
def UsedAfter (ps : List Phrase) : Prop :=
  ∀ i (inside : i < ps.length), ∀ v ∈ ps[i].used, ∃ p ∈ ps.take i, v ∈ p.introduced

/-- What a `FOR` introduces is not used behind a `COLLECT`. -/
def LoopsHidden (ps : List Phrase) : Prop :=
  ∀ i (inside : i < ps.length), ∀ c ∈ ps.take i, c.kind = .collect →
    ∀ l ∈ ps, l.kind = .loop → ∀ v ∈ l.introduced, v ∉ ps[i].used

/-- Changed documents are looked at only where the operation that changes them returns. -/
def ChangesReturned (operation : Operation) (ps : List Phrase) : Prop :=
  ∀ p ∈ ps, ∀ v ∈ p.pseudo, p.kind = .result ∧ operation.pseudo? = some (String.ofList v)

instance (ps : List Phrase) : Decidable (UsedAfter ps) :=
  inferInstanceAs (Decidable (∀ i (inside : i < ps.length), ∀ v ∈ ps[i].used,
    ∃ p ∈ ps.take i, v ∈ p.introduced))

instance (ps : List Phrase) : Decidable (LoopsHidden ps) :=
  inferInstanceAs (Decidable (∀ i (inside : i < ps.length), ∀ c ∈ ps.take i,
    c.kind = .collect → ∀ l ∈ ps, l.kind = .loop → ∀ v ∈ l.introduced, v ∉ ps[i].used))

instance (operation : Operation) (ps : List Phrase) : Decidable (ChangesReturned operation ps) :=
  inferInstanceAs (Decidable (∀ p ∈ ps, ∀ v ∈ p.pseudo,
    p.kind = .result ∧ operation.pseudo? = some (String.ofList v)))

/-- A text of clauses that introduces every variable once and uses it in its scope. -/
structure WellScoped (operation : Operation) (text : String) : Prop where
  opened : (cut (tokens text)).1 = []
  introducedOnce : ((phrases text).flatMap Phrase.introduced).Nodup
  usedAfter : UsedAfter (phrases text)
  loopsHidden : LoopsHidden (phrases text)
  changesReturned : ChangesReturned operation (phrases text)

instance (operation : Operation) (text : String) : Decidable (WellScoped operation text) :=
  decidable_of_iff
    ((cut (tokens text)).1 = [] ∧ ((phrases text).flatMap Phrase.introduced).Nodup ∧
      UsedAfter (phrases text) ∧ LoopsHidden (phrases text) ∧
        ChangesReturned operation (phrases text))
    ⟨fun ⟨opened, introducedOnce, usedAfter, loopsHidden, changesReturned⟩ =>
      ⟨opened, introducedOnce, usedAfter, loopsHidden, changesReturned⟩,
    fun whole => ⟨whole.opened, whole.introducedOnce, whole.usedAfter, whole.loopsHidden,
      whole.changesReturned⟩⟩

/-- A variable is hidden by a `COLLECT`, whose own variable takes its place. -/
example :
    WellScoped .select "FOR u0 IN `users` COLLECT u0_age = u0.`age` RETURN [ u0_age ]" ∧
      ¬ WellScoped .select "FOR u0 IN `users` COLLECT u0_age = u0.`age` RETURN [ u0.`age` ]" := by
  decide

theorem cut_append {ts us : List Token} (opened : (cut us).1 = []) :
    cut (ts ++ us) = ((cut ts).1, (cut ts).2 ++ (cut us).2) := by
  induction ts with
  | nil => rw [List.nil_append, cut, List.nil_append, ← opened]
  | cons t ts inductionHypothesis =>
      rw [List.cons_append, cut, cut, inductionHypothesis]
      cases t.clauseKind? <;> rfl

/-- Tokens that start no clause belong to the clause before them. -/
theorem cut_of_plain {ts : List Token} (plain : ∀ t ∈ ts, t.clauseKind? = none) :
    cut ts = (ts, []) := by
  induction ts with
  | nil => rfl
  | cons t ts inductionHypothesis =>
      rw [List.forall_mem_cons] at plain
      rw [cut, plain.1, inductionHypothesis plain.2]

theorem cut_clause {t : Token} {kind : ClauseKind} (starts : t.clauseKind? = some kind)
    {body : List Token} (plain : ∀ t ∈ body, t.clauseKind? = none) :
    cut (t :: body) = ([], [⟨kind, body⟩]) := by
  rw [cut, starts, cut_of_plain plain]

/-! ### A run over the clauses -/

/-- What is known between two clauses: the variables introduced so far, those that can be
used, and whether a `COLLECT` has hidden any. -/
structure Bindings where
  introduced : List (List Char) := []
  visible : List (List Char) := []
  collected : Bool := false

/-- What is known after a clause of a kind that introduces variables. -/
def Bindings.after (b : Bindings) (kind : ClauseKind) (introduced : List (List Char)) :
    Bindings where
  introduced := b.introduced ++ introduced
  visible := if kind = .collect then introduced else b.visible ++ introduced
  collected := b.collected || kind == .collect

/-- A clause that introduces new variables, uses visible ones, and looks at changed
documents only where they are returned.  Loops come before every `COLLECT`. -/
structure Phrase.Fits (operation : Operation) (b : Bindings) (p : Phrase) : Prop where
  fresh : (b.introduced ++ p.introduced).Nodup
  visible : ∀ v ∈ p.used, v ∈ b.visible
  changed : ∀ v ∈ p.pseudo, p.kind = .result ∧ operation.pseudo? = some (String.ofList v)
  loops : p.kind = .loop → b.collected = false

/-- Clauses that fit one after the other, with what is known before and after them. -/
inductive Scoped (operation : Operation) : Bindings → List Phrase → Bindings → Prop where
  | nil (b : Bindings) : Scoped operation b [] b
  | cons {b c : Bindings} {p : Phrase} {ps : List Phrase} (fits : p.Fits operation b)
      (rest : Scoped operation (b.after p.kind p.introduced) ps c) :
      Scoped operation b (p :: ps) c

/-- What is known after some clauses from the start on. -/
structure Bindings.Known (before : List Phrase) (b : Bindings) : Prop where
  introduced : b.introduced = before.flatMap Phrase.introduced
  once : b.introduced.Nodup
  visible : ∀ v ∈ b.visible, ∃ p ∈ before, v ∈ p.introduced
  collected : ∀ p ∈ before, p.kind = .collect → b.collected = true
  hidden : b.collected = true →
    ∀ v ∈ b.visible, ∃ p ∈ before, v ∈ p.introduced ∧ p.kind ≠ .loop

theorem Bindings.known_start : Bindings.Known [] {} where
  introduced := rfl
  once := .nil
  visible := by simp
  collected := by simp
  hidden := by simp

/-- A clause that fits keeps what is known right. -/
theorem Bindings.Known.after {operation : Operation} {before : List Phrase} {b : Bindings}
    (known : b.Known before) {p : Phrase} (fits : p.Fits operation b) :
    (b.after p.kind p.introduced).Known (before ++ [p]) where
  introduced := by simp [Bindings.after, known.introduced]
  once := fits.fresh
  visible := by
    intro v member
    have own : v ∈ p.introduced → ∃ p' ∈ before ++ [p], v ∈ p'.introduced :=
      fun named => ⟨p, by simp, named⟩
    unfold Bindings.after at member
    dsimp only at member
    split at member
    · exact own member
    · rcases List.mem_append.mp member with earlier | here
      · obtain ⟨p', inside, named⟩ := known.visible v earlier
        exact ⟨p', List.mem_append_left _ inside, named⟩
      · exact own here
  collected := by
    intro p' inside collects
    rcases List.mem_append.mp inside with earlier | here
    · simp [Bindings.after, known.collected p' earlier collects]
    · obtain rfl := List.mem_singleton.mp here
      simp [Bindings.after, collects]
  hidden := by
    intro collected v member
    unfold Bindings.after at collected member
    dsimp only at collected member
    split at member
    · next collects => exact ⟨p, by simp, member, by simp [collects]⟩
    · next noCollect =>
        have already : b.collected = true := by simpa [noCollect] using collected
        rcases List.mem_append.mp member with earlier | here
        · obtain ⟨p', inside, named, noLoop⟩ := known.hidden already v earlier
          exact ⟨p', List.mem_append_left _ inside, named, noLoop⟩
        · refine ⟨p, by simp, here, fun loops => ?_⟩
          have noneCollected := fits.loops loops
          rw [already] at noneCollected
          cases noneCollected

/-- What is known stays right along the whole run. -/
theorem Scoped.known {operation : Operation} {b c : Bindings} {ps : List Phrase}
    (run : Scoped operation b ps c) {before : List Phrase} (known : b.Known before) :
    c.Known (before ++ ps) := by
  induction run generalizing before with
  | nil b => simpa using known
  | cons fits _ inductionHypothesis => simpa using inductionHypothesis (known.after fits)

theorem Scoped.append {operation : Operation} {b c d : Bindings} {ps qs : List Phrase}
    (first : Scoped operation b ps c) (second : Scoped operation c qs d) :
    Scoped operation b (ps ++ qs) d := by
  induction first with
  | nil _ => exact second
  | cons fits _ inductionHypothesis => exact .cons fits (inductionHypothesis second)

theorem Scoped.split {operation : Operation} {b d : Bindings} {ps qs : List Phrase}
    (run : Scoped operation b (ps ++ qs) d) :
    ∃ c, Scoped operation b ps c ∧ Scoped operation c qs d := by
  induction ps generalizing b with
  | nil => exact ⟨b, .nil b, run⟩
  | cons p ps inductionHypothesis =>
      cases run with
      | cons fits rest =>
          obtain ⟨c, first, second⟩ := inductionHypothesis rest
          exact ⟨c, .cons fits first, second⟩

/-- Every clause of a run fits what is known from the clauses before it. -/
theorem Scoped.fits_at {operation : Operation} {c : Bindings} {ps : List Phrase}
    (run : Scoped operation {} ps c) {i : Nat} (inside : i < ps.length) :
    ∃ b : Bindings, b.Known (ps.take i) ∧ ps[i].Fits operation b := by
  have parts : ps = ps.take i ++ ps[i] :: ps.drop (i + 1) := by
    rw [← List.drop_eq_getElem_cons inside, List.take_append_drop]
  rw [parts] at run
  obtain ⟨b, first, second⟩ := run.split
  cases second with
  | cons fits _ => exact ⟨b, first.known Bindings.known_start, fits⟩

/-- The clauses of a run from the start on are well scoped. -/
theorem Scoped.wellScoped {operation : Operation} {c : Bindings} {text : String}
    (opened : (cut (tokens text)).1 = []) (run : Scoped operation {} (phrases text) c) :
    WellScoped operation text where
  opened := opened
  introducedOnce := by
    have known := run.known Bindings.known_start
    rw [List.nil_append] at known
    rw [← known.introduced]
    exact known.once
  usedAfter := by
    intro i inside v used
    obtain ⟨b, known, fits⟩ := run.fits_at inside
    exact known.visible v (fits.visible v used)
  loopsHidden := by
    intro i inside c member collects l loop isLoop v introduced used
    obtain ⟨b, known, fits⟩ := run.fits_at inside
    obtain ⟨p, earlier, named, noLoop⟩ :=
      known.hidden (known.collected c member collects) v (fits.visible v used)
    -- Otherwise both clauses introduce the variable, and they are two: one is a loop.
    have once := (run.known Bindings.known_start).once
    rw [(run.known Bindings.known_start).introduced, List.nil_append,
      List.nodup_flatMap] at once
    have symmetric : Std.Symm (Function.onFun List.Disjoint Phrase.introduced) :=
      ⟨fun _ _ disjoint _ here there => disjoint there here⟩
    have other : p ≠ l := by
      rintro rfl
      exact noLoop isLoop
    exact once.2.forall (List.mem_of_mem_take earlier) loop other named introduced
  changesReturned := by
    intro p member
    obtain ⟨i, inside, rfl⟩ := List.mem_iff_getElem.mp member
    obtain ⟨b, _, fits⟩ := run.fits_at inside
    exact fits.changed

end Aql

end DocStore
