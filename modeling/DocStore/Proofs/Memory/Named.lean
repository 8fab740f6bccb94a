/-
Module: DocStore.Proofs.Memory.Named
Purpose: the transactions that requests name, and that a client names only transactions that
  it has begun, so that nobody else's requests concern them.
Main exports:
  Request.Names, Store.transaction_answer, Store.Owns, Unnamed, begins_once, Apart,
  apart_of_namesGiven, Exchange.NamesOwn, Transaction.among_begins,
  Exchange.namesOwn_withTransaction
-/
import DocStore.Proofs.Exchange.Race
import DocStore.Proofs.Memory.Names
import DocStore.Proofs.Memory.Transactions
import Mathlib.Data.List.Pairwise

namespace DocStore

open Exchange

/-! ### Naming a transaction -/

namespace Request

/-- Whether a request names a transaction: it belongs to it, commits it or aborts it. -/
def Names (id : String) (r : Request) : Prop :=
  r.transaction = some id ∨ Route.of? r = some (.commitTransaction id) ∨
    Route.of? r = some (.abortTransaction id)

/-- Whether a request names no transaction but that of a handle. -/
def NamesOnly (t : Option Transaction) (r : Request) : Prop :=
  ∀ id, r.Names id → ∃ handle ∈ t, handle.id = id

/-- Whether a request belongs to no transaction or to that of a handle. -/
def Inside (t : Option Transaction) (r : Request) : Prop :=
  r.transaction = none ∨ r.transaction = t.map (·.id)

variable {t : Option Transaction} {r : Request}

/-- A request that neither commits nor aborts names at most the transaction that it belongs
to. -/
theorem Inside.namesOnly (inside : r.Inside t)
    (unended : ∀ id, Route.of? r ≠ some (.commitTransaction id) ∧
      Route.of? r ≠ some (.abortTransaction id)) : r.NamesOnly t := by
  rintro id (own | commits | aborts)
  · rcases inside with outside | same
    · rw [outside] at own
      cases own
    · rw [same] at own
      exact Option.map_eq_some_iff.mp own
  · exact absurd commits (unended id).1
  · exact absurd aborts (unended id).2

end Request

namespace Transaction

theorem namesOnly_beginRequest (database : Option String) (write read : List String) :
    (beginRequest database write read).NamesOnly none := by
  apply Request.Inside.namesOnly (Or.inl rfl)
  intro id
  rw [route_beginRequest]
  exact ⟨nofun, nofun⟩

variable {t : Transaction} {α : Type}

theorem namesOnly_commitRequest (plain : '/' ∉ t.id.toList) :
    t.commitRequest.NamesOnly (some t) := by
  rintro id (own | commits | aborts)
  · cases own
  · rw [route_commitRequest plain] at commits
    cases commits
    exact ⟨t, rfl, rfl⟩
  · rw [route_commitRequest plain] at aborts
    cases aborts

theorem namesOnly_abortRequest (plain : '/' ∉ t.id.toList) :
    t.abortRequest.NamesOnly (some t) := by
  rintro id (own | commits | aborts)
  · cases own
  · rw [route_abortRequest plain] at commits
    cases commits
  · rw [route_abortRequest plain] at aborts
    cases aborts
    exact ⟨t, rfl, rfl⟩

/-- The end of a transaction names no other one. -/
theorem asks_finish (plain : '/' ∉ t.id.toList) (outcome : Except Error α) :
    (t.finish outcome).Asks (Request.NamesOnly (some t)) := by
  cases outcome with
  | ok value =>
      exact asks_bind (asks_command (namesOnly_commitRequest plain)) fun _ => asks_pure value
  | error e =>
      apply asks_bind (asks_attempt (asks_command (namesOnly_abortRequest plain)))
      intro aborted
      cases aborted with
      | ok => exact asks_fail e
      | error => exact asks_bind (asks_report _) fun _ => asks_fail e

end Transaction

/-! ### Requests that do not name a transaction -/

namespace Store

variable {s s' : Store} {t : Option Transaction} {p q : OpenTransaction → Prop}

/-- A request that does not name a transaction leaves it as it is, if the store gave its
name already. -/
theorem transaction_answer {r : Request} {number : Nat} (unnamed : ¬ r.Names (hexName number))
    (given : number ≤ s.names) :
    (Store.server.answer s r).2.transactions.get? (hexName number) =
      s.transactions.get? (hexName number) := by
  rcases answer_cases s r with ⟨_, refused⟩ | ⟨route, routed, _, answered⟩
  · rw [refused]
    rfl
  · rw [answered]
    cases within : route.isTransactional with
    | false =>
        obtain ⟨noted, about, after⟩ := transaction_perform (s.noteRequest r) r
          (r.body.getD .null) within (hexName number)
        have none : noted = [] := by
          apply List.eq_nil_iff_forall_not_mem.mpr
          intro u member
          exact unnamed (Or.inl (about u member).1)
        rw [after, none]
        change (s.transactions.get? (hexName number)).map _ = _
        cases s.transactions.get? (hexName number) <;> rfl
    | true =>
        cases route with
        | beginTransaction =>
            have unlike : hexName number ≠ hexName (s.names + 1) := by
              intro same
              have equal := hexName_injective same
              omega
            exact Dict.get?_insert_of_ne _ _ unlike
        | commitTransaction id =>
            have unlike : hexName number ≠ id := by
              rintro rfl
              exact unnamed (Or.inr (Or.inl routed))
            change ((s.noteRequest r).commitTransaction id).2.transactions.get? _ = _
            unfold commitTransaction
            split
            · rfl
            · exact (Dict.get?_erase _ _ _).trans (if_neg unlike)
        | abortTransaction id =>
            have unlike : hexName number ≠ id := by
              rintro rfl
              exact unnamed (Or.inr (Or.inr routed))
            change ((s.noteRequest r).abortTransaction id).2.transactions.get? _ = _
            unfold abortTransaction
            split
            · rfl
            · exact (Dict.get?_erase _ _ _).trans (if_neg unlike)
        | _ => cases within

/-- The transaction of a handle, if there is one, is open under a name that the store gave,
and is as described. -/
def Owns (t : Option Transaction) (p : OpenTransaction → Prop) (s : Store) : Prop :=
  ∀ handle ∈ t, ∃ number o, handle.id = hexName number ∧ number ≤ s.names ∧
    s.transactions.get? handle.id = some o ∧ p o

theorem owns_none (p : OpenTransaction → Prop) (s : Store) : s.Owns none p :=
  fun _ member => by cases member

theorem owns_begun (s : Store) (r : Request) (database : Option String) (write : List String) :
    (s.begun r write).Owns (some (Transaction.next s database)) fun o => o.undo = [] := by
  rintro handle ⟨⟩
  exact ⟨s.names + 1, _, rfl, Nat.le_refl _, Dict.get?_insert_self _ _ _, rfl⟩

theorem Owns.mono (owns : s.Owns t p) (weaker : ∀ o, p o → q o) : s.Owns t q := by
  intro handle member
  obtain ⟨number, o, name, given, found, is⟩ := owns handle member
  exact ⟨number, o, name, given, found, weaker o is⟩

theorem Owns.of_same (owns : s.Owns t p) (same : SameData s s') : s'.Owns t p := by
  intro handle member
  obtain ⟨number, o, name, given, found, is⟩ := owns handle member
  refine ⟨number, o, name, Nat.le_trans given same.names_le, ?_, is⟩
  rw [same.transactions_eq, found]

/-- After a write the transaction is still open. -/
theorem Owns.wrote (owns : s.Owns t p) (database name : String) (c : StoredCollection)
    (r : Request) (undos : List Undo) :
    ((s.putCollection database name c).noteUndos r undos).Owns t fun _ => True := by
  intro handle member
  obtain ⟨number, o, nameEq, given, found, _⟩ := owns handle member
  have onward := onward_noteUndos (s.putCollection database name c) r undos
  have kept : (s.putCollection database name c).transactions.get? handle.id = some o := found
  have after := transaction_noteUndos (s.putCollection database name c) r undos handle.id
  rw [kept] at after
  split at after
  · exact ⟨number, _, nameEq, Nat.le_trans given onward.names_le, after, trivial⟩
  · exact ⟨number, _, nameEq, Nat.le_trans given onward.names_le, after, trivial⟩

/-- Requests that do not name the transaction leave it. -/
theorem Owns.answer {r : Request} (owns : s.Owns t p)
    (unnamed : ∀ handle ∈ t, ¬ r.Names handle.id) : (Store.server.answer s r).2.Owns t p := by
  intro handle member
  obtain ⟨number, o, name, given, found, is⟩ := owns handle member
  refine ⟨number, o, name, Nat.le_trans given (onward_answer s r).names_le, ?_, is⟩
  have others := unnamed handle member
  rw [name] at others found ⊢
  rw [transaction_answer others given, found]

end Store

/-- Nobody else names the transaction of a handle, if there is one. -/
def Unnamed (t : Option Transaction) (events : List (Event Store)) : Prop :=
  ∀ event ∈ events, event.own = false → ∀ handle ∈ t, ¬ event.request.Names handle.id

theorem unnamed_none (events : List (Event Store)) : Unnamed none events :=
  fun _ _ _ _ member => by cases member

theorem Unnamed.of_subset {t : Option Transaction} {part events : List (Event Store)}
    (unnamed : Unnamed t events) (within : part ⊆ events) : Unnamed t part :=
  fun event member => unnamed event (within member)

theorem Unnamed.left {t : Option Transaction} {events more : List (Event Store)}
    (unnamed : Unnamed t (events ++ more)) : Unnamed t events :=
  unnamed.of_subset (List.subset_append_left events more)

theorem Unnamed.right {t : Option Transaction} {events more : List (Event Store)}
    (unnamed : Unnamed t (events ++ more)) : Unnamed t more :=
  unnamed.of_subset (List.subset_append_right events more)

theorem Store.Owns.waits {s s' : Store} {t : Option Transaction} {p : OpenTransaction → Prop}
    {events : List (Event Store)} (owns : s.Owns t p) (unnamed : Unnamed t events)
    (waits : Waits Store.server s events s') : s'.Owns t p :=
  waits.keeps (fun event member others kept => kept.answer (unnamed event member others)) owns

/-! ### Transactions that a client has begun -/

/-- Whether a transaction is begun by the event, under the name. -/
structure Exchange.Event.Begins (id : String) (event : Event Store) : Prop where
  outside : event.request.transaction = none
  routed : Route.of? event.request = some .beginTransaction
  name_eq : id = hexName (event.before.names + 1)

theorem Exchange.Event.begins_beginRequest (own : Bool) (s : Store) (database : Option String)
    (write : List String) :
    (⟨own, s, Transaction.beginRequest database write []⟩ : Event Store).Begins
      (Transaction.next s database).id :=
  ⟨rfl, Transaction.route_beginRequest database write [], rfl⟩

theorem Exchange.Event.Begins.names_lt {id : String} {event : Event Store}
    (begins : event.Begins id) : event.before.names < (event.after Store.server).names := by
  have answered := Store.answer_of_route (Store.knowsTransaction_none (s := event.before)
    begins.outside) begins.routed
  rw [Event.after, answered]
  exact Nat.lt_succ_self _

section

variable {s s' : Store} {events : List (Event Store)}

/-- No name is given twice. -/
theorem begins_once (traced : Traced Store.server s events s') (id : String) :
    events.Pairwise fun earlier later => earlier.Begins id → ¬ later.Begins id := by
  induction events generalizing s with
  | nil => exact .nil
  | cons event rest inductionHypothesis =>
      obtain ⟨rfl, following⟩ := traced
      refine .cons (fun later member begins again => ?_) (inductionHypothesis following)
      have onward := (following.keeps (I := fun s₁ => (event.after Store.server).names ≤ s₁.names)
        (fun s₁ r le => Nat.le_trans le (Store.onward_answer s₁ r).names_le)
        (Nat.le_refl _)).2 later member
      have before := begins.names_lt
      have same := hexName_injective (begins.name_eq.symm.trans again.name_eq)
      omega

/-- A client that names a transaction has begun one under this name. -/
def NamesGiven (events : List (Event Store)) : Prop :=
  ∀ event ∈ events, event.own = true → ∀ id, event.request.Names id →
    ∃ first ∈ events, first.own = true ∧ first.Begins id

/-- Nobody else names the transactions that a client has begun. -/
def Apart (events : List (Event Store)) : Prop :=
  ∀ first ∈ events, first.own = true → ∀ id, first.Begins id →
    ∀ event ∈ events, event.own = false → ¬ event.request.Names id

theorem Apart.left {more : List (Event Store)} (apart : Apart (events ++ more)) : Apart events :=
  fun first member own id begins event isIn =>
    apart first (List.mem_append_left more member) own id begins event
      (List.mem_append_left more isIn)

theorem Apart.right {more : List (Event Store)} (apart : Apart (events ++ more)) : Apart more :=
  fun first member own id begins event isIn =>
    apart first (List.mem_append_right events member) own id begins event
      (List.mem_append_right events isIn)

/-- If each of two clients names only what it has begun, they keep apart. -/
theorem apart_of_namesGiven (traced : Traced Store.server s events s')
    (given : NamesGiven (events.map Event.flip)) : Apart events := by
  intro first inEvents own id begins event member others names
  have isOwn : event.flip.own = true := by simp [others]
  obtain ⟨flipped, inFlipped, ownFlipped, again⟩ :=
    given event.flip (List.mem_map_of_mem member) isOwn id names
  obtain ⟨second, inSecond, rfl⟩ := List.mem_map.mp inFlipped
  have unlike : first ≠ second := by
    rintro rfl
    simp [own] at ownFlipped
  have : Std.Symm fun earlier later : Event Store => earlier.Begins id → ¬ later.Begins id :=
    ⟨fun _ _ once begins again => once again begins⟩
  exact (begins_once traced id).forall inEvents inSecond unlike begins
    ⟨again.outside, again.routed, again.name_eq⟩

theorem NamesGiven.append {more : List (Event Store)} (first : NamesGiven events)
    (second : NamesGiven more) : NamesGiven (events ++ more) := by
  intro event member own id names
  rcases List.mem_append.mp member with inFirst | inSecond
  · obtain ⟨start, inStart, is⟩ := first event inFirst own id names
    exact ⟨start, List.mem_append_left more inStart, is⟩
  · obtain ⟨start, inStart, is⟩ := second event inSecond own id names
    exact ⟨start, List.mem_append_right events inStart, is⟩

end

namespace Exchange

variable {α β : Type} {x : Exchange α}

/-- Whether an operation, whoever else is answered, names only transactions that it has
begun. -/
def NamesOwn (x : Exchange α) : Prop :=
  ∀ ⦃s events outcome s'⦄, x.Among Store.server s events outcome s' → NamesGiven events

/-- An operation that names no transaction at all. -/
theorem Asks.namesOwn (asks : x.Asks (Request.NamesOnly none)) : x.NamesOwn := by
  intro s events outcome s' run event member own id names
  obtain ⟨_, none, _⟩ := asks.own_requests run event member own id names
  cases none

theorem namesOwn_bind {f : α → Exchange β} (first : x.NamesOwn)
    (second : ∀ a, (f a).NamesOwn) : (x >>= f).NamesOwn := by
  intro s events outcome s' run
  rcases among_bind run with ⟨a, _, earlier, later, one, two, rfl⟩ | ⟨e, one, _⟩
  · exact (first one).append (second a two)
  · exact first one

theorem namesOwn_attempt (own : x.NamesOwn) : x.attempt.NamesOwn := by
  intro s events outcome s' run
  obtain ⟨given, _, run⟩ := among_attempt run
  exact own run

end Exchange

namespace Transaction

variable {s s' : Store} {database : Option String} {write : List String}
  {events : List (Event Store)}

/-- Beginning a transaction sends one request, and always succeeds. -/
theorem among_begins {outcome : Except Error Transaction}
    (run : (Transaction.begin database write []).Among Store.server s events outcome s') :
    ∃ earlier middle later,
      events = earlier ++ ⟨true, middle, beginRequest database write []⟩ :: later ∧
      Waits Store.server s earlier middle ∧ outcome = .ok (next middle database) ∧
      (Store.server.answer middle (beginRequest database write [])).2 =
        middle.begun (beginRequest database write []) write ∧
      Waits Store.server (middle.begun (beginRequest database write []) write) later s' := by
  have immediate : ∀ (result : Except Error Json) (f : Json → Exchange Transaction),
      (∀ body, ∃ given, f body = .done given) →
        ∃ given, (Exchange.done result).bind f = .done given := by
    intro result f each
    cases result with
    | error e => exact ⟨_, rfl⟩
    | ok body => exact each body
  obtain ⟨earlier, middle, later, split, waiting, ends, after⟩ := among_single rfl
    (fun reply => immediate reply.result _ fun body => by split <;> exact ⟨_, rfl⟩) run
  obtain ⟨rfl, state⟩ := ends.unique (ends_begin middle database write [])
  refine ⟨earlier, middle, later, split, waiting, rfl, state, ?_⟩
  rw [← state]
  exact after

end Transaction

/-- A client owns the transaction that it has begun: nobody else names it. -/
theorem Transaction.among_begins_owned {database : Option String} {write : List String}
    {s s' : Store} {events later : List (Event Store)} {t : Transaction}
    (apart : Apart (events ++ later))
    (run : (Transaction.begin database write []).Among Store.server s events (.ok t) s') :
    t.database = database ∧ Unnamed (some t) (events ++ later) ∧
      s'.Owns (some t) fun o => o.undo = [] := by
  obtain ⟨earlier, middle, rest, rfl, _, is, _, after⟩ := among_begins run
  cases is
  have unnamed : Unnamed (some (next middle database))
      ((earlier ++ ⟨true, middle, beginRequest database write []⟩ :: rest) ++ later) := by
    rintro event member others handle ⟨⟩
    exact apart ⟨true, middle, beginRequest database write []⟩ (by simp) rfl _
      (Event.begins_beginRequest true middle database write) event member others
  have within : rest ⊆ (earlier ++ ⟨true, middle, beginRequest database write []⟩ :: rest) ++
      later := fun event member => by simp [member]
  exact ⟨rfl, unnamed, (Store.owns_begun middle _ database write).waits
    (unnamed.of_subset within) after⟩

/-- An operation in a transaction of its own, whose requests name no other one. -/
theorem Exchange.namesOwn_withTransaction {α : Type} {operation : Transaction → Exchange α}
    (database : Option String) (write : List String)
    (asks : ∀ t, (operation t).Asks (Request.NamesOnly (some t))) :
    (withTransaction database write operation).NamesOwn := by
  intro s events outcome s' run
  rcases among_bind run with ⟨t, _, first, second, begins, rest, rfl⟩ | ⟨e, begins, _⟩
  · obtain ⟨earlier, middle, later, rfl, before, is, _, after⟩ := Transaction.among_begins begins
    cases is
    have plain : '/' ∉ (Transaction.next middle database).id.toList := slash_notMem_hexName _
    have inside : ((operation (Transaction.next middle database)).attempt >>= fun outcome =>
        (Transaction.next middle database).finish outcome).Asks
          (Request.NamesOnly (some (Transaction.next middle database))) :=
      asks_bind (asks_attempt (asks _)) fun outcome => Transaction.asks_finish plain outcome
    have start := Event.begins_beginRequest true middle database write
    intro event member own id names
    refine ⟨⟨true, middle, Transaction.beginRequest database write []⟩, by simp, rfl, ?_⟩
    rcases List.mem_append.mp member with inFirst | inSecond
    · rcases List.mem_append.mp inFirst with inEarlier | inLater
      · rw [before.own_eq_false event inEarlier] at own
        cases own
      · rcases List.mem_cons.mp inLater with rfl | inLater
        · obtain ⟨_, none, _⟩ := Transaction.namesOnly_beginRequest database write [] id names
          cases none
        · rw [after.own_eq_false event inLater] at own
          cases own
    · obtain ⟨handle, is, rfl⟩ := inside.own_requests rest event inSecond own id names
      cases is
      exact start
  · obtain ⟨_, _, _, _, _, is, _⟩ := Transaction.among_begins begins
    cases is

end DocStore
