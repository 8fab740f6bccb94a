/-
Module: DocStore.Proofs.Exchange.Reading
Purpose: reading a cursor as a loop without a bound on the pages, and when the bounded reading
  comes to the same.
Main exports:
  Server.Reads, Server.Reads.unique, Server.Reads.follow_eq, Server.Reads.drain_eq
-/
import DocStore.Proofs.Exchange.Run

namespace DocStore

namespace Server

variable {σ : Type}

/-- The reading of a cursor comes to its end, however many pages that takes: the requests that it
sends, its outcome, and the state of the server afterwards. -/
inductive Reads (server : Server σ) :
    σ → CursorRead → List Request → Except Error (List Json) → σ → Prop where
  | finished {s cursor outcome}
      (received : cursor.receive (server.answer s cursor.request).1 = .finished outcome) :
      Reads server s cursor [cursor.request] outcome (server.answer s cursor.request).2
  | more {s cursor next sent outcome s'}
      (received : cursor.receive (server.answer s cursor.request).1 = .more next)
      (rest : Reads server (server.answer s cursor.request).2 next sent outcome s') :
      Reads server s cursor (cursor.request :: sent) outcome s'

namespace Reads

variable {server : Server σ} {s s' : σ} {cursor : CursorRead} {sent : List Request}
  {outcome : Except Error (List Json)}

/-- There is only one way to read a cursor to its end. -/
theorem unique {sentAlso : List Request} {other : Except Error (List Json)} {s₁ : σ}
    (one : server.Reads s cursor sent outcome s')
    (two : server.Reads s cursor sentAlso other s₁) :
    sent = sentAlso ∧ outcome = other ∧ s' = s₁ := by
  induction one generalizing sentAlso with
  | finished received =>
      cases two with
      | finished receivedAlso =>
          cases received.symm.trans receivedAlso
          exact ⟨rfl, rfl, rfl⟩
      | more receivedAlso _ => cases received.symm.trans receivedAlso
  | more received _ inductionHypothesis =>
      cases two with
      | finished receivedAlso => cases received.symm.trans receivedAlso
      | more receivedAlso rest =>
          cases received.symm.trans receivedAlso
          obtain ⟨rfl, rfl, rfl⟩ := inductionHypothesis rest
          exact ⟨rfl, rfl, rfl⟩

theorem length_pos (reads : server.Reads s cursor sent outcome s') : 0 < sent.length := by
  cases reads <;> exact Nat.succ_pos _

/-- Reading on with a bound is reading on, if the bound is not reached. -/
theorem follow_eq (reads : server.Reads s cursor sent outcome s') {pages : Nat}
    (enough : sent.length ≤ pages + 1) :
    server.follow pages s cursor = ⟨outcome, s', sent, []⟩ := by
  induction reads generalizing pages with
  | finished received => exact server.follow_finished _ _ pages received
  | more received rest inductionHypothesis =>
      rw [List.length_cons] at enough
      have further := rest.length_pos
      cases pages with
      | zero => omega
      | succ pages =>
          rw [server.follow_succ_more _ _ pages received,
            inductionHypothesis (Nat.le_of_succ_le_succ enough)]

/-- The same of a whole reading, of which the first answer sets the bound. -/
theorem drain_eq (reads : server.Reads s cursor sent outcome s')
    (enough : sent.length ≤ server.pagesLeft (server.answer s cursor.request).2 + 2) :
    server.drain s cursor = ⟨outcome, s', sent, []⟩ := by
  cases reads with
  | finished received => exact server.drain_finished _ _ received
  | more received rest =>
      rw [server.drain_more _ _ received, rest.follow_eq (Nat.le_of_succ_le_succ enough)]

end Reads

end Server

end DocStore
