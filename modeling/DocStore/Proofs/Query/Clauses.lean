/-
Module: DocStore.Proofs.Query.Clauses
Purpose: texts of whole clauses, put together to texts that are well scoped.
Main exports:
  Aql.Extends, Aql.Continues, Aql.Extends.wellScoped, Aql.Continues.clause, Aql.Extends.loop
-/
import DocStore.Proofs.Query.Mentions

namespace DocStore

namespace Aql

/-! ### Texts of whole clauses -/

/-- A text of whole clauses that fit what is known before it, with what is known after it. -/
structure Extends (operation : Operation) (b : Bindings) (text : String) (c : Bindings) :
    Prop where
  closed : (endState text).isClosed = true
  opened : (cut (tokens text)).1 = []
  run : Scoped operation b (phrases text) c

/-- A text of whole clauses that can stand behind others. -/
structure Continues (operation : Operation) (b : Bindings) (text : String) (c : Bindings) :
    Prop extends Extends operation b text c where
  fresh : startsFresh text.toList = true

section

variable {operation : Operation} {b c d : Bindings} {first second text : String}

theorem startsFresh_append {a text : List Char} (fresh : startsFresh a = true)
    (others : startsFresh text = true) : startsFresh (a ++ text) = true := by
  cases a with
  | nil => exact others
  | cons c a => exact fresh

theorem Extends.append (leads : Extends operation b first c)
    (goesOn : Continues operation c second d) : Extends operation b (first ++ second) d := by
  have read := tokens_append_of_fresh leads.closed goesOn.fresh
  have parts : cut (tokens first ++ tokens second) =
      ((cut (tokens first)).1, (cut (tokens first)).2 ++ (cut (tokens second)).2) :=
    cut_append goesOn.opened
  constructor
  · exact isClosed_append_of_fresh leads.closed goesOn.fresh goesOn.closed
  · rw [read, parts]
    exact leads.opened
  · rw [phrases, read, parts]
    exact leads.run.append goesOn.run

theorem Continues.append (leads : Continues operation b first c)
    (goesOn : Continues operation c second d) : Continues operation b (first ++ second) d where
  toExtends := leads.toExtends.append goesOn
  fresh := by
    rw [String.toList_append]
    exact startsFresh_append leads.fresh goesOn.fresh

theorem Continues.empty : Continues operation b "" b where
  closed := rfl
  opened := rfl
  run := .nil b
  fresh := rfl

theorem Extends.spaced (leads : Extends operation b text c) :
    Continues operation b (" " ++ text) c := by
  have led : endState " " = .rest := by decide
  have read : tokens (" " ++ text) = tokens text := tokens_append_of_rest led
  refine ⟨⟨?_, ?_, ?_⟩, ?_⟩
  · rw [endState_append_of_rest led]
    exact leads.closed
  · rw [read]
    exact leads.opened
  · rw [phrases, read]
    exact leads.run
  · rw [String.toList_append]
    rfl

/-- The clauses of a text that goes on from the start are well scoped. -/
theorem Extends.wellScoped (whole : Extends operation {} text c) : WellScoped operation text :=
  whole.run.wellScoped whole.opened

/-- A text that consists of one clause that fits. -/
theorem Extends.of_phrase {kind : ClauseKind} {t : Token} {body : List Token}
    {introduced : List (List Char)} (closed : (endState text).isClosed = true)
    (read : tokens text = t :: body) (starts : t.clauseKind? = some kind)
    (plain : ∀ t ∈ body, t.clauseKind? = none)
    (introduces : (Phrase.mk kind body).introduced = introduced)
    (fits : (Phrase.mk kind body).Fits operation b) :
    Extends operation b text (b.after kind introduced) := by
  have parts := cut_clause starts plain
  refine ⟨closed, ?_, ?_⟩
  · rw [read, parts]
  · rw [phrases, read, parts, ← introduces]
    exact .cons fits (.nil _)

/-- What a clause behind others starts with. -/
def ClauseKind.lead : ClauseKind → String
  | loop => " FOR "
  | search => " SEARCH "
  | filter => " FILTER "
  | collect => " COLLECT "
  | sort => " SORT "
  | limit => " LIMIT "
  | remove => " REMOVE "
  | update => " UPDATE "
  | result => " RETURN "

/-- Whether clauses of a kind introduce variables. -/
def ClauseKind.binds : ClauseKind → Bool
  | loop => true
  | collect => true
  | _ => false

theorem ClauseKind.tokens_lead (kind : ClauseKind) :
    tokens kind.lead = [.word kind.keyword.toList] ∧ endState kind.lead = .rest := by
  cases kind <;> decide

theorem ClauseKind.startsFresh_lead (kind : ClauseKind) (text : String) :
    startsFresh (kind.lead ++ text).toList = true := by
  rw [String.toList_append]
  cases kind <;> rfl

theorem clauseKind?_keyword (kind : ClauseKind) :
    (Token.word kind.keyword.toList).clauseKind? = some kind := by
  cases kind <;> decide

/-- A clause behind its keyword that introduces new variables and mentions visible ones. -/
theorem Continues.clause (kind : ClauseKind) (noLoop : kind ≠ .loop)
    {introduced pseudo : List (List Char)} (piece : Mentions introduced b.visible pseudo text)
    (once : (b.introduced ++ introduced).Nodup)
    (changed : ∀ v ∈ pseudo, kind = .result ∧ operation.pseudo? = some (String.ofList v)) :
    Continues operation b (kind.lead ++ text) (b.after kind introduced) := by
  obtain ⟨word, ends⟩ := kind.tokens_lead
  have read : tokens (kind.lead ++ text) = .word kind.keyword.toList :: tokens text := by
    rw [tokens_append_of_rest ends, word]
    rfl
  obtain ⟨found, isFound, reads⟩ := piece.found [] rfl
  rw [List.append_nil, roles, List.append_nil] at reads
  have known : (Phrase.mk kind (tokens text)).roles = found := by
    rw [Phrase.roles, if_neg noLoop, reads]
  have introduces : (Phrase.mk kind (tokens text)).introduced = introduced := by
    rw [Phrase.introduced, known, isFound.introduced]
  have closed : (endState (kind.lead ++ text)).isClosed = true := by
    rw [endState_append_of_rest ends]
    exact piece.closed
  refine ⟨.of_phrase closed read (clauseKind?_keyword kind) piece.plain introduces ?_,
    kind.startsFresh_lead text⟩
  constructor
  · rw [introduces]
    exact once
  · rw [Phrase.used, known]
    exact isFound.visible
  · rw [Phrase.pseudo, known]
    exact fun v member => changed v (isFound.pseudo v member)
  · exact fun loops => absurd loops noLoop

/-- A clause that introduces nothing leaves known what is known. -/
theorem Bindings.after_nil (b : Bindings) {kind : ClauseKind} (keeps : kind.binds = false) :
    b.after kind [] = b := by
  have noCollect : kind ≠ .collect := by
    rintro rfl
    cases keeps
  have other : (kind == .collect) = false := beq_eq_false_iff_ne.mpr noCollect
  simp [Bindings.after, noCollect, other]

/-- A clause that introduces nothing and does not return. -/
theorem Continues.using (kind : ClauseKind) (keeps : kind.binds = false)
    (piece : Mentions [] b.visible [] text) (once : b.introduced.Nodup) :
    Continues operation b (kind.lead ++ text) b := by
  have noLoop : kind ≠ .loop := by
    rintro rfl
    cases keeps
  have whole : Continues operation b (kind.lead ++ text) (b.after kind []) :=
    .clause kind noLoop piece (by simpa using once) (by simp)
  rwa [b.after_nil keeps] at whole

/-- What is returned can look at the documents that the operation has changed. -/
theorem Continues.returning {pseudo : List (List Char)}
    (piece : Mentions [] b.visible pseudo text) (once : b.introduced.Nodup)
    (changed : ∀ v ∈ pseudo, operation.pseudo? = some (String.ofList v)) :
    Continues operation b (" RETURN " ++ text) b := by
  have whole : Continues operation b (ClauseKind.result.lead ++ text) (b.after .result []) :=
    .clause .result (by decide) piece (by simpa using once) fun v member => ⟨rfl, changed v member⟩
  rwa [b.after_nil rfl] at whole

theorem Mentions.name {visible pseudo : List (List Char)} {name : String}
    (noBacktick : '`' ∉ name.toList) : Mentions [] visible pseudo ("`" ++ name ++ "`") := by
  have scanned := scan_backticks (s := .rest) rfl noBacktick
  apply Mentions.quiet
  · rw [endState, scanned]
    rfl
  · rw [tokens, scanned]
    rfl

/-- A loop introduces its variable. -/
theorem Extends.loop {v name : String} (named : IsVariable v) (noBacktick : '`' ∉ name.toList)
    (once : (b.introduced ++ [v.toList]).Nodup) (loops : b.collected = false) :
    Extends operation b (Query.loopText v name) (b.after .loop [v.toList]) := by
  have parts : Query.loopText v name = "FOR " ++ (v ++ (" IN " ++ ("`" ++ name ++ "`"))) := by
    apply String.toList_injective
    simp [Query.loopText]
  have led : endState "FOR " = .rest := by decide
  have inside : endState " IN " = .rest := by decide
  have closed : (endState v).isClosed = true := by
    rw [endState, named.scan]
    rfl
  have fresh : startsFresh (" IN " ++ ("`" ++ name ++ "`")).toList = true := by
    rw [String.toList_append]
    rfl
  have scanned := scan_backticks (s := .rest) rfl noBacktick
  have read : tokens (Query.loopText v name) =
      [.word "FOR".toList, .word v.toList, .word "IN".toList, .name name.toList] := by
    have quoted : tokens ("`" ++ name ++ "`") = [.name name.toList] := by
      rw [tokens, scanned]
      rfl
    rw [parts, tokens_append_of_rest led, tokens_append_of_fresh closed fresh,
      tokens_append_of_rest inside, tokens_of_scan_word named.scan, quoted]
    rfl
  have found : (Phrase.mk .loop [.word v.toList, .word "IN".toList, .name name.toList]).roles =
      [.introduced v.toList] := by
    rw [Phrase.roles, if_pos rfl, roles, place_of_isOrdinary named.ordinary]
    rfl
  have introduced : (Phrase.mk .loop
      [.word v.toList, .word "IN".toList, .name name.toList]).introduced = [v.toList] := by
    rw [Phrase.introduced, found]
    rfl
  refine .of_phrase ?_ read (clauseKind?_keyword .loop) ?_ introduced ?_
  · rw [parts, endState_append_of_rest led]
    refine isClosed_append_of_fresh closed fresh ?_
    rw [endState_append_of_rest inside, endState, scanned]
    rfl
  · simpa [Token.clauseKind?] using ⟨noClause_of_isOrdinary named.ordinary, by decide⟩
  · constructor
    · rw [introduced]
      exact once
    · rw [Phrase.used, found]
      simp [uses]
    · rw [Phrase.pseudo, found]
      simp [pseudos]
    · exact fun _ => loops

end

end Aql

end DocStore
