/-
Module: DocStore.Proofs.Query.Precedence
Purpose: the text of a segment of conditions, read with the precedence of its connectives, means
  the conditions joined one after the other.
Main exports:
  ConditionTree, conditionTokens?, ReadAs, ReadAs.unique, Clause.leftFold,
  Query.segmentText_read
-/
import DocStore.Proofs.Fallible
import DocStore.Proofs.Query.Meaning
import DocStore.Proofs.Text.Occurrence

namespace DocStore

open Text

/-! ### Trees of conditions -/

/-- Conditions joined by connectives, each of them by its position. -/
inductive ConditionTree where
  | atom (position : Nat)
  | join (connective : Connective) (left right : ConditionTree)
deriving DecidableEq, Repr

/-- Whether joined conditions hold, if it is known which of them do. -/
def ConditionTree.value (truth : Nat → Bool) : ConditionTree → Bool
  | atom position => truth position
  | join connective left right => connective.join (left.value truth) (right.value truth)

/-- Clauses joined one after the other, each by its own connective to what is before it.  The
connective of the first one does not count. -/
def Clause.leftFold (truth : Nat → Bool) (clauses : List Clause) : Bool :=
  match clauses.zipIdx with
  | [] => true
  | (_, position) :: rest =>
      rest.foldl (fun before c => c.1.connective.join before (truth c.2)) (truth position)

/-! ### Reading the text of a segment -/

/-- What the text of a segment consists of: parentheses, connectives, and the conditions that
were put in parentheses, by their positions. -/
inductive ConditionToken where
  | opening
  | closing
  | connective (connective : Connective)
  | atom (position : Nat)
deriving DecidableEq, Repr

/-- The sign at the start of a text, and how many more characters belong to it.  Spaces stand
for nothing. -/
def readSign? : List Char → Option (List ConditionToken × Nat)
  | ' ' :: _ => some ([], 0)
  | '(' :: _ => some ([.opening], 0)
  | ')' :: _ => some ([.closing], 0)
  | '&' :: '&' :: _ => some ([.connective .and], 1)
  | '|' :: '|' :: _ => some ([.connective .or], 1)
  | _ => none

/-- The tokens of a text in which conditions stand that are written as `atoms`, in this order
and the first of them at `position`, when the next `skip` characters are read already.
Whatever a condition looks like inside, it is one token. -/
def conditionTokens? (position : Nat) (atoms : List (List Char)) :
    Nat → List Char → Option (List ConditionToken)
  | _, [] => if atoms.isEmpty then some [] else none
  | skip + 1, _ :: text => conditionTokens? position atoms skip text
  | 0, c :: text =>
      match atoms with
      | [] => do
          let (tokens, skip) ← readSign? (c :: text)
          (conditionTokens? position [] skip text).map (tokens ++ ·)
      | atom :: others =>
          if (dropLeading? atom (c :: text)).isSome then
            (conditionTokens? (position + 1) others (atom.length - 1) text).map
              (.atom position :: ·)
          else do
            let (tokens, skip) ← readSign? (c :: text)
            (conditionTokens? position (atom :: others) skip text).map (tokens ++ ·)

/-- How tightly a row of tokens holds together: a condition or a parenthesis, a conjunction, or
a disjunction. -/
inductive Strength where
  | single
  | conjunction
  | disjunction
deriving DecidableEq, Repr

/-- The tree that a row of tokens is read as.  `&&` binds tighter than `||`, both join from the
left, and parentheses group. -/
inductive ReadAs : Strength → List ConditionToken → ConditionTree → Prop where
  | atom (position : Nat) : ReadAs .single [.atom position] (.atom position)
  | group {tokens : List ConditionToken} {tree : ConditionTree}
      (inner : ReadAs .disjunction tokens tree) :
      ReadAs .single (.opening :: (tokens ++ [.closing])) tree
  | conjunct {tokens : List ConditionToken} {tree : ConditionTree}
      (alone : ReadAs .single tokens tree) : ReadAs .conjunction tokens tree
  | and {tokens more : List ConditionToken} {left right : ConditionTree}
      (before : ReadAs .conjunction tokens left) (last : ReadAs .single more right) :
      ReadAs .conjunction (tokens ++ .connective .and :: more) (.join .and left right)
  | disjunct {tokens : List ConditionToken} {tree : ConditionTree}
      (alone : ReadAs .conjunction tokens tree) : ReadAs .disjunction tokens tree
  | or {tokens more : List ConditionToken} {left right : ConditionTree}
      (before : ReadAs .disjunction tokens left) (last : ReadAs .conjunction more right) :
      ReadAs .disjunction (tokens ++ .connective .or :: more) (.join .or left right)

/-! ### No row of tokens is read in two ways

Tokens are read from left to right.  What is read of a disjunction is kept apart from what is
read of its last conjunction, for the text and for each parenthesis that is open.
-/

/-- The read part of a disjunction: the conjunctions before the last one, and the last one. -/
structure Pending where
  disjunction : Option ConditionTree := none
  conjunction : Option ConditionTree := none

/-- Join a tree to what is before it, if anything is. -/
def joinTo (connective : Connective) : Option ConditionTree → ConditionTree → ConditionTree
  | none, tree => tree
  | some before, tree => .join connective before tree

namespace Pending

/-- Read a further condition or parenthesis. -/
def take (p : Pending) (tree : ConditionTree) : Pending :=
  { p with conjunction := some (joinTo .and p.conjunction tree) }

/-- All that is read. -/
def whole? (p : Pending) : Option ConditionTree :=
  match p.conjunction with
  | none => p.disjunction
  | some tree => some (joinTo .or p.disjunction tree)

/-- Read a token, with the parts that wait outside of the open parentheses. -/
def step : List Pending × Pending → ConditionToken → List Pending × Pending
  | (outside, p), .atom position => (outside, p.take (.atom position))
  | (outside, p), .connective .and => (outside, p)
  | (outside, p), .connective .or => (outside, { disjunction := p.whole? })
  | (outside, p), .opening => (p :: outside, {})
  | (before :: outside, p), .closing => (outside, (p.whole?.map before.take).getD before)
  | ([], p), .closing => ([], p)

/-- Read tokens one after the other. -/
def run (state : List Pending × Pending) (tokens : List ConditionToken) :
    List Pending × Pending :=
  tokens.foldl step state

theorem run_append (state : List Pending × Pending) (tokens more : List ConditionToken) :
    run state (tokens ++ more) = run (run state tokens) more :=
  List.foldl_append

end Pending

open Pending

/-- What reading a row of tokens adds to the part read before it. -/
def Adds (strength : Strength) (tokens : List ConditionToken) (tree : ConditionTree) : Prop :=
  match strength with
  | .single => ∀ outside p, run (outside, p) tokens = (outside, p.take tree)
  | .conjunction => ∀ outside p, p.conjunction = none →
      run (outside, p) tokens = (outside, { p with conjunction := some tree })
  | .disjunction => ∀ outside, ∃ p, run (outside, {}) tokens = (outside, p) ∧ p.whole? = some tree

theorem ReadAs.adds {strength : Strength} {tokens : List ConditionToken} {tree : ConditionTree}
    (reads : ReadAs strength tokens tree) : Adds strength tokens tree := by
  induction reads with
  | atom position => exact fun _ _ => rfl
  | group inner inductionHypothesis =>
      intro outside p
      obtain ⟨within, reads, whole⟩ := inductionHypothesis (p :: outside)
      have opened : run (outside, p) [.opening] = (p :: outside, {}) := rfl
      rw [← List.singleton_append, run_append, opened, run_append, reads]
      simp [run, step, whole]
  | conjunct alone inductionHypothesis =>
      intro outside p fresh
      rw [inductionHypothesis, take, fresh, joinTo]
  | and before last inductionBefore inductionLast =>
      intro outside p fresh
      rw [run_append, inductionBefore outside p fresh, ← List.singleton_append, run_append]
      exact inductionLast outside _
  | disjunct alone inductionHypothesis =>
      intro outside
      exact ⟨_, inductionHypothesis outside {} rfl, rfl⟩
  | @or _ _ left right before last inductionBefore inductionLast =>
      intro outside
      obtain ⟨p, reads, whole⟩ := inductionBefore outside
      refine ⟨{ disjunction := p.whole?, conjunction := some right }, ?_, ?_⟩
      · rw [run_append, reads, ← List.singleton_append, run_append]
        exact inductionLast outside { disjunction := p.whole? } rfl
      · change some (joinTo .or p.whole? right) = _
        rw [whole, joinTo]

/-- A row of tokens is read as one tree at most. -/
theorem ReadAs.unique {tokens : List ConditionToken} {tree other : ConditionTree}
    (reads : ReadAs .disjunction tokens tree) (reads' : ReadAs .disjunction tokens other) :
    tree = other := by
  obtain ⟨p, left, whole⟩ := reads.adds []
  obtain ⟨p', right, whole'⟩ := reads'.adds []
  rw [left] at right
  cases right
  exact Option.some.inj (whole.symm.trans whole')

/-! ### Tokens of texts put together -/

/-- The text of a condition, which stands in parentheses. -/
def atomText (text : String) : List Char :=
  '(' :: (text.toList ++ [')'])

theorem toList_parens (text : String) : (parens text).toList = atomText text := by
  simp [parens, atomText]

/-- Further parentheses before a condition are not taken for its own: its first closing
parenthesis would stand in two places. -/
theorem dropLeading?_before_opening (text : String) (opened : Nat) (more : List Char) :
    dropLeading? (atomText text)
      (List.replicate (opened + 1) '(' ++ (atomText text ++ more)) = none := by
  have closes : ')' ∈ atomText text := by simp [atomText]
  have absent : ')' ∉ List.replicate (opened + 1) '(' := by simp
  cases dropped : dropLeading? (atomText text)
      (List.replicate (opened + 1) '(' ++ (atomText text ++ more)) with
  | none => rfl
  | some rest =>
      have places := congrArg (List.idxOf ')') (eq_append_of_dropLeading? dropped)
      rw [List.idxOf_append_of_notMem absent, List.idxOf_append_of_mem closes,
        List.idxOf_append_of_mem closes, List.length_replicate] at places
      omega

section

variable {position : Nat} {texts : List String}

theorem conditionTokens?_skip (atoms : List (List Char)) (front text : List Char) :
    conditionTokens? position atoms front.length (front ++ text) =
      conditionTokens? position atoms 0 text := by
  induction front with
  | nil => rfl
  | cons c front inductionHypothesis =>
      rw [List.length_cons, List.cons_append, conditionTokens?]
      exact inductionHypothesis

/-- Where a condition stands, it is read as one token. -/
theorem conditionTokens?_atom (text : String) (atoms : List (List Char)) (more : List Char) :
    conditionTokens? position (atomText text :: atoms) 0 (atomText text ++ more) =
      (conditionTokens? (position + 1) atoms 0 more).map (.atom position :: ·) := by
  have found := dropLeading?_append (atomText text) more
  have length : (atomText text).length - 1 = (text.toList ++ [')']).length := rfl
  rw [atomText, List.cons_append] at found ⊢
  rw [conditionTokens?]
  simp only [found, Option.isSome_some, if_true]
  rw [← atomText, length, conditionTokens?_skip]

/-- A sign that no condition starts at is read as that sign. -/
theorem conditionTokens?_sign {tokens : List ConditionToken} {c : Char} (back more : List Char)
    (sign : readSign? (c :: (back ++ more)) = some (tokens, back.length))
    (atoms : List (List Char))
    (apart : ∀ atom ∈ atoms.head?, dropLeading? atom (c :: (back ++ more)) = none) :
    conditionTokens? position atoms 0 (c :: (back ++ more)) =
      (conditionTokens? position atoms 0 more).map (tokens ++ ·) := by
  cases atoms with
  | nil =>
      rw [conditionTokens?]
      simp only [sign, Option.bind_eq_bind, Option.bind_some, conditionTokens?_skip]
  | cons atom others =>
      rw [conditionTokens?]
      simp only [apart atom rfl, Option.isSome_none, Bool.false_eq_true, if_false, sign,
        Option.bind_eq_bind, Option.bind_some, conditionTokens?_skip]

theorem apart_of_ne (c : Char) (other : c ≠ '(') (text : List Char) :
    ∀ atom ∈ (texts.map atomText).head?, dropLeading? atom (c :: text) = none := by
  intro atom member
  cases texts with
  | nil => cases member
  | cons first rest =>
      cases member
      exact dropLeading?_cons_of_ne _ _ (Ne.symm other)

theorem conditionTokens?_closing (more : List Char) :
    conditionTokens? position (texts.map atomText) 0 (')' :: more) =
      (conditionTokens? position (texts.map atomText) 0 more).map ([.closing] ++ ·) :=
  conditionTokens?_sign [] more rfl _ (apart_of_ne ')' (by decide) _)

theorem conditionTokens?_space (more : List Char) :
    conditionTokens? position (texts.map atomText) 0 (' ' :: more) =
      conditionTokens? position (texts.map atomText) 0 more := by
  refine (conditionTokens?_sign [] more rfl _ (apart_of_ne ' ' (by decide) _)).trans ?_
  simp

theorem conditionTokens?_connective (connective : Connective) (more : List Char) :
    conditionTokens? position (texts.map atomText) 0 (connective.symbol.toList ++ more) =
      (conditionTokens? position (texts.map atomText) 0 more).map
        ([.connective connective] ++ ·) := by
  cases connective with
  | and =>
      refine (conditionTokens?_space _).trans ?_
      refine (conditionTokens?_sign ['&'] (' ' :: more) rfl _
        (apart_of_ne '&' (by decide) _)).trans ?_
      rw [conditionTokens?_space]
  | or =>
      refine (conditionTokens?_space _).trans ?_
      refine (conditionTokens?_sign ['|'] (' ' :: more) rfl _
        (apart_of_ne '|' (by decide) _)).trans ?_
      rw [conditionTokens?_space]

/-- Parentheses that are opened before the next condition. -/
theorem conditionTokens?_openings (text : String) (atoms : List (List Char)) (opened : Nat)
    (more : List Char) :
    conditionTokens? position (atomText text :: atoms) 0
        (List.replicate opened '(' ++ (atomText text ++ more)) =
      (conditionTokens? (position + 1) atoms 0 more).map
        (List.replicate opened .opening ++ .atom position :: ·) := by
  induction opened with
  | zero => exact conditionTokens?_atom text atoms more
  | succ opened inductionHypothesis =>
      have apart := dropLeading?_before_opening text opened more
      rw [List.replicate_succ, List.cons_append] at apart
      rw [List.replicate_succ, List.cons_append]
      refine (conditionTokens?_sign [] (List.replicate opened '(' ++ (atomText text ++ more)) rfl
        (atomText text :: atoms) (by simpa using apart)).trans ?_
      rw [inductionHypothesis, Option.map_map]
      rfl

end

/-! ### Conditions joined one after the other

The text before a condition holds together as tightly as the connective that was written last.
It can go on with the same connective, and has to be put in parentheses for the other one.
-/

/-- How tightly conditions joined by a connective hold together. -/
def Connective.strength : Connective → Strength
  | and => .conjunction
  | or => .disjunction

/-- Join further conditions, the first of them at `position`, to a tree. -/
def ConditionTree.joinAll (tree : ConditionTree) (position : Nat) :
    List Clause → ConditionTree
  | [] => tree
  | c :: rest => (ConditionTree.join c.connective tree (.atom position)).joinAll (position + 1) rest

theorem ConditionTree.value_joinAll (truth : Nat → Bool) (tree : ConditionTree) (position : Nat)
    (clauses : List Clause) : (tree.joinAll position clauses).value truth =
      (clauses.zipIdx position).foldl
        (fun before c => c.1.connective.join before (truth c.2)) (tree.value truth) := by
  induction clauses generalizing tree position with
  | nil => rfl
  | cons c rest inductionHypothesis =>
      rw [joinAll, inductionHypothesis, List.zipIdx_cons, List.foldl_cons]
      rfl

/-- What conditions joined so far are written as and read as, whatever follows them and however
many parentheses are opened before them. -/
structure Joined (connective : Connective) (texts : List String) (text : String)
    (tokens : List ConditionToken) (tree : ConditionTree) : Prop where
  spelled : ∀ (opened : Nat) (later : List String) (more : List Char),
    conditionTokens? 0 ((texts ++ later).map atomText) 0
        (List.replicate opened '(' ++ (text.toList ++ more)) =
      (conditionTokens? texts.length (later.map atomText) 0 more).map
        (List.replicate opened .opening ++ tokens ++ ·)
  reads : ReadAs connective.strength tokens tree

namespace Joined

variable {connective : Connective} {texts : List String} {text : String}
  {tokens : List ConditionToken} {tree : ConditionTree}

theorem first (connective : Connective) (text : String) :
    Joined connective [text] (parens text) [.atom 0] (.atom 0) where
  spelled := by
    intro opened later more
    rw [toList_parens, List.singleton_append, List.map_cons, conditionTokens?_openings]
    simp
  reads := by
    cases connective with
    | and => exact .conjunct (.atom 0)
    | or => exact .disjunct (.conjunct (.atom 0))

/-- What a further condition is joined to. -/
theorem disjunction (joined : Joined connective texts text tokens tree) :
    ReadAs .disjunction tokens tree := by
  cases connective with
  | and => exact .disjunct joined.reads
  | or => exact joined.reads

/-- Conditions in parentheses can be joined by any connective. -/
theorem grouped (joined : Joined connective texts text tokens tree) (other : Connective) :
    Joined other texts (parens text) (.opening :: (tokens ++ [.closing])) tree where
  spelled := by
    intro opened later more
    have inner := joined.spelled (opened + 1) later (')' :: more)
    have shape : List.replicate opened '(' ++ ((parens text).toList ++ more) =
        List.replicate (opened + 1) '(' ++ (text.toList ++ ')' :: more) := by
      rw [toList_parens, List.replicate_succ']
      simp [atomText]
    rw [shape, inner, conditionTokens?_closing, Option.map_map]
    congr 1
    funext rest
    simp [List.replicate_succ']
  reads := by
    have single := ReadAs.group joined.disjunction
    cases other with
    | and => exact .conjunct single
    | or => exact .disjunct (.conjunct single)

/-- A condition that is joined by the connective that was written last. -/
theorem snoc (joined : Joined connective texts text tokens tree) (next : String) :
    Joined connective (texts ++ [next]) (text ++ connective.symbol ++ parens next)
      (tokens ++ .connective connective :: [.atom texts.length])
      (.join connective tree (.atom texts.length)) where
  spelled := by
    intro opened later more
    have inner := joined.spelled opened (next :: later)
      (connective.symbol.toList ++ (atomText next ++ more))
    have shape : (text ++ connective.symbol ++ parens next).toList ++ more =
        text.toList ++ (connective.symbol.toList ++ (atomText next ++ more)) := by
      simp [toList_parens]
    rw [shape, List.append_assoc texts, List.singleton_append, inner, conditionTokens?_connective,
      List.map_cons, conditionTokens?_atom, Option.map_map, Option.map_map, List.length_append]
    congr 1
    funext rest
    simp
  reads := by
    cases connective with
    | and => exact .and joined.reads (.atom _)
    | or => exact .or joined.reads (.conjunct (.atom _))

end Joined

namespace Query

/-- The text of conditions that are joined to what is before them. -/
theorem foldClauses_joined {s : Scope} {clauses : List Clause} {connective : Connective}
    {texts more : List String} {text : String} {tokens : List ConditionToken}
    {tree : ConditionTree} (joined : Joined connective texts text tokens tree)
    (rendered : Expr.renderAll s (clauses.map Clause.condition) = .ok more) :
    ∃ last whole tokens', foldClauses s connective text clauses = .ok whole ∧
      Joined last (texts ++ more) whole tokens' (tree.joinAll texts.length clauses) := by
  induction clauses generalizing connective texts more text tokens tree with
  | nil =>
      cases rendered
      rw [List.append_nil]
      exact ⟨connective, text, tokens, rfl, joined⟩
  | cons c rest inductionHypothesis =>
      obtain ⟨next, one, rendered⟩ := exceptBind_eq_ok_iff.mp rendered
      obtain ⟨others, all, same⟩ := exceptBind_eq_ok_iff.mp rendered
      cases same
      obtain ⟨tokens', before⟩ : ∃ tokens', Joined c.connective texts
          (if c.connective = connective then text else parens text) tokens' tree := by
        split
        · next same => exact ⟨tokens, same ▸ joined⟩
        · exact ⟨_, joined.grouped c.connective⟩
      obtain ⟨last, whole, tokens', folded, all⟩ := inductionHypothesis (before.snoc next) all
      refine ⟨last, whole, tokens', ?_, ?_⟩
      · rw [foldClauses, one]
        exact folded
      · simpa [ConditionTree.joinAll] using all

theorem foldClauses_error {s : Scope} {clauses : List Clause} {connective : Connective}
    {text : String} {fault : CompileFault}
    (refused : Expr.renderAll s (clauses.map Clause.condition) = .error fault) :
    foldClauses s connective text clauses = .error fault := by
  induction clauses generalizing connective text with
  | nil => cases refused
  | cons c rest inductionHypothesis =>
      rw [List.map_cons, Expr.renderAll] at refused
      rw [foldClauses]
      cases one : c.condition.render s with
      | error other =>
          rw [one] at refused
          cases refused
          rfl
      | ok next =>
          rw [one] at refused
          cases others : Expr.renderAll s (rest.map Clause.condition) with
          | error other =>
              rw [others] at refused
              cases refused
              exact inductionHypothesis others
          | ok texts =>
              rw [others] at refused
              cases refused

/-- The text of a segment from the clauses that belong to it. -/
theorem segmentText_eq {s : Scope} {keyword : String} {segment : Segment} {clauses : List Clause}
    {first : Clause} {rest : List Clause}
    (own : (clauses.filter fun c => c.segment == segment) = first :: rest) :
    segmentText s keyword segment clauses = (do
      let condition ← first.condition.render s
      let text ← foldClauses s first.connective (parens condition) rest
      .ok (keyword ++ text)) := by
  unfold segmentText
  rw [own]

theorem segmentText_error {s : Scope} {keyword : String} {segment : Segment}
    {clauses : List Clause} {fault : CompileFault}
    (refused : Expr.renderAll s
      ((clauses.filter fun c => c.segment == segment).map Clause.condition) = .error fault) :
    segmentText s keyword segment clauses = .error fault := by
  cases own : clauses.filter fun c => c.segment == segment with
  | nil =>
      rw [own] at refused
      cases refused
  | cons first rest =>
      rw [own, List.map_cons, Expr.renderAll] at refused
      rw [segmentText_eq own]
      cases one : first.condition.render s with
      | error other =>
          rw [one] at refused
          cases refused
          rfl
      | ok condition =>
          rw [one] at refused
          cases others : Expr.renderAll s (rest.map Clause.condition) with
          | error other =>
              rw [others] at refused
              cases refused
              change (foldClauses s first.connective (parens condition) rest >>= _) = _
              rw [foldClauses_error others]
              rfl
          | ok texts =>
              rw [others] at refused
              cases refused

/-- The text of a segment is refused with its first condition that is.  Otherwise it is empty
exactly if the segment has no clauses; and if it has some, what follows the keyword is read in
one way, as a tree that holds exactly if the clauses do, joined one after the other. -/
theorem segmentText_read (s : Scope) (keyword : String) (segment : Segment)
    (clauses : List Clause) :
    let own := clauses.filter fun c => c.segment == segment
    (∀ fault, Expr.renderAll s (own.map Clause.condition) = .error fault →
      segmentText s keyword segment clauses = .error fault) ∧
    ∀ texts, Expr.renderAll s (own.map Clause.condition) = .ok texts →
      ∃ text, segmentText s keyword segment clauses = .ok text ∧ (text = "" ↔ own = []) ∧
        (own ≠ [] → ∃ condition tokens tree, text = keyword ++ condition ∧
          conditionTokens? 0 (texts.map atomText) 0 condition.toList = some tokens ∧
          (∀ other, ReadAs .disjunction tokens other ↔ other = tree) ∧
          ∀ truth, tree.value truth = Clause.leftFold truth own) := by
  intro own
  refine ⟨fun fault refused => segmentText_error refused, fun texts rendered => ?_⟩
  cases found : own with
  | nil =>
      refine ⟨"", ?_, by simp, fun filled => absurd rfl filled⟩
      unfold segmentText
      rw [show (clauses.filter fun c => c.segment == segment) = [] from found]
  | cons first rest =>
      rw [found, List.map_cons] at rendered
      obtain ⟨condition, one, rendered⟩ := exceptBind_eq_ok_iff.mp rendered
      obtain ⟨others, all, same⟩ := exceptBind_eq_ok_iff.mp rendered
      cases same
      obtain ⟨last, whole, tokens, folded, joined⟩ :=
        foldClauses_joined (Joined.first first.connective condition) all
      have spelled := joined.spelled 0 [] []
      rw [List.replicate_zero, List.nil_append, List.append_nil, List.append_nil] at spelled
      have filled : whole ≠ "" := by
        rintro rfl
        simp [conditionTokens?] at spelled
      refine ⟨keyword ++ whole, ?_, by simp [filled], fun _ =>
        ⟨whole, tokens, (ConditionTree.atom 0).joinAll 1 rest, rfl, ?_, ?_, ?_⟩⟩
      · rw [segmentText_eq found, one]
        change (foldClauses s first.connective (parens condition) rest >>= _) = _
        rw [folded]
        rfl
      · simpa [conditionTokens?] using spelled
      · exact fun other => ⟨fun reads => reads.unique joined.disjunction,
          fun same => same ▸ joined.disjunction⟩
      · intro truth
        rw [ConditionTree.value_joinAll, Clause.leftFold, List.zipIdx_cons]
        rfl

/-- Clauses of both segments, the filters joined by both connectives.  One of them is a text
taken as it is, whose parentheses do not match. -/
def alternatingClauses : List Clause :=
  [⟨.filter, .or, .row 0⟩, ⟨.search, .or, .row 1⟩, ⟨.filter, .and, .raw ") || (TRUE"⟩,
    ⟨.search, .and, .row 0⟩, ⟨.filter, .or, .not (.row 0)⟩, ⟨.filter, .and, .row 1⟩]

theorem segmentText_read_of_alternatingClauses :
    let s : Scope := { rowVariables := ["u0", "p1"], paramCount := 0 }
    let texts := ["u0", ") || (TRUE", "NOT (u0)", "p1"]
    Expr.renderAll s ((alternatingClauses.filter fun c => c.segment == .filter).map
        Clause.condition) = .ok texts ∧
      ∃ condition tokens tree,
        segmentText s " FILTER " .filter alternatingClauses = .ok (" FILTER " ++ condition) ∧
        conditionTokens? 0 (texts.map atomText) 0 condition.toList = some tokens ∧
        (∀ other, ReadAs .disjunction tokens other ↔ other = tree) ∧
        ∀ truth, tree.value truth = (((truth 0 && truth 1) || truth 2) && truth 3) := by
  intro s texts
  have rendered : Expr.renderAll s ((alternatingClauses.filter fun c => c.segment == .filter).map
      Clause.condition) = .ok texts := by rfl
  obtain ⟨text, written, _, filled⟩ :=
    (segmentText_read s " FILTER " .filter alternatingClauses).2 texts rendered
  obtain ⟨condition, tokens, tree, rfl, spelled, reads, means⟩ := filled (by decide)
  exact ⟨rendered, condition, tokens, tree, written, spelled, reads, means⟩

example : segmentText { rowVariables := ["u0", "p1"], paramCount := 0 } " FILTER " .filter
    alternatingClauses =
      .ok " FILTER ((((u0)) && () || (TRUE)) || (NOT (u0))) && (p1)" := by
  rfl

end Query

end DocStore
