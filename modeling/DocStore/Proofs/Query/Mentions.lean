/-
Module: DocStore.Proofs.Query.Mentions
Purpose: the variables that pieces of a query text introduce and use, put together from the
  pieces; and the variables that an expression is written with.
Main exports:
  Aql.Mentions, Aql.Mentions.append, Aql.IsVariable, Expr.Within, Scope.Shows,
  Expr.Within.mentions
-/
import DocStore.Proofs.Query.Scoping
import DocStore.Proofs.Query.Shape

namespace DocStore

namespace Aql

/-! ### Tokens of texts put together -/

/-- Whether a reading stands outside of names and quoted texts. -/
def State.isClosed : State → Bool
  | .rest => true
  | .word _ => true
  | .number _ => true
  | .name _ => false
  | .text _ _ _ => false

/-- Where the reading of a text ends. -/
def endState (text : String) : State :=
  (scan .rest text.toList).2

/-- Whether a text goes on with neither a word nor a number. -/
def startsFresh (text : List Char) : Bool :=
  text.head?.all fun c => !isWordChar c && c != '.'

theorem tokens_eq (text : String) :
    tokens text = (scan .rest text.toList).1 ++ (endState text).finish :=
  rfl

theorem State.step_fresh {s : State} (closed : s.isClosed = true) {c : Char}
    (apart : isWordChar c = false) (noPoint : c ≠ '.') :
    s.step c = (s.finish ++ (start c).1, (start c).2) := by
  have noDigit : c.isDigit = false := by
    rw [Bool.eq_false_iff]
    intro digit
    rw [isWordChar_of_isDigit digit] at apart
    cases apart
  cases s with
  | rest => rfl
  | word read => simp [step, apart, finish]
  | number read => simp [step, noDigit, noPoint, finish]
  | name read => cases closed
  | text quote escaped read => cases closed

theorem tokens_append_of_rest {a b : String} (ends : endState a = .rest) :
    tokens (a ++ b) = tokens a ++ tokens b := by
  have stands : (scan .rest a.toList).2 = .rest := ends
  rw [tokens, tokens_eq a, ends, String.toList_append, scan_append, stands]
  simp [State.finish, tokens]

theorem endState_append_of_rest {a b : String} (ends : endState a = .rest) :
    endState (a ++ b) = endState b := by
  have stands : (scan .rest a.toList).2 = .rest := ends
  rw [endState, String.toList_append, scan_append, stands]
  rfl

/-- What neither a word nor a number goes on with is read as after a space. -/
theorem scan_fresh {s : State} (closed : s.isClosed = true) {c : Char} {text : List Char}
    (fresh : startsFresh (c :: text) = true) :
    scan s (c :: text) = (s.finish ++ (scan .rest (c :: text)).1, (scan .rest (c :: text)).2) := by
  simp only [startsFresh, List.head?_cons, Option.all_some, Bool.and_eq_true, Bool.not_eq_true',
    bne_iff_ne, ne_eq] at fresh
  rw [scan, scan, State.step_fresh closed fresh.1 fresh.2, State.step]
  simp

theorem tokens_append_of_fresh {a b : String} (closed : (endState a).isClosed = true)
    (fresh : startsFresh b.toList = true) : tokens (a ++ b) = tokens a ++ tokens b := by
  cases spelled : b.toList with
  | nil =>
      obtain rfl := String.toList_eq_nil_iff.mp spelled
      rw [String.append_empty]
      simp [tokens, scan, State.finish]
  | cons c text =>
      rw [spelled] at fresh
      have read := scan_fresh closed fresh
      rw [tokens_eq a, tokens, tokens, String.toList_append, scan_append, spelled, ← endState, read]
      simp

theorem isClosed_append_of_fresh {a b : String} (closed : (endState a).isClosed = true)
    (fresh : startsFresh b.toList = true) (closes : (endState b).isClosed = true) :
    (endState (a ++ b)).isClosed = true := by
  cases spelled : b.toList with
  | nil =>
      obtain rfl := String.toList_eq_nil_iff.mp spelled
      rwa [String.append_empty]
  | cons c text =>
      rw [spelled] at fresh
      rw [endState, spelled] at closes
      rw [endState, String.toList_append, scan_append, spelled, ← endState, scan_fresh closed fresh]
      exact closes

/-! ### Tokens that mention no variable -/

/-- Whether tokens can follow a variable without making it a function or giving it a
value. -/
def closes (after : List Token) : Bool :=
  !startsCall after && !startsValue after

theorem closes_append {ts : List Token} (filled : ts ≠ []) (closing : closes ts = true)
    (after : List Token) : closes (ts ++ after) = true := by
  cases ts with
  | nil => exact absurd rfl filled
  | cons t ts =>
      cases ts with
      | cons u us => exact closing
      | nil =>
          simp only [closes, startsCall, startsValue, List.cons_append, List.nil_append,
            List.head?_cons, List.tail_cons, List.head?_nil, Bool.and_eq_true] at closing ⊢
          have noValue : (some t == some (Token.sign '=')) = false := by simpa using closing.2
          simpa [noValue] using closing.1

/-- Whether a token has no part in the scoping of variables, and the token behind it
neither. -/
def isQuiet : Token → Bool
  | .word letters => isInnerKeyword letters && !isPseudo letters && (clauseKind? letters).isNone &&
      (letters.map Char.toUpper != "INTO".toList)
  | .sign c => c != '.' && c != '@'
  | _ => true

theorem clauseKind?_of_isQuiet {t : Token} (quiet : isQuiet t = true) :
    t.clauseKind? = none := by
  cases t with
  | word letters =>
      simp only [isQuiet, Bool.and_eq_true, Option.isNone_iff_eq_none] at quiet
      exact quiet.1.2
  | _ => rfl

theorem roles_quiet {ts : List Token} (quiet : ts.all isQuiet = true) (after : List Token) :
    roles .free (ts ++ after) = roles .free after := by
  induction ts with
  | nil => rfl
  | cons t ts inductionHypothesis =>
      rw [List.all_cons, Bool.and_eq_true] at quiet
      have others := inductionHypothesis quiet.2
      have first := quiet.1
      cases t with
      | word letters =>
          simp only [isQuiet, Bool.and_eq_true, Bool.not_eq_true', bne_iff_ne, ne_eq] at first
          have behind : (Token.word letters).place = .free := if_neg first.2
          have silent : role .free letters (ts ++ after) = [] := by simp [role, first.1.1]
          rw [List.cons_append, roles, silent, behind, others, List.nil_append]
      | sign c =>
          simp only [isQuiet, Bool.and_eq_true, bne_iff_ne, ne_eq] at first
          have behind : (Token.sign c).place = .free := if_neg (not_or.mpr first)
          rw [List.cons_append, roles, behind, others]
          simp
      | _ => exact others

/-! ### Texts and the variables they mention -/

/-- Roles that introduce exactly some variables, and otherwise name visible variables and
some changed documents only. -/
structure Found (introduced visible pseudo : List (List Char)) (found : List Role) : Prop where
  introduced : introductions found = introduced
  visible : ∀ v ∈ uses found, v ∈ visible
  pseudo : ∀ v ∈ pseudos found, v ∈ pseudo

/-- A piece of a clause, without names or quoted texts left open, that introduces exactly
some variables, and otherwise mentions visible variables and some changed documents only:
wherever it stands and does not go on as a function or as a definition. -/
structure Mentions (introduced visible pseudo : List (List Char)) (text : String) : Prop where
  closed : (endState text).isClosed = true
  plain : ∀ t ∈ tokens text, t.clauseKind? = none
  found : ∀ after, closes after = true → ∃ found, Found introduced visible pseudo found ∧
    roles .free (tokens text ++ after) = found ++ roles .free after

section

variable {introduced others visible pseudo : List (List Char)} {a b text : String}

theorem Found.nil : Found [] visible pseudo [] where
  introduced := rfl
  visible := by simp [uses]
  pseudo := by simp [pseudos]

theorem Found.append {found more : List Role} (first : Found introduced visible pseudo found)
    (second : Found others visible pseudo more) :
    Found (introduced ++ others) visible pseudo (found ++ more) where
  introduced := by
    rw [introductions, List.filterMap_append, ← introductions, ← introductions, first.introduced,
      second.introduced]
  visible := by
    intro v member
    rw [uses, List.filterMap_append, List.mem_append] at member
    exact member.elim (first.visible v) (second.visible v)
  pseudo := by
    intro v member
    rw [pseudos, List.filterMap_append, List.mem_append] at member
    exact member.elim (first.pseudo v) (second.pseudo v)

/-- A text without words but keywords mentions nothing. -/
theorem Mentions.quiet (closed : (endState text).isClosed = true)
    (quiet : (tokens text).all isQuiet = true) : Mentions [] visible pseudo text where
  closed := closed
  plain := fun t member => clauseKind?_of_isQuiet (List.all_eq_true.mp quiet t member)
  found := fun after _ => ⟨[], .nil, roles_quiet quiet after⟩

theorem Mentions.empty : Mentions [] visible pseudo "" :=
  .quiet rfl rfl

/-- Of two pieces, the second one has to start so that it closes the first. -/
theorem Mentions.append (first : Mentions introduced visible pseudo a)
    (second : Mentions others visible pseudo b) (fresh : startsFresh b.toList = true)
    (closing : ∀ after, closes after = true → closes (tokens b ++ after) = true) :
    Mentions (introduced ++ others) visible pseudo (a ++ b) where
  closed := isClosed_append_of_fresh first.closed fresh second.closed
  plain := by
    rw [tokens_append_of_fresh first.closed fresh]
    exact List.forall_mem_append.mpr ⟨first.plain, second.plain⟩
  found := by
    intro after closed
    obtain ⟨found, isFound, read⟩ := first.found _ (closing after closed)
    obtain ⟨more, isMore, readMore⟩ := second.found after closed
    refine ⟨found ++ more, isFound.append isMore, ?_⟩
    rw [tokens_append_of_fresh first.closed fresh, List.append_assoc, read, readMore,
      List.append_assoc]

/-- Whether a text that mentions nothing sets the piece behind it apart. -/
def isLead (lead : String) : Bool :=
  decide (endState lead = .rest) && (tokens lead).all isQuiet

/-- Whether a text that mentions nothing sets the piece before it apart. -/
def isTail (tail : String) : Bool :=
  startsFresh tail.toList && (endState tail).isClosed && (tokens tail).all isQuiet &&
    decide (tokens tail ≠ []) && closes (tokens tail)

/-- Whether a text that mentions nothing sets the pieces before and behind it apart. -/
def isLink (link : String) : Bool :=
  isLead link && isTail link

theorem Mentions.behind {lead : String} (leads : isLead lead = true)
    (piece : Mentions introduced visible pseudo text) :
    Mentions introduced visible pseudo (lead ++ text) := by
  simp only [isLead, Bool.and_eq_true, decide_eq_true_eq] at leads
  have read := tokens_append_of_rest (b := text) leads.1
  constructor
  · rw [endState_append_of_rest leads.1]
    exact piece.closed
  · rw [read]
    refine List.forall_mem_append.mpr ⟨fun t member => ?_, piece.plain⟩
    exact clauseKind?_of_isQuiet (List.all_eq_true.mp leads.2 t member)
  · intro after closed
    obtain ⟨found, isFound, reads⟩ := piece.found after closed
    refine ⟨found, isFound, ?_⟩
    rw [read, List.append_assoc, roles_quiet leads.2, reads]

theorem Mentions.ended {tail : String} (piece : Mentions introduced visible pseudo a)
    (ends : isTail tail = true) : Mentions introduced visible pseudo (a ++ tail) := by
  simp only [isTail, Bool.and_eq_true, decide_eq_true_eq] at ends
  obtain ⟨⟨⟨⟨fresh, closed⟩, quiet⟩, filled⟩, closing⟩ := ends
  have whole := piece.append (Mentions.quiet closed quiet) fresh
    fun after _ => closes_append filled closing after
  rwa [List.append_nil] at whole

/-- Two pieces with a link between them. -/
theorem Mentions.linked {link : String} (first : Mentions introduced visible pseudo a)
    (links : isLink link = true) (second : Mentions others visible pseudo b) :
    Mentions (introduced ++ others) visible pseudo (a ++ (link ++ b)) := by
  simp only [isLink, Bool.and_eq_true] at links
  have leads := links.1
  simp only [isLead, Bool.and_eq_true, decide_eq_true_eq] at leads
  have ends := links.2
  simp only [isTail, Bool.and_eq_true, decide_eq_true_eq] at ends
  obtain ⟨⟨⟨⟨fresh, _⟩, _⟩, filled⟩, closing⟩ := ends
  refine first.append (second.behind links.1) ?_ ?_
  · rw [String.toList_append]
    cases spelled : link.toList with
    | nil =>
        obtain rfl := String.toList_eq_nil_iff.mp spelled
        exact absurd rfl filled
    | cons c rest =>
        rw [spelled] at fresh
        exact fresh
  · intro after _
    rw [tokens_append_of_rest leads.1, List.append_assoc]
    exact closes_append filled closing _

theorem Mentions.parens (piece : Mentions introduced visible pseudo text) :
    Mentions introduced visible pseudo (parens text) := by
  rw [DocStore.parens, String.append_assoc]
  exact (piece.ended (by decide)).behind (by decide)

/-- Pieces with commas between neighbours. -/
theorem Mentions.join {items : List (List (List Char) × String)}
    (each : ∀ item ∈ items, Mentions item.1 visible pseudo item.2) :
    Mentions (items.flatMap Prod.fst) visible pseudo (Text.join ", " (items.map Prod.snd)) := by
  induction items with
  | nil => exact .empty
  | cons item items inductionHypothesis =>
      rw [List.forall_mem_cons] at each
      cases items with
      | nil => simpa [Text.join] using each.1
      | cons next items =>
          rw [List.map_cons, List.map_cons, join_cons_cons, List.flatMap_cons]
          exact each.1.linked (by decide) (inductionHypothesis each.2)

/-- Pieces that introduce nothing, with commas between neighbours. -/
theorem Mentions.joinUsing {texts : List String}
    (each : ∀ text ∈ texts, Mentions [] visible pseudo text) :
    Mentions [] visible pseudo (Text.join ", " texts) := by
  have items : ∀ item ∈ texts.map fun text => (([] : List (List Char)), text),
      Mentions item.1 visible pseudo item.2 := by
    simpa using each
  have joined := Mentions.join items
  have nothing : (texts.map fun text => (([] : List (List Char)), text)).flatMap Prod.fst = [] := by
    simp
  rw [nothing, List.map_map] at joined
  simpa [Function.comp_def] using joined

end

/-! ### Variables -/

/-- Whether a word is neither a keyword nor stands for a changed document. -/
def isOrdinary (letters : List Char) : Bool :=
  (clauseKind? letters).isNone && !isInnerKeyword letters && !isPseudo letters

theorem toUpper_of_isDigit {c : Char} (digit : c.isDigit = true) : c.toUpper = c := by
  rw [Text.isDigit_iff] at digit
  unfold Char.toUpper
  rw [dif_neg]
  rintro ⟨small, _⟩
  have code : 97 ≤ c.toNat := small
  omega

/-- No keyword contains a digit. -/
theorem isOrdinary_of_digit {letters : List Char} {d : Char} (digit : d.isDigit = true)
    (member : d ∈ letters) : isOrdinary letters = true := by
  have kept : d ∈ letters.map Char.toUpper :=
    List.mem_map.mpr ⟨d, member, toUpper_of_isDigit digit⟩
  have differs : ∀ {word : String} {text : List Char}, word.toList.all (!·.isDigit) = true →
      d ∈ text → (word.toList == text) = false := by
    intro word text noDigit inside
    rw [beq_eq_false_iff_ne]
    rintro rfl
    have other := List.all_eq_true.mp noDigit d inside
    simp [digit] at other
  have clauses : ∀ kind ∈ ClauseKind.all, kind.keyword.toList.all (!·.isDigit) = true := by
    decide
  have inner : ∀ keyword ∈ innerKeywords, keyword.toList.all (!·.isDigit) = true := by
    decide
  have noClause : clauseKind? letters = none := by
    rw [clauseKind?, List.find?_eq_none]
    intro kind listed
    rw [differs (clauses kind listed) kept]
    exact Bool.false_ne_true
  have noKeyword : isInnerKeyword letters = false := by
    rw [isInnerKeyword, List.any_eq_false]
    intro keyword listed
    rw [differs (inner keyword listed) kept]
    exact Bool.false_ne_true
  have noPseudo : isPseudo letters = false := by
    rw [isPseudo, Bool.or_eq_false_iff]
    constructor
    · rw [BEq.comm]
      exact differs (by decide) member
    · rw [BEq.comm]
      exact differs (by decide) member
  simp [isOrdinary, noClause, noKeyword, noPseudo]

theorem noClause_of_isOrdinary {letters : List Char} (ordinary : isOrdinary letters = true) :
    clauseKind? letters = none := by
  simp only [isOrdinary, Bool.and_eq_true, Option.isNone_iff_eq_none] at ordinary
  exact ordinary.1.1

theorem place_of_isOrdinary {letters : List Char} (ordinary : isOrdinary letters = true) :
    (Token.word letters).place = .free := by
  simp only [isOrdinary, Bool.and_eq_true, Bool.not_eq_true'] at ordinary
  have noKeyword := List.any_eq_false.mp ordinary.1.2 "INTO" (by decide)
  refine if_neg (fun into => noKeyword ?_)
  rw [into]
  decide

/-- A word that can name a variable: it starts with a small letter and is no keyword. -/
structure IsVariable (word : String) : Prop where
  spelled : ∃ c letters, word.toList = c :: letters ∧ c.isLower = true ∧
    letters.all isWordChar = true
  ordinary : isOrdinary word.toList = true

theorem exists_digit_toString (n : Nat) : ∃ d ∈ (toString n).toList, d.isDigit = true := by
  rw [Text.toList_toString]
  obtain ⟨d, member⟩ := List.exists_mem_of_ne_nil _ (Text.digitsOf_ne_nil n)
  exact ⟨d, member, Text.isDigit_of_mem_digitsOf member⟩

/-- A variable for a source contains a position. -/
theorem IsSourceVariable.isVariable {position : Nat} {word : String}
    (named : IsSourceVariable position word) : IsVariable word := by
  rcases named with ⟨letter, lower, spelled⟩
  obtain ⟨d, member, digit⟩ := exists_digit_toString position
  refine ⟨⟨letter, _, spelled, lower, all_isWordChar_toString position⟩, ?_⟩
  rw [spelled]
  exact isOrdinary_of_digit digit (List.mem_cons_of_mem _ member)

theorem IsFieldVariable.toList_eq {position : Nat} {field word : String}
    (named : IsFieldVariable position field word) : ∃ letter : Char, letter.isLower = true ∧
      word.toList = letter :: ((toString position).toList ++ '_' :: field.toList) := by
  rcases named with ⟨row, ⟨letter, lower, spelled⟩, _, rfl⟩
  exact ⟨letter, lower, by simp [spelled]⟩

theorem IsFieldVariable.isVariable {position : Nat} {field word : String}
    (named : IsFieldVariable position field word) : IsVariable word := by
  obtain ⟨letter, lower, spelled⟩ := named.toList_eq
  rcases named with ⟨_, _, plain, _⟩
  obtain ⟨d, member, digit⟩ := exists_digit_toString position
  refine ⟨⟨letter, _, spelled, lower, ?_⟩, ?_⟩
  · rw [List.all_append, List.all_cons, all_isWordChar_toString, plain]
    decide
  · rw [spelled]
    exact isOrdinary_of_digit digit (List.mem_cons_of_mem _ (List.mem_append_left _ member))

theorem IsVariable.scan {word : String} (named : IsVariable word) :
    scan .rest word.toList = ([], .word word.toList) := by
  rcases named.spelled with ⟨c, letters, spelled, lower, all⟩
  rw [spelled, scan_rest_word lower all]

theorem eq_of_isPseudo {word : String} (stands : isPseudo word.toList = true) :
    word = "OLD" ∨ word = "NEW" := by
  simp only [isPseudo, Bool.or_eq_true, beq_iff_eq] at stands
  exact stands.imp (String.toList_injective ·) (String.toList_injective ·)

/-- A word for a visible variable, or for a changed document that can be looked at. -/
inductive Mentionable (visible pseudo : List (List Char)) (word : String) : Prop where
  | visible (named : IsVariable word) (member : word.toList ∈ visible)
  | pseudo (stands : isPseudo word.toList = true) (member : word.toList ∈ pseudo)

theorem Mentionable.changed {operation : Operation} {word : String}
    (stands : operation.pseudo? = some word) {visible : List (List Char)} :
    Mentionable visible [word.toList] word := by
  refine .pseudo ?_ List.mem_cons_self
  cases operation <;> cases stands <;> decide

theorem tokens_of_scan_word {word : String}
    (scanned : scan .rest word.toList = ([], .word word.toList)) :
    tokens word = [.word word.toList] := by
  rw [tokens, scanned]
  rfl

section

variable {introduced visible pseudo : List (List Char)} {word text : String}

theorem Mentionable.scan (mentionable : Mentionable visible pseudo word) :
    Aql.scan .rest word.toList = ([], .word word.toList) := by
  cases mentionable with
  | visible named _ => exact named.scan
  | pseudo stands _ => rcases eq_of_isPseudo stands with rfl | rfl <;> decide

theorem Mentionable.noClause (mentionable : Mentionable visible pseudo word) :
    clauseKind? word.toList = none := by
  cases mentionable with
  | visible named _ => exact noClause_of_isOrdinary named.ordinary
  | pseudo stands _ => rcases eq_of_isPseudo stands with rfl | rfl <;> decide

theorem Mentionable.place (mentionable : Mentionable visible pseudo word) :
    (Token.word word.toList).place = .free := by
  cases mentionable with
  | visible named _ => exact place_of_isOrdinary named.ordinary
  | pseudo stands _ => rcases eq_of_isPseudo stands with rfl | rfl <;> decide

/-- Where nothing else is made of it, a word is used as what it stands for. -/
theorem Mentionable.role (mentionable : Mentionable visible pseudo word) {after : List Token}
    (closing : closes after = true) :
    ∃ r, Found [] visible pseudo [r] ∧ Aql.role .free word.toList after = [r] := by
  simp only [closes, Bool.and_eq_true, Bool.not_eq_true'] at closing
  cases mentionable with
  | visible named member =>
      have ordinary := named.ordinary
      simp only [isOrdinary, Bool.and_eq_true, Bool.not_eq_true'] at ordinary
      refine ⟨.used word.toList, ⟨rfl, by simpa [uses] using member, by simp [pseudos]⟩, ?_⟩
      simp [Aql.role, ordinary, closing]
  | pseudo stands member =>
      refine ⟨.pseudo word.toList, ⟨rfl, by simp [uses], by simpa [pseudos] using member⟩, ?_⟩
      simp [Aql.role, stands]

/-- A word that can be mentioned is a piece of its own. -/
theorem Mentionable.mentions (mentionable : Mentionable visible pseudo word) :
    Mentions [] visible pseudo word where
  closed := by
    rw [endState, mentionable.scan]
    rfl
  plain := by
    rw [tokens_of_scan_word mentionable.scan]
    intro t member
    obtain rfl := List.mem_singleton.mp member
    exact mentionable.noClause
  found := by
    intro after closing
    obtain ⟨r, isFound, reads⟩ := mentionable.role closing
    refine ⟨[r], isFound, ?_⟩
    rw [tokens_of_scan_word mentionable.scan, List.singleton_append, roles, mentionable.place,
      reads]

theorem Mentionable.scan_field (mentionable : Mentionable visible pseudo word) {name : String}
    (noBacktick : '`' ∉ name.toList) :
    Aql.scan .rest (word ++ ("." ++ ("`" ++ name ++ "`"))).toList =
      ([.word word.toList, .sign '.', .name name.toList], .rest) := by
  have point : Aql.scan (.word word.toList) ".".toList =
      ([.word word.toList, .sign '.'], .rest) := by
    simp [Aql.scan, State.step, State.start, isWordChar, isQuote, isSpace]
  rw [String.toList_append, scan_append, mentionable.scan, String.toList_append, scan_append, point,
    scan_backticks rfl noBacktick]
  rfl

theorem Mentionable.tokens_field (mentionable : Mentionable visible pseudo word) {name : String}
    (noBacktick : '`' ∉ name.toList) : tokens (word ++ ("." ++ ("`" ++ name ++ "`"))) =
      [.word word.toList, .sign '.', .name name.toList] := by
  rw [tokens, mentionable.scan_field noBacktick]
  rfl

/-- A word and the name of a field behind a point. -/
theorem Mentionable.field (mentionable : Mentionable visible pseudo word) {name : String}
    (noBacktick : '`' ∉ name.toList) :
    Mentions [] visible pseudo (word ++ ("." ++ ("`" ++ name ++ "`"))) where
  closed := by
    rw [endState, mentionable.scan_field noBacktick]
    rfl
  plain := by
    rw [mentionable.tokens_field noBacktick]
    simpa [Token.clauseKind?] using mentionable.noClause
  found := by
    intro after _
    have point : closes (.sign '.' :: .name name.toList :: after) = true := rfl
    obtain ⟨r, isFound, reads⟩ := mentionable.role point
    refine ⟨[r], isFound, ?_⟩
    rw [mentionable.tokens_field noBacktick, List.cons_append, roles, mentionable.place]
    simp only [List.cons_append, List.nil_append]
    rw [reads]
    rfl

/-- What stands behind `INTO` is introduced. -/
theorem IsVariable.bound (named : IsVariable word) :
    Mentions [word.toList] visible pseudo ("INTO " ++ word) := by
  have led : endState "INTO " = .rest := by decide
  have read : tokens ("INTO " ++ word) = [.word "INTO".toList, .word word.toList] := by
    rw [tokens_append_of_rest led, tokens_of_scan_word named.scan]
    rfl
  constructor
  · rw [endState_append_of_rest led, endState, named.scan]
    rfl
  · rw [read]
    simpa using ⟨by decide, noClause_of_isOrdinary named.ordinary⟩
  · intro after _
    refine ⟨[.introduced word.toList], ⟨rfl, by simp [uses], by simp [pseudos]⟩, ?_⟩
    rw [read, List.cons_append, List.singleton_append, roles, roles,
      place_of_isOrdinary named.ordinary]
    rfl

/-- What stands before a single equals sign is introduced; what stands behind it does not
start with another one. -/
theorem IsVariable.defined (named : IsVariable word)
    (piece : Mentions introduced visible pseudo text)
    (noEquals : (tokens text).head? ≠ some (.sign '=')) (filled : tokens text ≠ []) :
    Mentions (word.toList :: introduced) visible pseudo (word ++ (" = " ++ text)) := by
  have led : endState " = " = .rest := by decide
  have closed : (endState word).isClosed = true := by
    rw [endState, named.scan]
    rfl
  have fresh : startsFresh (" = " ++ text).toList = true := by
    rw [String.toList_append]
    rfl
  have read : tokens (word ++ (" = " ++ text)) =
      .word word.toList :: .sign '=' :: tokens text := by
    rw [tokens_append_of_fresh closed fresh, tokens_append_of_rest led,
      tokens_of_scan_word named.scan]
    rfl
  constructor
  · refine isClosed_append_of_fresh closed fresh ?_
    rw [endState_append_of_rest led]
    exact piece.closed
  · rw [read]
    simpa [Token.clauseKind?, noClause_of_isOrdinary named.ordinary] using piece.plain
  · intro after closing
    obtain ⟨found, isFound, reads⟩ := piece.found after closing
    obtain ⟨t, ts, spelled⟩ := List.exists_cons_of_ne_nil filled
    have value : role .free word.toList (.sign '=' :: (tokens text ++ after)) =
        [.introduced word.toList] := by
      have ordinary := named.ordinary
      simp only [isOrdinary, Bool.and_eq_true, Bool.not_eq_true'] at ordinary
      have single : startsValue (.sign '=' :: (tokens text ++ after)) = true := by
        rw [spelled] at noEquals ⊢
        simpa [startsValue] using noEquals
      rw [role, if_neg (by simp [ordinary]), if_neg, if_pos single]
      simp [ordinary, startsCall]
    have first : Found [word.toList] visible pseudo [.introduced word.toList] :=
      ⟨rfl, by simp [uses], by simp [pseudos]⟩
    have both : Found (word.toList :: introduced) visible pseudo
        ([.introduced word.toList] ++ found) := first.append isFound
    refine ⟨_, both, ?_⟩
    rw [read, List.cons_append, List.cons_append, roles, value,
      place_of_isOrdinary named.ordinary, List.append_assoc, ← reads]
    rfl

/-! ### Parameters and constants -/

theorem scan_number {read rest : List Char} (each : ∀ d ∈ rest, d.isDigit = true ∨ d = '.') :
    Aql.scan (.number read) rest = ([], .number (read ++ rest)) := by
  induction rest generalizing read with
  | nil => simp [Aql.scan]
  | cons d rest inductionHypothesis =>
      rw [List.forall_mem_cons] at each
      have goesOn : (State.number read).step d = ([], .number (read ++ [d])) := by
        rcases each.1 with digit | rfl
        · simp [State.step, digit]
        · simp [State.step]
      rw [Aql.scan, goesOn, inductionHypothesis each.2]
      simp

theorem scan_rest_number {c : Char} (digit : c.isDigit = true) {rest : List Char}
    (each : ∀ d ∈ rest, d.isDigit = true ∨ d = '.') :
    Aql.scan .rest (c :: rest) = ([], .number (c :: rest)) := by
  have noBacktick : c ≠ '`' := by
    rintro rfl
    cases digit
  have started : State.start c = ([], .number [c]) := by
    unfold State.start
    rw [if_neg noBacktick, if_neg (by simp [isQuote_of_isWordChar (isWordChar_of_isDigit digit)]),
      if_pos digit]
  rw [Aql.scan, State.step, started, scan_number each]
  rfl

theorem Mentions.number (number : NumberText text.toList) : Mentions [] visible pseudo text := by
  generalize spelled : text.toList = letters at number
  cases number with
  | @unsigned c rest digit others =>
      have scanned := scan_rest_number digit others
      rw [← spelled] at scanned
      apply Mentions.quiet
      · rw [endState, scanned]
        rfl
      · rw [tokens, scanned]
        rfl
  | @negative c rest digit others =>
      have scanned : Aql.scan .rest text.toList = ([.sign '-'], .number (c :: rest)) := by
        rw [spelled, Aql.scan]
        have sign : State.rest.step '-' = ([.sign '-'], .rest) := by decide
        rw [sign, scan_rest_number digit others]
        rfl
      apply Mentions.quiet
      · rw [endState, scanned]
        rfl
      · rw [tokens, scanned]
        rfl

/-- The number of a parameter stands behind an at sign. -/
theorem Mentions.param (n : Nat) : Mentions [] visible pseudo ("@" ++ toString n) := by
  have led : endState "@" = .rest := by decide
  obtain ⟨c, rest, spelled⟩ := List.exists_cons_of_ne_nil (Text.digitsOf_ne_nil n)
  have digits : ∀ d ∈ c :: rest, d.isDigit = true := by
    rw [← spelled]
    exact fun d => Text.isDigit_of_mem_digitsOf
  rw [List.forall_mem_cons] at digits
  have scanned : Aql.scan .rest (toString n).toList = ([], .number (c :: rest)) := by
    rw [Text.toList_toString, spelled]
    exact scan_rest_number digits.1 fun d member => .inl (digits.2 d member)
  have read : tokens ("@" ++ toString n) = [.sign '@', .number (c :: rest)] := by
    rw [tokens_append_of_rest led, tokens.eq_def (toString n), scanned]
    rfl
  constructor
  · rw [endState_append_of_rest led, endState, scanned]
    rfl
  · rw [read]
    simp [Token.clauseKind?]
  · intro after _
    refine ⟨[], .nil, ?_⟩
    rw [read]
    rfl

theorem Mentions.quoted (content : String) : Mentions [] visible pseudo (quoteText content) := by
  apply Mentions.quiet
  · rw [endState, scan_quoteText]
    rfl
  · rw [tokens, scan_quoteText]
    rfl

theorem Mentions.literal {value : Literal} (is : value.render = .ok text) :
    Mentions [] visible pseudo text := by
  cases value with
  | null =>
      cases is
      exact .quiet (by decide) (by decide)
  | bool b =>
      cases b <;>
      · cases is
        exact .quiet (by decide) (by decide)
  | int n =>
      cases is
      exact .number (numberText_toString n)
  | float x =>
      rw [Literal.render] at is
      split at is
      · cases is
        exact .number (numberText_plain x)
      · cases is
  | text content =>
      cases is
      exact .quoted content

end

end Aql

end DocStore
