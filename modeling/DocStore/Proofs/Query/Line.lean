/-
Module: DocStore.Proofs.Query.Line
Purpose: texts that are put together from words, names, texts in quotes, lists, calls and
  parentheses with signs between them, and that no text is put together in two ways.
Main exports:
  Aql.Leaf, Aql.Sign, Aql.Term, Aql.Line, Aql.Line.text, Aql.Line.text_injective
-/
import DocStore.Proofs.Query.Quoted

namespace DocStore.Aql

open Text

/-- The characters inside of words: all but the signs that texts are put together with. -/
def isInner (c : Char) : Bool :=
  !([' ', '(', ')', '[', ']', ',', '`', '\''].contains c)

/-- The word before a text in parentheses that is negated. -/
def negator : List Char := "NOT".toList

/-! ### Terms and lines -/

/-- A text that is not put together from others: a word, a name between backticks behind a
word, or a text in quotes. -/
inductive Leaf where
  | word (text : List Char) (filled : text ≠ []) (inner : ∀ c ∈ text, isInner c = true)
      (other : text ≠ negator)
  | name (front content : List Char) (inner : ∀ c ∈ front, isInner c = true)
      (closed : '`' ∉ content)
  | quoted (content : String)

/-- What stands between two terms: an operator, or the word for membership. -/
inductive Sign where
  | operator (op : BinaryOp)
  | among
deriving DecidableEq, Repr

mutual

/-- A part of a line that nothing can be taken from: its parts are between brackets. -/
inductive Term where
  | leaf (leaf : Leaf)
  | list (items : List Line)
  | call (function : List Char) (filled : function ≠ [])
      (inner : ∀ c ∈ function, isInner c = true) (arguments : List Line)
  | not (operand : Line)
  | group (inner : Line)

/-- Terms with signs between them. -/
inductive Line where
  | single (term : Term)
  | chain (first : Term) (sign : Sign) (rest : Line)

end

namespace Leaf

/-- The text of a leaf. -/
def text : Leaf → List Char
  | word text .. => text
  | name front content .. => front ++ '`' :: (content ++ ['`'])
  | quoted content => (quoteText content).toList

end Leaf

namespace Sign

/-- The text of a sign without the spaces around it. -/
def symbol : Sign → List Char
  | operator op => op.symbol.toList
  | among => "IN".toList

/-- The sign that a text stands for. -/
def ofSymbol? (text : List Char) : Option Sign :=
  [operator .eq, operator .ne, operator .le, operator .ge, operator .lt, operator .gt,
    operator .and, operator .or, operator .like, operator .add, operator .sub, operator .mul,
    operator .div, among].find? fun sign => sign.symbol == text

/-- The text of a sign between two terms. -/
def text (sign : Sign) : List Char :=
  ' ' :: (sign.symbol ++ [' '])

theorem ofSymbol?_symbol (sign : Sign) : ofSymbol? sign.symbol = some sign := by
  cases sign with
  | operator op => cases op <;> rfl
  | among => rfl

theorem symbol_inner (sign : Sign) : ∀ c ∈ sign.symbol, isInner c = true := by
  cases sign with
  | operator op => cases op <;> exact List.all_eq_true.mp (by decide)
  | among => exact List.all_eq_true.mp (by decide)

end Sign

mutual

/-- The text of a term. -/
def Term.text : Term → List Char
  | .leaf leaf => leaf.text
  | .list items => '[' :: (Line.enclosed items ++ [']'])
  | .call function _ _ arguments => function ++ '(' :: (Line.enclosed arguments ++ [')'])
  | .not operand => negator ++ ' ' :: '(' :: (operand.text ++ [')'])
  | .group inner => '(' :: (inner.text ++ [')'])

/-- The text of a line. -/
def Line.text : Line → List Char
  | .single term => term.text
  | .chain first sign rest => first.text ++ (sign.text ++ rest.text)

/-- The texts of lines with commas between neighbours. -/
def Line.enclosed : List Line → List Char
  | [] => []
  | first :: rest => first.text ++ Line.followed rest

/-- The texts of lines with a comma before each of them. -/
def Line.followed : List Line → List Char
  | [] => []
  | first :: rest => ',' :: ' ' :: (first.text ++ Line.followed rest)

end

theorem Line.enclosed_eq (lines : List Line) :
    Line.enclosed lines = ", ".toList.intercalate (lines.map Line.text) := by
  cases lines with
  | nil => rfl
  | cons first rest =>
      rw [enclosed]
      induction rest generalizing first with
      | nil => simp [followed]
      | cons second rest inductionHypothesis =>
          rw [followed, inductionHypothesis, List.map_cons, List.map_cons, List.map_cons,
            List.intercalate_cons_cons, List.append_assoc]
          rfl

/-- Put a sign and a further line behind a line. -/
def Line.append : Line → Sign → Line → Line
  | .single term, sign, rest => .chain term sign rest
  | .chain first own others, sign, rest => .chain first own (others.append sign rest)

theorem Line.append_text (line : Line) (sign : Sign) (rest : Line) :
    (line.append sign rest).text = line.text ++ (sign.text ++ rest.text) := by
  cases line with
  | single term => rfl
  | chain first own others =>
      rw [append, text, append_text others sign rest, text]
      simp

theorem Line.append_append (line : Line) (sign : Sign) (term : Term) (next : Sign) (rest : Line) :
    (line.append sign (.single term)).append next rest =
      line.append sign (.chain term next rest) := by
  cases line with
  | single first => rfl
  | chain first own others => rw [append, append, append, append_append others]

/-! ### What a text begins with -/

/-- What follows a term: nothing, a sign, or the end of what the term is a part of. -/
def FollowsTerm (rest : List Char) : Prop :=
  ∀ c ∈ rest.head?, c ∈ [' ', ',', ')', ']']

/-- What follows a line: nothing, or the end of what the line is a part of. -/
def FollowsLine (rest : List Char) : Prop :=
  ∀ c ∈ rest.head?, c ∈ [',', ')', ']']

theorem FollowsLine.term {rest : List Char} (follows : FollowsLine rest) : FollowsTerm rest :=
  fun c first => List.mem_cons_of_mem _ (follows c first)

theorem FollowsTerm.outer {rest : List Char} (follows : FollowsTerm rest) :
    ∀ c ∈ rest.head?, isInner c = false := by
  have signs : [' ', ',', ')', ']'].any isInner = false := by decide
  exact fun c first => Bool.eq_false_iff.mpr (List.any_eq_false.mp signs c (follows c first))

theorem followsTerm_space (rest : List Char) : FollowsTerm (' ' :: rest) := by
  intro c first
  cases first
  decide

theorem followsLine_of_mem {c : Char} (ends : c ∈ [',', ')', ']']) (rest : List Char) :
    FollowsLine (c :: rest) := by
  intro d first
  cases first
  exact ends

/-- The kinds of terms. -/
inductive Kind where
  | word
  | name
  | quoted
  | list
  | call
  | not
  | group
deriving DecidableEq, Repr

/-- The kind of the term that a text begins with, by its first word and the sign behind it. -/
def kindOf (text : List Char) : Kind :=
  match text.dropWhile isInner with
  | '`' :: _ => .name
  | '\'' :: _ => .quoted
  | '[' :: _ => .list
  | '(' :: _ => if text.takeWhile isInner = [] then .group else .call
  | _ => if text.takeWhile isInner = negator then .not else .word

/-- The kind of a term. -/
def Term.kind : Term → Kind
  | .leaf (.word ..) => .word
  | .leaf (.name ..) => .name
  | .leaf (.quoted _) => .quoted
  | .list _ => .list
  | .call .. => .call
  | .not _ => .not
  | .group _ => .group

section

variable {front : List Char} (inner : ∀ c ∈ front, isInner c = true)
include inner

theorem kindOf_word {rest : List Char} (follows : FollowsTerm rest) :
    kindOf (front ++ rest) = if front = negator then .not else .word := by
  rw [kindOf, takeWhile_run inner follows.outer, dropWhile_run inner follows.outer]
  cases rest with
  | nil => rfl
  | cons c rest =>
      have sign := follows c rfl
      simp only [List.mem_cons, List.not_mem_nil, or_false] at sign
      rcases sign with rfl | rfl | rfl | rfl <;> rfl

theorem kindOf_opening (rest : List Char) :
    kindOf (front ++ '(' :: rest) = if front = [] then .group else .call := by
  have outer : ∀ c ∈ ('(' :: rest).head?, isInner c = false := by
    intro c first
    cases first
    decide
  rw [kindOf, takeWhile_run inner outer, dropWhile_run inner outer]
  rfl

theorem kindOf_backtick (rest : List Char) : kindOf (front ++ '`' :: rest) = .name := by
  have outer : ∀ c ∈ ('`' :: rest).head?, isInner c = false := by
    intro c first
    cases first
    decide
  rw [kindOf, dropWhile_run inner outer]
  rfl

end

theorem negator_inner : ∀ c ∈ negator, isInner c = true :=
  List.all_eq_true.mp (by decide)

/-- A text begins with a term of the kind that its first signs tell. -/
theorem Term.kindOf_text (term : Term) {rest : List Char} (follows : FollowsTerm rest) :
    kindOf (term.text ++ rest) = term.kind := by
  cases term with
  | leaf leaf =>
      cases leaf with
      | word text filled inner other => exact (kindOf_word inner follows).trans (if_neg other)
      | name front content inner closed =>
          rw [text, Leaf.text, List.append_assoc]
          exact kindOf_backtick inner _
      | quoted content =>
          rw [text, Leaf.text, Statement.toList_quoteText]
          rfl
  | list items => rfl
  | call function filled inner arguments =>
      rw [text, List.append_assoc]
      exact (kindOf_opening inner _).trans (if_neg filled)
  | not operand =>
      rw [text, List.append_assoc]
      exact (kindOf_word negator_inner (followsTerm_space _)).trans (if_pos rfl)
  | group inner => rfl

/-- No term begins with what follows one. -/
theorem Term.text_head (term : Term) :
    ∃ c more, term.text = c :: more ∧ c ∉ [' ', ',', ')', ']'] := by
  have ofWord : ∀ word more : List Char, word ≠ [] → (∀ c ∈ word, isInner c = true) →
      ∃ c rest, word ++ more = c :: rest ∧ c ∉ [' ', ',', ')', ']'] := by
    intro word more filled inner
    cases word with
    | nil => exact absurd rfl filled
    | cons c word =>
        refine ⟨c, word ++ more, rfl, fun sign => ?_⟩
        have signs : [' ', ',', ')', ']'].any isInner = false := by decide
        exact List.any_eq_false.mp signs c sign (inner c List.mem_cons_self)
  cases term with
  | leaf leaf =>
      cases leaf with
      | word text filled inner other =>
          have whole := ofWord text [] filled inner
          rwa [List.append_nil] at whole
      | name front content inner closed =>
          cases front with
          | nil => exact ⟨'`', content ++ ['`'], rfl, by decide⟩
          | cons c front => exact ofWord (c :: front) _ (by simp) inner
      | quoted content => exact ⟨'\'', _, Statement.toList_quoteText content, by decide⟩
  | list items => exact ⟨'[', _, rfl, by decide⟩
  | call function filled inner arguments => exact ofWord function _ filled inner
  | not operand => exact ofWord negator _ (by decide) negator_inner
  | group inner => exact ⟨'(', _, rfl, by decide⟩

theorem Line.text_head (line : Line) :
    ∃ c more, line.text = c :: more ∧ c ∉ [' ', ',', ')', ']'] := by
  cases line with
  | single term => exact term.text_head
  | chain first sign rest =>
      obtain ⟨c, more, spelled, other⟩ := first.text_head
      exact ⟨c, more ++ (sign.text ++ rest.text), by rw [text, spelled]; rfl, other⟩

/-! ### No text is put together in two ways -/

theorem Leaf.unique {leaf other : Leaf} {rest more : List Char} (follows : FollowsTerm rest)
    (follows' : FollowsTerm more) (same : leaf.text ++ rest = other.text ++ more) :
    leaf = other ∧ rest = more := by
  have kinds : (Term.leaf leaf).kind = (Term.leaf other).kind := by
    rw [← Term.kindOf_text _ follows, ← Term.kindOf_text _ follows', Term.text, Term.text, same]
  cases leaf with
  | word text filled inner free =>
      cases other with
      | word text' filled' inner' free' =>
          obtain ⟨rfl, rests⟩ := run_unique inner follows.outer inner' follows'.outer same
          exact ⟨rfl, rests⟩
      | _ => cases kinds
  | name front content inner closed =>
      cases other with
      | name front' content' inner' closed' =>
          simp only [text, List.append_assoc, List.cons_append, List.nil_append] at same
          have absent : ∀ word : List Char, (∀ c ∈ word, isInner c = true) → '`' ∉ word :=
            fun word inner member => absurd (inner _ member) (by decide)
          obtain ⟨rfl, behind⟩ := append_cons_inj (absent _ inner) (absent _ inner') same
          obtain ⟨rfl, rests⟩ := append_cons_inj closed closed' behind
          exact ⟨rfl, rests⟩
      | _ => cases kinds
  | quoted content =>
      cases other with
      | quoted content' =>
          obtain ⟨rfl, rests⟩ := Statement.quoteText_unique same
          exact ⟨rfl, rests⟩
      | _ => cases kinds

theorem Sign.unique (sign other : Sign) {rest more : List Char}
    (same : sign.text ++ rest = other.text ++ more) : sign = other ∧ rest = more := by
  have spelled : ∀ (sign : Sign) (rest : List Char),
      sign.text ++ rest = ' ' :: (sign.symbol ++ ' ' :: rest) := by
    intro sign rest
    simp [text]
  have space : ∀ rest : List Char, ∀ c ∈ (' ' :: rest).head?, isInner c = false :=
    fun rest => (followsTerm_space rest).outer
  rw [spelled, spelled] at same
  obtain ⟨symbols, rests⟩ := run_unique sign.symbol_inner (space _) other.symbol_inner (space _)
    (List.cons.inj same).2
  have signs := sign.ofSymbol?_symbol
  rw [symbols, other.ofSymbol?_symbol] at signs
  exact ⟨(Option.some.inj signs).symm, (List.cons.inj rests).2⟩

theorem followsLine_followed (lines : List Line) {c : Char} (closing : c ∈ [')', ']'])
    (rest : List Char) : FollowsLine (Line.followed lines ++ c :: rest) := by
  cases lines with
  | nil => exact followsLine_of_mem (List.mem_cons_of_mem _ closing) rest
  | cons first others => exact followsLine_of_mem (by decide) _

mutual

/-- Where a term ends, whatever follows it, and what it consists of. -/
theorem Term.unique (term other : Term) {rest more : List Char} (follows : FollowsTerm rest)
    (follows' : FollowsTerm more) (same : term.text ++ rest = other.text ++ more) :
    term = other ∧ rest = more := by
  have kinds : term.kind = other.kind := by
    rw [← term.kindOf_text follows, ← other.kindOf_text follows', same]
  cases term with
  | leaf leaf =>
      cases other with
      | leaf leaf' =>
          obtain ⟨rfl, rests⟩ := Leaf.unique follows follows' same
          exact ⟨rfl, rests⟩
      | _ => cases leaf <;> cases kinds
  | list items =>
      cases other with
      | list items' =>
          simp only [Term.text, List.cons_append, List.append_assoc, List.nil_append,
            List.cons.injEq, true_and] at same
          obtain ⟨rfl, rests⟩ := Line.enclosed_unique items items' (by decide) same
          exact ⟨rfl, rests⟩
      | leaf leaf' => cases leaf' <;> cases kinds
      | _ => cases kinds
  | call function filled inner arguments =>
      cases other with
      | call function' filled' inner' arguments' =>
          simp only [Term.text, List.cons_append, List.append_assoc, List.nil_append] at same
          have absent : ∀ word : List Char, (∀ c ∈ word, isInner c = true) → '(' ∉ word :=
            fun word inner member => absurd (inner _ member) (by decide)
          obtain ⟨rfl, behind⟩ := append_cons_inj (absent _ inner) (absent _ inner') same
          obtain ⟨rfl, rests⟩ := Line.enclosed_unique arguments arguments' (by decide) behind
          exact ⟨rfl, rests⟩
      | leaf leaf' => cases leaf' <;> cases kinds
      | _ => cases kinds
  | not operand =>
      cases other with
      | not operand' =>
          simp only [Term.text, List.cons_append, List.append_assoc, List.nil_append,
            List.append_cancel_left_eq, List.cons.injEq, true_and] at same
          obtain ⟨rfl, behind⟩ := Line.unique operand operand'
            (followsLine_of_mem (by decide) rest) (followsLine_of_mem (by decide) more) same
          exact ⟨rfl, (List.cons.inj behind).2⟩
      | leaf leaf' => cases leaf' <;> cases kinds
      | _ => cases kinds
  | group inner =>
      cases other with
      | group inner' =>
          simp only [Term.text, List.cons_append, List.append_assoc, List.nil_append,
            List.cons.injEq, true_and] at same
          obtain ⟨rfl, behind⟩ := Line.unique inner inner'
            (followsLine_of_mem (by decide) rest) (followsLine_of_mem (by decide) more) same
          exact ⟨rfl, (List.cons.inj behind).2⟩
      | leaf leaf' => cases leaf' <;> cases kinds
      | _ => cases kinds

/-- Where a line ends, whatever follows it, and what it consists of. -/
theorem Line.unique (line other : Line) {rest more : List Char} (follows : FollowsLine rest)
    (follows' : FollowsLine more) (same : line.text ++ rest = other.text ++ more) :
    line = other ∧ rest = more := by
  cases line with
  | single term =>
      cases other with
      | single term' =>
          obtain ⟨rfl, rests⟩ := Term.unique term term' follows.term follows'.term same
          exact ⟨rfl, rests⟩
      | chain first' sign' others' =>
          rw [Line.text, Line.text, List.append_assoc] at same
          obtain ⟨-, rests⟩ := Term.unique term first' follows.term (followsTerm_space _) same
          have ends := follows ' ' (by rw [rests]; rfl)
          exact absurd ends (by decide)
  | chain first sign others =>
      cases other with
      | single term' =>
          rw [Line.text, Line.text, List.append_assoc] at same
          obtain ⟨-, rests⟩ := Term.unique first term' (followsTerm_space _) follows'.term same
          have ends := follows' ' ' (by rw [← rests]; rfl)
          exact absurd ends (by decide)
      | chain first' sign' others' =>
          simp only [Line.text, List.append_assoc] at same
          obtain ⟨rfl, behind⟩ :=
            Term.unique first first' (followsTerm_space _) (followsTerm_space _) same
          obtain ⟨rfl, tails⟩ := Sign.unique sign sign' behind
          obtain ⟨rfl, rests⟩ := Line.unique others others' follows follows' tails
          exact ⟨rfl, rests⟩

/-- Lines between two brackets. -/
theorem Line.enclosed_unique (lines others : List Line) {c : Char} (closing : c ∈ [')', ']'])
    {rest more : List Char}
    (same : Line.enclosed lines ++ c :: rest = Line.enclosed others ++ c :: more) :
    lines = others ∧ rest = more := by
  have opened : ∀ (first : Line) (behind more : List Char), c :: more ≠ first.text ++ behind := by
    intro first behind more equal
    obtain ⟨d, tail, spelled, other⟩ := first.text_head
    rw [spelled, List.cons_append] at equal
    rw [← (List.cons.inj equal).1] at other
    exact other (List.mem_cons_of_mem _ (List.mem_cons_of_mem _ closing))
  cases lines with
  | nil =>
      cases others with
      | nil => exact ⟨rfl, (List.cons.inj same).2⟩
      | cons first' others' =>
          rw [Line.enclosed, Line.enclosed, List.append_assoc] at same
          exact absurd same (opened _ _ _)
  | cons first lines =>
      cases others with
      | nil =>
          rw [Line.enclosed, Line.enclosed, List.append_assoc] at same
          exact absurd same.symm (opened _ _ _)
      | cons first' others' =>
          rw [Line.enclosed, Line.enclosed, List.append_assoc, List.append_assoc] at same
          obtain ⟨rfl, behind⟩ := Line.unique first first'
            (followsLine_followed lines closing rest) (followsLine_followed others' closing more)
            same
          obtain ⟨rfl, rests⟩ := Line.followed_unique lines others' closing behind
          exact ⟨rfl, rests⟩

/-- Further lines up to a closing bracket. -/
theorem Line.followed_unique (lines others : List Line) {c : Char} (closing : c ∈ [')', ']'])
    {rest more : List Char}
    (same : Line.followed lines ++ c :: rest = Line.followed others ++ c :: more) :
    lines = others ∧ rest = more := by
  have noComma : c ≠ ',' := by
    rintro rfl
    exact absurd closing (by decide)
  cases lines with
  | nil =>
      cases others with
      | nil => exact ⟨rfl, (List.cons.inj same).2⟩
      | cons first' others' => exact absurd (List.cons.inj same).1 noComma
  | cons first lines =>
      cases others with
      | nil => exact absurd (List.cons.inj same).1.symm noComma
      | cons first' others' =>
          simp only [Line.followed, List.cons_append, List.append_assoc, List.cons.injEq,
            true_and] at same
          obtain ⟨rfl, behind⟩ := Line.unique first first'
            (followsLine_followed lines closing rest) (followsLine_followed others' closing more)
            same
          obtain ⟨rfl, rests⟩ := Line.followed_unique lines others' closing behind
          exact ⟨rfl, rests⟩

end

/-- Lines with the same text are equal. -/
theorem Line.text_injective : Function.Injective Line.text := by
  intro line other same
  have ends : FollowsLine [] := fun c first => by cases first
  exact (Line.unique line other ends ends (by rw [same])).1

end DocStore.Aql
