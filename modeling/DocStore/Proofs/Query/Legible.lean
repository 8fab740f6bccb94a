/-
Module: DocStore.Proofs.Query.Legible
Purpose: expressions whose names and texts contain nothing that the store in memory searches
  a query for, and that nothing of the kind is found in what they are written as.
Main exports:
  Statement.Unmarked, Expr.Legible, Statement.Smooth, Expr.Legible.smooth_render
-/
import DocStore.Proofs.Json.Numeral
import DocStore.Proofs.Query.Shape

namespace DocStore

open Text Statement

namespace Text

/-- A character that the pattern lacks keeps it from going on behind the text. -/
theorem dropLeading?_before_foreign {pattern text : List Char}
    (missing : dropLeading? pattern text = none) {c : Char} (foreign : c ∉ pattern)
    (rest : List Char) : dropLeading? pattern (text ++ c :: rest) = none := by
  induction pattern generalizing text with
  | nil => cases missing
  | cons p pattern inductionHypothesis =>
      rw [List.mem_cons, not_or] at foreign
      cases text with
      | nil => exact dropLeading?_cons_of_ne _ _ (Ne.symm foreign.1)
      | cons d text =>
          by_cases same : p = d
          · subst same
            simp only [List.cons_append, dropLeading?, if_true] at missing ⊢
            exact inductionHypothesis missing foreign.2
          · exact dropLeading?_cons_of_ne _ _ same

theorem Clear.before_foreign {pattern text : List Char} (clear : Clear pattern text []) {c : Char}
    (foreign : c ∉ pattern) (rest : List Char) : Clear pattern text (c :: rest) := by
  induction text with
  | nil => trivial
  | cons d text inductionHypothesis =>
      have missing := clear.1
      rw [List.append_nil] at missing
      exact ⟨dropLeading?_before_foreign missing foreign rest, inductionHypothesis clear.2⟩

/-- Escapes hide no pattern without quotes and backslashes, and make up none. -/
theorem dropLeading?_escaped {pattern text : List Char}
    (missing : dropLeading? pattern text = none) (noQuote : '\'' ∉ pattern)
    (noBackslash : '\\' ∉ pattern) (rest : List Char) :
    dropLeading? pattern (text.flatMap quoteChar ++ '\'' :: rest) = none := by
  induction pattern generalizing text with
  | nil => cases missing
  | cons p pattern inductionHypothesis =>
      rw [List.mem_cons, not_or] at noQuote noBackslash
      cases text with
      | nil => exact dropLeading?_cons_of_ne _ _ (Ne.symm noQuote.1)
      | cons c text =>
          rw [List.flatMap_cons, quoteChar]
          split
          · exact dropLeading?_cons_of_ne _ _ (Ne.symm noBackslash.1)
          · split
            · exact dropLeading?_cons_of_ne _ _ (Ne.symm noBackslash.1)
            · by_cases same : p = c
              · subst same
                simp only [dropLeading?, if_true, List.cons_append, List.nil_append] at missing ⊢
                exact inductionHypothesis missing noQuote.2 noBackslash.2
              · exact dropLeading?_cons_of_ne _ _ same

theorem Clear.escaped {pattern text : List Char} (clear : Clear pattern text [])
    (noQuote : '\'' ∉ pattern) (noBackslash : '\\' ∉ pattern) (rest : List Char) :
    Clear pattern (text.flatMap quoteChar) ('\'' :: rest) := by
  induction text with
  | nil => trivial
  | cons c text inductionHypothesis =>
      have missing := clear.1
      rw [List.append_nil] at missing
      have whole := dropLeading?_escaped missing noQuote noBackslash rest
      have others := inductionHypothesis clear.2
      have nonempty : ∃ p tail, pattern = p :: tail := by
        cases pattern with
        | nil => cases missing
        | cons p tail => exact ⟨p, tail, rfl⟩
      rcases nonempty with ⟨p, tail, rfl⟩
      rw [List.flatMap_cons] at whole ⊢
      refine (clear_append _ _ _ _).mpr ⟨?_, others⟩
      rw [List.append_assoc] at whole
      unfold quoteChar at whole ⊢
      split
      · next backslash =>
          subst backslash
          simp only [List.mem_cons, not_or] at noBackslash
          exact ⟨dropLeading?_cons_of_ne _ _ (Ne.symm noBackslash.1),
            dropLeading?_cons_of_ne _ _ (Ne.symm noBackslash.1), trivial⟩
      · split
        · next quote =>
            subst quote
            simp only [List.mem_cons, not_or] at noBackslash noQuote
            exact ⟨dropLeading?_cons_of_ne _ _ (Ne.symm noBackslash.1),
              dropLeading?_cons_of_ne _ _ (Ne.symm noQuote.1), trivial⟩
        · next noEscape noEscape' =>
            rw [if_neg noEscape, if_neg noEscape'] at whole
            exact ⟨whole, trivial⟩

end Text

namespace Statement

/-! ### Names and texts without marks -/

/-- Nothing that a query is searched for occurs in a name or text. -/
def Unmarked (text : List Char) : Prop :=
  ∀ pattern ∈ searched, containsPattern pattern text = false

instance (text : List Char) : Decidable (Unmarked text) :=
  inferInstanceAs (Decidable (∀ pattern ∈ searched, containsPattern pattern text = false))

theorem Unmarked.clear {text pattern : List Char} (unmarked : Unmarked text)
    (member : pattern ∈ searched) : Clear pattern text [] := by
  have absent := unmarked pattern member
  unfold containsPattern at absent
  exact clear_of_splitOnce?_eq_none (Option.not_isSome_iff_eq_none.mp (by simp [absent]))

theorem silent_of_heads_notMem {text : List Char} (noSpace : ' ' ∉ text) (noLoop : 'F' ∉ text) :
    Silent text := by
  intro pattern member rest
  rcases List.mem_cons.mp member with rfl | clauseMember
  · exact clear_of_head_notMem _ _ noLoop
  · rcases List.mem_map.mp clauseMember with ⟨word, _, rfl⟩
    exact clear_of_head_notMem _ _ noSpace

/-- A name with a backtick behind it. -/
theorem silent_name {name : List Char} (unmarked : Unmarked name) : Silent (name ++ ['`']) := by
  have foreign : ∀ pattern ∈ searched, '`' ∉ pattern := by decide
  have closing : Silent ['`'] := silent_of_rulesOut (by decide)
  intro pattern member rest
  exact (clear_append _ _ _ _).mpr
    ⟨(unmarked.clear member).before_foreign (foreign pattern member) _, closing pattern member rest⟩

/-- A text in quotes. -/
theorem silent_quoted {text : List Char} (unmarked : Unmarked text) :
    Silent ('\'' :: (text.flatMap quoteChar ++ ['\''])) := by
  have noQuote : ∀ pattern ∈ searched, '\'' ∉ pattern := by decide
  have noBackslash : ∀ pattern ∈ searched, '\\' ∉ pattern := by decide
  have quote : Silent ['\''] := silent_of_rulesOut (by decide)
  intro pattern member rest
  have inner := (unmarked.clear member).escaped (noQuote pattern member)
    (noBackslash pattern member) rest
  exact (clear_append _ ['\''] (text.flatMap quoteChar ++ ['\'']) rest).mpr
    ⟨quote pattern member _, (clear_append _ _ _ _).mpr ⟨inner, quote pattern member rest⟩⟩

/-- A silent text that is silent after a space too. -/
structure Smooth (text : List Char) : Prop where
  silent : Silent text
  silent_space : Silent (' ' :: text)

theorem Smooth.append {text more : List Char} (smooth : Smooth text) (silent : Silent more) :
    Smooth (text ++ more) :=
  ⟨silent_append smooth.silent silent, silent_append smooth.silent_space silent⟩

theorem smooth_of_quiet {text : List Char} (quiet : Quiet text) : Smooth text :=
  ⟨quiet.silent, quiet.silent_space⟩

theorem smooth_of_cons {c : Char} {text : List Char} (silent : Silent (c :: text))
    (other : c ∉ initials) : Smooth (c :: text) :=
  smooth_of_quiet ⟨silent, c, text, rfl, other⟩

/-- The name of a function with the parenthesis after it. -/
theorem smooth_function {name : String} (plain : isPlainName name = true) :
    Smooth (name.toList ++ ['(']) := by
  have noSpace : ' ' ∉ name.toList ++ ['('] := by
    have absent : ' ' ∉ name.toList := notMem_of_isPlainName plain (by decide)
    simp [absent]
  have silent : Silent (name.toList ++ ['(']) := silent_word _ noSpace (by decide)
  refine ⟨silent, fun pattern member rest => ⟨?_, silent pattern member rest⟩⟩
  rcases List.mem_cons.mp member with rfl | clauseMember
  · exact dropLeading?_cons_of_ne _ _ (by decide)
  · rcases List.mem_map.mp clauseMember with ⟨word, inWords, rfl⟩
    have foreign : ∀ word ∈ clauseWords, '(' ∉ word := by decide
    have missing := not_dropLeading?_of_last noSpace (foreign word inWords) rest
    rw [keyword, dropLeading?, if_pos rfl, List.append_assoc]
    exact missing

theorem smooth_join {texts : List String} (each : ∀ text ∈ texts, Smooth text.toList) :
    Silent (join ", " texts).toList := by
  rw [toList_join]
  cases texts with
  | nil => exact fun _ _ _ => trivial
  | cons text rest =>
      have comma : Silent [','] := silent_of_rulesOut (by decide)
      refine silent_intercalate [] (by simp) (fun piece member => ?_) fun piece member => ?_
      · rcases List.mem_map.mp member with ⟨text, inTexts, rfl⟩
        exact (each text inTexts).silent
      · rcases List.mem_map.mp member with ⟨text, inTexts, rfl⟩
        have whole := silent_append comma (each text inTexts).silent_space
        exact whole

end Statement

/-! ### Legible expressions -/

/-- A constant that is written so that it can be read back: an integer of 64 bits, a double
whose text reads as this double, a text without marks. -/
def Literal.Legible : Literal → Prop
  | int value => -(signedLimit + 1 : Nat) ≤ value ∧ value ≤ signedLimit
  | float value => Json.parse? value.plain = some (.num (.real value))
  | text value => Unmarked value.toList
  | _ => True

mutual

/-- An expression without text taken as it is.  Its names and texts have no marks, and
its functions have plain names. -/
inductive Expr.Legible : Expr → Prop where
  | field (source : Nat) {name : String} (unmarked : Unmarked name.toList) :
      Expr.Legible (.field source name)
  | row (source : Nat) : Expr.Legible (.row source)
  | param (index : Nat) : Expr.Legible (.param index)
  | literal {value : Literal} (legible : value.Legible) : Expr.Legible (.literal value)
  | list {items : List Expr} (legible : Expr.AllLegible items) : Expr.Legible (.list items)
  | binary (op : BinaryOp) {left right : Expr} (legibleLeft : Expr.Legible left)
      (legibleRight : Expr.Legible right) : Expr.Legible (.binary op left right)
  | not {operand : Expr} (legible : Expr.Legible operand) : Expr.Legible (.not operand)
  | member {item collection : Expr} (legibleItem : Expr.Legible item)
      (legibleCollection : Expr.Legible collection) : Expr.Legible (.member item collection)
  | isNull {operand : Expr} (legible : Expr.Legible operand) : Expr.Legible (.isNull operand)
  | call {function : String} (plain : isPlainName function = true) {arguments : List Expr}
      (legible : Expr.AllLegible arguments) : Expr.Legible (.call function arguments)

/-- Legible expressions, one after the other. -/
inductive Expr.AllLegible : List Expr → Prop where
  | nil : Expr.AllLegible []
  | cons {e : Expr} {rest : List Expr} (legible : Expr.Legible e)
      (others : Expr.AllLegible rest) : Expr.AllLegible (e :: rest)

end

theorem Expr.allLegible_of_forall {es : List Expr} (each : ∀ e ∈ es, e.Legible) :
    Expr.AllLegible es := by
  induction es with
  | nil => exact .nil
  | cons e rest inductionHypothesis =>
      rw [List.forall_mem_cons] at each
      exact .cons each.1 (inductionHypothesis each.2)

/-- The fields and rows of a scope are written smoothly, the fields if their names have no
marks. -/
structure Scope.Smooth (s : Scope) : Prop where
  field : ∀ {source : Nat} {name text : String}, Unmarked name.toList →
    s.field source name = .ok text → Statement.Smooth text.toList
  row : ∀ {source : Nat} {text : String}, s.row source = .ok text → Statement.Smooth text.toList

namespace Literal

open Json.Reader

theorem numeric_of_numberText {text : List Char} (number : NumberText text) : Numeric text := by
  have chars : ∀ {c : Char} {rest : List Char}, c.isDigit = true →
      (∀ d ∈ rest, d.isDigit = true ∨ d = '.') → ∀ d ∈ c :: rest, isNumberChar d = true := by
    intro c rest digit others d member
    rcases List.mem_cons.mp member with rfl | later
    · exact isNumberChar_of_isDigit digit
    · rcases others d later with isDigit | rfl
      · exact isNumberChar_of_isDigit isDigit
      · decide
  cases number with
  | unsigned digit others => exact ⟨chars digit others, _, _, rfl, .inr digit⟩
  | negative digit others =>
      exact ⟨List.forall_mem_cons.mpr ⟨by decide, chars digit others⟩, _, _, rfl, .inl rfl⟩

end Literal

theorem smooth_of_numeric {text : List Char} (numeric : Json.Reader.Numeric text) :
    Smooth text := by
  rcases numeric with ⟨chars, c, rest, rfl, head⟩
  have absent : ∀ d : Char, Json.Reader.isNumberChar d = false → d ∉ c :: rest := by
    intro d other member
    rw [chars d member] at other
    cases other
  refine smooth_of_cons (silent_of_heads_notMem (absent _ (by decide)) (absent _ (by decide))) ?_
  intro member
  rcases head with rfl | digit
  · revert member
    decide
  · have letters : initials.any Char.isDigit = false := by decide
    exact List.any_eq_false.mp letters _ member digit

theorem Literal.Legible.smooth {value : Literal} (legible : value.Legible) {text : String}
    (is : value.render = .ok text) : Smooth text.toList := by
  cases value with
  | null =>
      cases is
      exact ⟨silent_of_rulesOut (by decide), silent_of_rulesOut (by decide)⟩
  | bool value =>
      cases value <;> cases is <;>
        exact ⟨silent_of_rulesOut (by decide), silent_of_rulesOut (by decide)⟩
  | int value =>
      cases is
      exact smooth_of_numeric (numeric_of_numberText (numberText_toString value))
  | float value =>
      rw [render] at is
      split at is
      · cases is
        exact smooth_of_numeric (numeric_of_numberText (numberText_plain value))
      · cases is
  | text value =>
      cases is
      rw [quoteText, String.toList_ofList]
      exact smooth_of_cons (silent_quoted legible) (by decide)

namespace Expr

theorem smooth_parens {text : String} (silent : Silent text.toList) :
    Smooth (parens text).toList := by
  have spelled : (parens text).toList = '(' :: (text.toList ++ [')']) := by
    simp [parens]
  have opening : Silent ['('] := silent_of_rulesOut (by decide)
  have closing : Silent [')'] := silent_of_rulesOut (by decide)
  rw [spelled]
  exact smooth_of_cons (silent_append opening (silent_append silent closing)) (by decide)

theorem smooth_asOperand (e : Expr) {text : String} (smooth : Smooth text.toList) :
    Smooth (e.asOperand text).toList := by
  unfold asOperand
  split
  · exact smooth_parens smooth.silent
  · exact smooth

mutual

/-- A legible expression is written smoothly. -/
theorem Legible.smooth_render {s : Scope} (scope : s.Smooth) :
    ∀ {e : Expr}, e.Legible → ∀ {text : String}, e.render s = .ok text → Smooth text.toList
  | _, .field _ unmarked, _, is => scope.field unmarked is
  | _, .row _, _, is => scope.row is
  | _, .param index, text, is => by
      rw [render, Scope.param] at is
      split at is
      · cases is
      · cases is
        have digits := (quiet_digitsOf (index + 1)).silent
        have sign : Silent ['@'] := silent_of_rulesOut (by decide)
        rw [String.toList_append, toList_toString]
        exact smooth_of_cons (silent_append sign digits) (by decide)
  | _, .literal legible, _, is => legible.smooth is
  | _, .list legible, text, is => by
      rw [render] at is
      rcases exceptBind_eq_ok_iff.mp is with ⟨texts, rendered, same⟩
      cases same
      have inner := smooth_join (legible.smooth_renderAll scope rendered)
      have spelled : ("[" ++ join ", " texts ++ "]").toList =
          '[' :: ((join ", " texts).toList ++ [']']) := by simp
      have opening : Silent ['['] := silent_of_rulesOut (by decide)
      have closing : Silent [']'] := silent_of_rulesOut (by decide)
      rw [spelled]
      exact smooth_of_cons (silent_append opening (silent_append inner closing)) (by decide)
  | _, @Expr.Legible.binary op l r legibleLeft legibleRight, text, is => by
      rw [render] at is
      rcases exceptBind_eq_ok_iff.mp is with ⟨left, leftRendered, is⟩
      rcases exceptBind_eq_ok_iff.mp is with ⟨right, rightRendered, same⟩
      cases same
      have first := smooth_asOperand l (legibleLeft.smooth_render scope leftRendered)
      have second := smooth_asOperand r (legibleRight.smooth_render scope rightRendered)
      have sign : Silent (' ' :: op.symbol.toList) := by
        cases op <;> exact silent_of_rulesOut (by decide)
      have spelled : (l.asOperand left ++ " " ++ op.symbol ++ " " ++ r.asOperand right).toList =
          (l.asOperand left).toList ++ ((' ' :: op.symbol.toList) ++
            (' ' :: (r.asOperand right).toList)) := by simp
      rw [spelled]
      exact first.append (silent_append sign second.silent_space)
  | _, .not legible, text, is => by
      rw [render] at is
      rcases exceptBind_eq_ok_iff.mp is with ⟨operand, rendered, same⟩
      cases same
      have inner := smooth_parens (legible.smooth_render scope rendered).silent
      have word : Smooth "NOT".toList :=
        ⟨silent_of_rulesOut (by decide), silent_of_rulesOut (by decide)⟩
      rw [String.toList_append]
      exact word.append inner.silent_space
  | _, @Expr.Legible.member item collection legibleItem legibleCollection, text, is => by
      by_cases filled : collection = .list []
      · subst filled
        cases is
        exact ⟨silent_of_rulesOut (by decide), silent_of_rulesOut (by decide)⟩
      · rw [render_member filled] at is
        rcases exceptBind_eq_ok_iff.mp is with ⟨left, leftRendered, is⟩
        rcases exceptBind_eq_ok_iff.mp is with ⟨right, rightRendered, same⟩
        cases same
        have first := smooth_asOperand item (legibleItem.smooth_render scope leftRendered)
        have second := legibleCollection.smooth_render scope rightRendered
        have word : Silent " IN".toList := silent_of_rulesOut (by decide)
        have spelled : (item.asOperand left ++ " IN " ++ right).toList =
            (item.asOperand left).toList ++ (" IN".toList ++ (' ' :: right.toList)) := by simp
        rw [spelled]
        exact first.append (silent_append word second.silent_space)
  | _, @Expr.Legible.isNull e legible, text, is => by
      rw [render] at is
      rcases exceptBind_eq_ok_iff.mp is with ⟨operand, rendered, same⟩
      cases same
      have inner := smooth_asOperand e (legible.smooth_render scope rendered)
      have word : Silent " == NULL".toList := silent_of_rulesOut (by decide)
      rw [String.toList_append]
      exact inner.append word
  | _, @Expr.Legible.call function plain _ legible, text, is => by
      rw [render] at is
      rcases exceptBind_eq_ok_iff.mp is with ⟨texts, rendered, same⟩
      cases same
      have inner := smooth_join (legible.smooth_renderAll scope rendered)
      have closing : Silent [')'] := silent_of_rulesOut (by decide)
      have spelled : (function ++ parens (join ", " texts)).toList =
          (function.toList ++ ['(']) ++ ((join ", " texts).toList ++ [')']) := by
        simp [parens]
      rw [spelled]
      exact (smooth_function plain).append (silent_append inner closing)

/-- Legible expressions are written smoothly one by one. -/
theorem AllLegible.smooth_renderAll {s : Scope} (scope : s.Smooth) :
    ∀ {es : List Expr}, Expr.AllLegible es → ∀ {texts : List String},
      renderAll s es = .ok texts → ∀ text ∈ texts, Smooth text.toList
  | _, .nil, _, is => by
      cases is
      simp
  | _, .cons legible others, _, is => by
      rw [renderAll] at is
      rcases exceptBind_eq_ok_iff.mp is with ⟨first, rendered, is⟩
      rcases exceptBind_eq_ok_iff.mp is with ⟨rest, restRendered, same⟩
      cases same
      exact List.forall_mem_cons.mpr
        ⟨legible.smooth_render scope rendered, others.smooth_renderAll scope restRendered⟩

end

end Expr

end DocStore
