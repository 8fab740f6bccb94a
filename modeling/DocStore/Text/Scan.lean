/-
Module: DocStore.Text.Scan
Purpose: finding, cutting and replacing a pattern in a list of characters.
Main exports:
  Text.dropLeading?, Text.dropTrailing?, Text.splitOnce?, Text.splitAll,
  Text.find?, Text.occurrences, Text.replaceAll, Text.join
-/

namespace DocStore.Text

/-!
A pattern is matched from left to right and matches do not overlap.  No pattern
used in this library is empty.
-/

/-- What follows `pattern` in a text that starts with it. -/
def dropLeading? : List Char → List Char → Option (List Char)
  | [], text => some text
  | _ :: _, [] => none
  | p :: pattern, c :: text => if p = c then dropLeading? pattern text else none

/-- What precedes `pattern` in a text that ends with it. -/
def dropTrailing? (pattern text : List Char) : Option (List Char) :=
  (dropLeading? pattern.reverse text.reverse).map List.reverse

/-- The text before and after the first occurrence of `pattern`. -/
def splitOnce? (pattern : List Char) : List Char → Option (List Char × List Char)
  | [] => none
  | c :: rest =>
      match dropLeading? pattern (c :: rest) with
      | some after => some ([], after)
      | none => (splitOnce? pattern rest).map fun cut => (c :: cut.1, cut.2)

/-- The number of characters before the first occurrence of `pattern`. -/
def find? (pattern text : List Char) : Option Nat :=
  (splitOnce? pattern text).map fun cut => cut.1.length

/-- Put a character in front of the first piece. -/
def consFirst (c : Char) : List (List Char) → List (List Char)
  | [] => [[c]]
  | piece :: pieces => (c :: piece) :: pieces

/-- The pieces between the occurrences of `pattern`, when the next `skip`
characters belong to an occurrence already counted. -/
def splitFrom (pattern : List Char) : Nat → List Char → List (List Char)
  | _, [] => [[]]
  | skip + 1, _ :: rest => splitFrom pattern skip rest
  | 0, c :: rest =>
      if (dropLeading? pattern (c :: rest)).isSome then
        [] :: splitFrom pattern (pattern.length - 1) rest
      else consFirst c (splitFrom pattern 0 rest)

/-- The pieces between the occurrences of `pattern`; one more than there are
occurrences. -/
def splitAll (pattern text : List Char) : List (List Char) :=
  splitFrom pattern 0 text

/-- How often `pattern` occurs. -/
def occurrences (pattern text : List Char) : Nat :=
  (splitAll pattern text).length - 1

/-- The text with every occurrence of `pattern` replaced. -/
def replaceAll (pattern replacement text : List Char) : List Char :=
  replacement.intercalate (splitAll pattern text)

/-- Whether `pattern` occurs. -/
def containsPattern (pattern text : List Char) : Bool :=
  (splitOnce? pattern text).isSome

/-- Texts in a row with `separator` between neighbours. -/
def join (separator : String) : List String → String
  | [] => ""
  | [s] => s
  | s :: rest => s ++ separator ++ join separator rest

/-- The pieces of a text between the occurrences of a character. -/
def splitAt (separator : Char) (text : String) : List String :=
  (splitAll [separator] text.toList).map String.ofList

/-- The text without its leading characters equal to `c`. -/
def trimLeading (c : Char) (text : List Char) : List Char :=
  text.dropWhile (· == c)

/-- The text without its trailing characters equal to `c`. -/
def trimTrailing (c : Char) (text : List Char) : List Char :=
  (text.reverse.dropWhile (· == c)).reverse

/-- Upper-case ASCII letters made lower-case. -/
def lowerAscii (text : String) : String :=
  String.ofList (text.toList.map Char.toLower)

theorem dropLeading?_append (pattern rest : List Char) :
    dropLeading? pattern (pattern ++ rest) = some rest := by
  induction pattern with
  | nil => rfl
  | cons p pattern ih => simp [dropLeading?, ih]

theorem eq_append_of_dropLeading? {pattern text rest : List Char}
    (h : dropLeading? pattern text = some rest) : text = pattern ++ rest := by
  induction pattern generalizing text with
  | nil => simpa [dropLeading?] using h
  | cons p pattern ih =>
      cases text with
      | nil => simp [dropLeading?] at h
      | cons c text =>
          rw [dropLeading?] at h
          split at h
          · next hpc =>
              subst hpc
              simp [ih h]
          · cases h

theorem dropTrailing?_append (text pattern : List Char) :
    dropTrailing? pattern (text ++ pattern) = some text := by
  rw [dropTrailing?, List.reverse_append, dropLeading?_append]
  simp

theorem eq_append_of_dropTrailing? {pattern text front : List Char}
    (dropped : dropTrailing? pattern text = some front) : text = front ++ pattern := by
  rw [dropTrailing?] at dropped
  rcases Option.map_eq_some_iff.mp dropped with ⟨rest, found, rfl⟩
  have whole := congrArg List.reverse (eq_append_of_dropLeading? found)
  simpa using whole

theorem eq_append_of_splitOnce? {pattern text before after : List Char}
    (h : splitOnce? pattern text = some (before, after)) :
    text = before ++ pattern ++ after := by
  induction text generalizing before with
  | nil => simp [splitOnce?] at h
  | cons c text ih =>
      rw [splitOnce?] at h
      cases hd : dropLeading? pattern (c :: text) with
      | some rest =>
          rw [hd] at h
          cases h
          simpa using eq_append_of_dropLeading? hd
      | none =>
          rw [hd] at h
          obtain ⟨⟨b, a⟩, hcut, heq⟩ := Option.map_eq_some_iff.1 h
          cases heq
          simp [ih hcut]

end DocStore.Text
