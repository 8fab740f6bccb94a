/-
Module: DocStore.Json.Outline
Purpose: which parts of a JSON text the reader of a record looks at.
Main exports:
  Outline, Outline.record, Outline.choice, Outline.each, Outline.ofKey, Outline.ofPosition
-/
import DocStore.Dict

namespace DocStore.Json

/-!
The members of an object that are no fields of a record are passed over when the
text is read.  What is passed over has to follow the grammar and no more: its
numbers may be out of range, its escapes may be half of a pair, and it may be
nested at will.  An outline tells these members from the ones that are kept.
-/

/-- What is kept of a value. -/
inductive Outline where
  /-- All of it. -/
  | whole
  /-- Nothing. -/
  | skipped
  /-- Of the parts that are named, what their outlines say; of all others, what
  `rest` says. -/
  | parts (named : List (String × Outline)) (rest : Outline)

namespace Outline

/-- A record with the given field names.  The fields are kept whole unless `within`
has an outline for them. -/
def record (names : List String) (within : List (String × Outline)) : Outline :=
  .parts (names.map fun name => (name, (Dict.lookupEntry name within).getD .whole)) .skipped

/-- A choice, whose one member is named after what is chosen.  No member is left
out, so that a second one can be refused. -/
def choice (options : List (String × Outline)) : Outline :=
  .parts options .whole

/-- An array or an object whose parts all have one outline. -/
def each (part : Outline) : Outline :=
  .parts [] part

/-- Whether nothing is kept. -/
def isSkipped : Outline → Bool
  | skipped => true
  | _ => false

/-- The outline of the member with a name. -/
def ofKey (key : String) : Outline → Outline
  | whole => whole
  | skipped => skipped
  | parts named rest => (Dict.lookupEntry key named).getD rest

/-- The outline of the item at a position.  The fields of a record may be given in
their order. -/
def ofPosition (position : Nat) : Outline → Outline
  | whole => whole
  | skipped => skipped
  | parts named rest => (named[position]?.map Prod.snd).getD rest

example : (record ["a", "b"] []).ofKey "c" = .skipped := by rfl
example : (record ["a", "b"] [("b", .each .whole)]).ofPosition 1 = .each .whole := by rfl
example : (choice [("a", .skipped)]).ofKey "c" = .whole := by rfl

end Outline

/-- How deep the values of a document may be nested. -/
def depthLimit : Nat := 127

end DocStore.Json
