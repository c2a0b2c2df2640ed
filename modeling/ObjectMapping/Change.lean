import ObjectMapping.Json
import ObjectMapping.Text.Quoted

/-! # Changes to relationships

A relationship between two objects is changed in one of two ways: it is made or it is taken away. -/

namespace ObjectMapping

/-- A word that is none of the expected ones. -/
structure UnknownWord where
  /-- What kind of word was expected. -/
  kind : String
  /-- The word that was found. -/
  word : String
deriving DecidableEq

/-- What the refusal of a word says. -/
def UnknownWord.message (e : UnknownWord) : String :=
  "unknown " ++ e.kind ++ ": " ++ Text.quoted e.word

/-- The refusal of a word as JSON. -/
def UnknownWord.toJson (e : UnknownWord) : Json := .failure "UnknownLiteral" (some e.message)

/-- A **change** to a relationship. -/
inductive Change where
  /-- To make the relationship. -/
  | map
  /-- To take the relationship away. -/
  | unmap
deriving DecidableEq

namespace Change

/-- The change that undoes a change. -/
def opposite : Change → Change
  | .map => .unmap
  | .unmap => .map

/-- Undoing twice gives the change back. -/
@[simp] theorem opposite_opposite (c : Change) : c.opposite.opposite = c := by cases c <;> rfl

/-- A change differs from the one that undoes it. -/
theorem opposite_ne (c : Change) : c.opposite ≠ c := by cases c <;> decide

/-- The word for a change. -/
def text : Change → String
  | .map => "map"
  | .unmap => "unmap"

/-- The change that a word stands for. -/
def ofText? (s : String) : Option Change := [map, unmap].find? fun c => c.text = s

/-- Every change is read back from its word. -/
theorem ofText?_text (c : Change) : ofText? c.text = some c := by cases c <;> decide

/-- The change that a word stands for, or the refusal of the word. -/
def read (s : String) : Except UnknownWord Change :=
  match ofText? s with
  | some c => .ok c
  | none => .error ⟨"join action", s⟩

/-- The change in a JSON value. -/
def ofJson? (j : Json) : Option Change := j.choice?.bind ofText?

/-- A change as JSON. -/
def toJson (c : Change) : Json := .str c.text

end Change

end ObjectMapping
