import ObjectMapping.Change

/-! # Directions

A relationship between two objects of one type may run from parent to child. The direction says
which of the two the other object is. -/

namespace ObjectMapping

/-- The **direction** of a relationship: what the other object is. -/
inductive Direction where
  /-- The other object is the parent. -/
  | parent
  /-- The other object is the child. -/
  | child
deriving DecidableEq

namespace Direction

/-- Whether the other object is the child. -/
def isChild : Direction → Bool
  | .parent => false
  | .child => true

/-- The direction by whether the other object is the child. -/
def ofIsChild : Bool → Direction
  | true => .child
  | false => .parent

/-- A direction is determined by whether the other object is the child. -/
@[simp] theorem ofIsChild_isChild (d : Direction) : ofIsChild d.isChild = d := by cases d <;> rfl

/-- Each answer to whether the other object is the child has a direction. -/
@[simp] theorem isChild_ofIsChild (b : Bool) : (ofIsChild b).isChild = b := by cases b <;> rfl

/-- The word for a direction. -/
def text : Direction → String
  | .parent => "parent"
  | .child => "child"

/-- The direction that a word stands for. -/
def ofText? (s : String) : Option Direction := [parent, child].find? fun d => d.text = s

/-- Every direction is read back from its word. -/
theorem ofText?_text (d : Direction) : ofText? d.text = some d := by cases d <;> decide

/-- The direction that a word stands for, or the refusal of the word. -/
def read (s : String) : Except UnknownWord Direction :=
  match ofText? s with
  | some d => .ok d
  | none => .error ⟨"mega relation", s⟩

/-- A direction as JSON. -/
def toJson (d : Direction) : Json := .str d.text

/-- The direction in a JSON value. -/
def ofJson? (j : Json) : Option Direction := j.choice?.bind ofText?

end Direction

end ObjectMapping
