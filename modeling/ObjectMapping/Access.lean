import ObjectMapping.Json

/-! # Access rights

The rights that a user may hold on objects: to read, to update and to create them. -/

namespace ObjectMapping

/-- A **right** on objects. -/
inductive Access where
  /-- To look at an object. -/
  | read
  /-- To change an object. -/
  | update
  /-- To make new objects. -/
  | create
deriving DecidableEq

namespace Access

/-- The word for a right. -/
def text : Access → String
  | .read => "read"
  | .update => "update"
  | .create => "create"

/-- The right that a word stands for. -/
def ofText? (s : String) : Option Access := [read, update, create].find? fun a => a.text = s

/-- Every right is read back from its word. -/
theorem ofText?_text (a : Access) : ofText? a.text = some a := by cases a <;> decide

/-- A right as JSON. -/
def toJson (a : Access) : Json := .str a.text

/-- The right in a JSON value. -/
def ofJson? (j : Json) : Option Access := j.choice?.bind ofText?

end Access

end ObjectMapping
