import ObjectMapping.Json
import ObjectMapping.TypeName

/-! # Filters

A filter says which objects a search is after: a tree whose leaves are conditions on fields and
whose inner nodes join two filters by `AND` or `OR`. The filter without conditions lets every object
through, so joining it to another one leaves the other as it is.

* **`Filter.and`, `Filter.or`** — join two filters, unless one of them is empty.
* **`Filter.ofSnapshots`** — restricts a filter to the snapshots of a type.
* **`Filter.toJson`** — the form in which a query service receives a filter. -/

namespace ObjectMapping

/-- How a condition **compares** a field with a literal. -/
inductive Comparison where
  /-- The field is the literal. -/
  | equal
  /-- The field is not the literal. -/
  | notEqual
  /-- The field contains the literal. -/
  | contains
  /-- The field does not contain the literal. -/
  | notContains
  /-- The field is below the literal. -/
  | less
  /-- The field is above the literal. -/
  | greater
  /-- The field is below the literal or is the literal. -/
  | lessOrEqual
  /-- The field is above the literal or is the literal. -/
  | greaterOrEqual
  /-- The field is one of the items of the literal. -/
  | oneOf
deriving DecidableEq

namespace Comparison

/-- All comparisons. -/
def all : List Comparison :=
  [equal, notEqual, contains, notContains, less, greater, lessOrEqual, greaterOrEqual, oneOf]

/-- The sign of a comparison. -/
def text : Comparison → String
  | .equal => "="
  | .notEqual => "!="
  | .contains => "~"
  | .notContains => "!~"
  | .less => "<"
  | .greater => ">"
  | .lessOrEqual => "<="
  | .greaterOrEqual => ">="
  | .oneOf => "IN"

/-- The comparison that a sign stands for. -/
def ofText? (s : String) : Option Comparison := all.find? fun c => c.text = s

/-- Comparisons with one sign are equal. -/
theorem text_injective {a b : Comparison} (h : a.text = b.text) : a = b := by
  cases a <;> cases b <;> revert h <;> decide

end Comparison

/-- How an inner node **joins** its two sides. -/
inductive Connective where
  /-- Both sides hold. -/
  | and
  /-- One of the sides holds. -/
  | or
deriving DecidableEq

namespace Connective

/-- The word for a connective. -/
def text : Connective → String
  | .and => "AND"
  | .or => "OR"

/-- The connective that a word stands for. -/
def ofText? (s : String) : Option Connective := [and, or].find? fun c => c.text = s

end Connective

/-- The **literal** with which a field is compared. -/
inductive Literal where
  /-- A text. -/
  | text (value : String)
  /-- An integer of 64 bits. -/
  | number (value : Int64)
  /-- A truth value. -/
  | bool (value : Bool)
  /-- A list of texts. -/
  | list (items : List String)
deriving DecidableEq

/-- A literal as JSON. -/
def Literal.toJson : Literal → Json
  | .text s => .str s
  | .number n => .int n.toInt
  | .bool b => .bool b
  | .list items => .arr (items.map Json.str)

/-- The literal in a JSON value. -/
def Literal.ofJson? : Json → Option Literal
  | .str s => some (.text s)
  | .bool b => some (.bool b)
  | .arr items => (items.mapM Json.text?).map .list
  | j => j.int64?.map fun n => .number (Int64.ofInt n)

/-- A **condition** on a field. -/
structure Condition where
  /-- The name of the field. -/
  field : String
  /-- The comparison. -/
  comparison : Comparison
  /-- What the field is compared with. -/
  literal : Literal
deriving DecidableEq

/-- A **filter**. -/
inductive Filter where
  /-- Lets every object through. -/
  | empty
  /-- Lets an object through that meets a condition. -/
  | condition (condition : Condition)
  /-- Lets an object through that passes both sides, or one of them. -/
  | binary (left : Filter) (connective : Connective) (right : Filter)
deriving DecidableEq

namespace Filter

instance : Inhabited Filter := ⟨empty⟩

/-- A filter with a single condition. -/
def compare (field : String) (comparison : Comparison) (literal : Literal) : Filter :=
  .condition ⟨field, comparison, literal⟩

/-- The filter for a field that is a literal. -/
def equal (field : String) (literal : Literal) : Filter := compare field .equal literal

/-- The filter for a field that contains a literal. -/
def contains (field : String) (literal : Literal) : Filter := compare field .contains literal

/-- The filter for a field that is one of several texts. -/
def oneOf (field : String) (items : List String) : Filter := compare field .oneOf (.list items)

/-- Whether a filter is the one without conditions. -/
def isEmpty : Filter → Bool
  | .empty => true
  | _ => false

/-- Two filters joined; an empty side leaves the other as it is. -/
def join (connective : Connective) : Filter → Filter → Filter
  | .empty, b => b
  | a, .empty => a
  | a, b => .binary a connective b

/-- The filter for both of two filters. -/
def and (a b : Filter) : Filter := join .and a b

/-- The filter for one of two filters. -/
def or (a b : Filter) : Filter := join .or a b

/-- The filter for all filters of a list. -/
def all (filters : List Filter) : Filter := filters.foldl and .empty

/-- Joining the empty filter on the left changes nothing. -/
@[simp] theorem join_empty_left (connective : Connective) (b : Filter) :
    join connective .empty b = b := rfl

/-- Joining the empty filter on the right changes nothing. -/
@[simp] theorem join_empty_right (connective : Connective) (a : Filter) :
    join connective a .empty = a := by cases a <;> rfl

/-- The conditions at the leaves, from left to right. -/
def conditions : Filter → List Condition
  | .empty => []
  | .condition c => [c]
  | .binary left _ right => left.conditions ++ right.conditions

/-- The conditions of two filters joined are those of both. -/
@[simp] theorem conditions_join (connective : Connective) (a b : Filter) :
    (join connective a b).conditions = a.conditions ++ b.conditions := by
  cases a <;> cases b <;> simp [join, conditions]

/-- The depth of a filter: a condition stands at depth one, and a node is one deeper than the deeper
of its sides. -/
def depth : Filter → Nat
  | .empty => 0
  | .condition _ => 1
  | .binary left _ right => max left.depth right.depth + 1

/-- The field that names the type of the object frozen in a snapshot. -/
def childTypeField : String := "child_type"

/-- The filter restricted to snapshots of objects of a type. -/
def ofSnapshots (type : TypeName) (f : Filter) : Filter :=
  (equal childTypeField (.text type.text)).and f

/-- The JSON of a node: what stands on the left, the sign, and what stands on the right. -/
def nodeJson (left : Json) (sign : String) (right : Json) : Json :=
  .obj [("left", left), ("op", .obj [("name", .str sign)]), ("right", right)]

/-- **A filter as JSON.** -/
def toJson : Filter → Json
  | .empty => .obj []
  | .condition c => nodeJson (.str c.field) c.comparison.text c.literal.toJson
  | .binary left connective right => nodeJson left.toJson connective.text right.toJson

end Filter

end ObjectMapping
