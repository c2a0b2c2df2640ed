import ObjectMapping.Filter
import ObjectMapping.Search.Page

/-! # Queries

A query asks a query service for objects of one type: which of them, by a filter and by what they
are related to, and what to answer, the objects themselves page by page, their numbers, or how many
there are. Only a query for the objects themselves has a page (`Demand`). -/

namespace ObjectMapping

/-- The **kind of an answer**. -/
inductive ResultKind where
  /-- The objects, page by page, and how many there are. -/
  | values
  /-- The numbers of all objects. -/
  | ids
  /-- How many objects there are. -/
  | count
deriving DecidableEq

namespace ResultKind

/-- The word for a kind of answer. -/
def text : ResultKind → String
  | .values => "values"
  | .ids => "ids"
  | .count => "count"

/-- The kind of answer that a word stands for. -/
def ofText? (s : String) : Option ResultKind := [values, ids, count].find? fun k => k.text = s

/-- The kind of answer in a JSON value. -/
def ofJson? (j : Json) : Option ResultKind := j.choice?.bind ofText?

/-- Whether answers of a kind come page by page. -/
def isPaged : ResultKind → Bool
  | .values => true
  | _ => false

end ResultKind

/-- What a query **asks for**. -/
inductive Demand where
  /-- The objects on a page, or on the page that the service chooses. -/
  | values (page : Option Page)
  /-- The numbers of all objects. -/
  | ids
  /-- How many objects there are. -/
  | count
deriving DecidableEq

namespace Demand

/-- The kind of the answer. -/
def kind : Demand → ResultKind
  | .values _ => .values
  | .ids => .ids
  | .count => .count

/-- The page that is asked for. -/
def page? : Demand → Option Page
  | .values page => page
  | _ => none

/-- The demand for an answer of a kind, where a page counts only for objects. -/
def ofKind (kind : ResultKind) (page : Option Page) : Demand :=
  match kind with
  | .values => .values page
  | .ids => .ids
  | .count => .count

/-- The kind of a demand is the one that it was made for. -/
@[simp] theorem kind_ofKind (kind : ResultKind) (page : Option Page) :
    (ofKind kind page).kind = kind := by cases kind <;> rfl

end Demand

/-- How objects are **related** to the ones that a query names. -/
inductive Relevance where
  /-- In any way. -/
  | relevant
  /-- As their parents. -/
  | parent
  /-- As their children. -/
  | child
  /-- As what they own. -/
  | owned
deriving DecidableEq

namespace Relevance

/-- The word for a way of being related. -/
def text : Relevance → String
  | .relevant => "relevant"
  | .parent => "parent"
  | .child => "child"
  | .owned => "owned"

/-- The way of being related that a word stands for. -/
def ofText? (s : String) : Option Relevance :=
  [relevant, parent, child, owned].find? fun r => r.text = s

/-- The way of being related in a JSON value. -/
def ofJson? (j : Json) : Option Relevance := j.choice?.bind ofText?

end Relevance

/-- An **anchor** of a search: only objects related to the named ones are searched. -/
structure Anchor where
  /-- The type of the named objects. -/
  type : TypeName
  /-- The numbers of the named objects. -/
  ids : List Int
  /-- How objects have to be related to them. -/
  relevance : Relevance
deriving DecidableEq

namespace Anchor

/-- The anchor for objects related in any way to a single one. -/
def relevantTo (type : TypeName) (id : Int) : Anchor := ⟨type, [id], .relevant⟩

/-- An anchor as JSON. -/
def toJson (a : Anchor) : Json :=
  .obj [("ids", .arr (a.ids.map Json.int)), ("object_name", a.type.toJson),
    ("op", .str a.relevance.text)]

/-- The anchor in a JSON value. -/
def ofJson? (j : Json) : Option Anchor := do
  match ← j.parts? ["object_name", "ids", "op"] with
  | [some type, some ids, some relevance] =>
    return ⟨← TypeName.ofJson? type, ← (← ids.items?).mapM Json.int64?,
      ← Relevance.ofJson? relevance⟩
  | _ => none

end Anchor

/-- The **right** that the user has to hold on the objects found. -/
inductive RequiredAccess where
  /-- To look at them. -/
  | read
  /-- To change them. -/
  | update
deriving DecidableEq

namespace RequiredAccess

/-- The word for a right. -/
def text : RequiredAccess → String
  | .read => "read"
  | .update => "update"

/-- The right that a word stands for. -/
def ofText? (s : String) : Option RequiredAccess := [read, update].find? fun a => a.text = s

/-- The right in a JSON value. -/
def ofJson? (j : Json) : Option RequiredAccess := j.choice?.bind ofText?

end RequiredAccess

/-- A **query**. -/
structure Query where
  /-- The type of the objects. -/
  type : TypeName
  /-- Which objects are meant. -/
  filter : Filter := .empty
  /-- What the objects have to be related to. -/
  anchors : List Anchor := []
  /-- What is asked for. -/
  demand : Demand := .values none
  /-- The right that the user has to hold on the objects. -/
  access : Option RequiredAccess := none
deriving DecidableEq

namespace Query

/-- The kind of the answer to a query. -/
def kind (q : Query) : ResultKind := q.demand.kind

/-- The member of an object with a name, if it has a value. -/
def member (name : String) (value : Option Json) : List (String × Json) :=
  match value with
  | some j => [(name, j)]
  | none => []

/-- The filter and the anchors of a query as JSON; without anchors the list of them is left out. -/
def filtersJson (q : Query) : Json :=
  .obj (("expression", q.filter.toJson) ::
    if q.anchors = [] then [] else [("relevance", .arr (q.anchors.map Anchor.toJson))])

/-- **A query as JSON**; parts without a value are left out. -/
def toJson (q : Query) : Json :=
  .obj ([("filters", q.filtersJson), ("object_name", q.type.toJson)] ++
    member "paging" (q.demand.page?.map Page.toJson) ++
    member "permissions" (q.access.map fun a => .str a.text) ++ [("type", .str q.kind.text)])

end Query

end ObjectMapping
