import ObjectMapping.Json

/-! # Pages of results

A search for objects shows one page of them at a time, in a given order. Pages are counted from one;
`Page.limit` says which results a page covers, counted from zero. The product of two numbers of 32
bits fits into 64, so the bounds are exact. -/

namespace ObjectMapping

/-- The **order** of results by a field. -/
inductive SortOrder where
  /-- From low to high. -/
  | ascending
  /-- From high to low. -/
  | descending
deriving DecidableEq

namespace SortOrder

/-- The word for an order. -/
def text : SortOrder → String
  | .ascending => "asc"
  | .descending => "desc"

/-- The order that a word stands for. -/
def ofText? (s : String) : Option SortOrder := [ascending, descending].find? fun o => o.text = s

/-- The order in a JSON value. -/
def ofJson? (j : Json) : Option SortOrder := j.choice?.bind ofText?

end SortOrder

/-- A **field to sort by**. -/
structure SortKey where
  /-- The name of the field. -/
  field : String
  /-- The order of results by the field. -/
  order : SortOrder := .ascending
deriving DecidableEq

namespace SortKey

/-- A field to sort by as JSON. -/
def toJson (k : SortKey) : Json := .obj [("direction", .str k.order.text), ("field", .str k.field)]

/-- The field to sort by in a JSON value. -/
def ofJson? (j : Json) : Option SortKey := do
  match ← j.parts? ["field", "direction"] with
  | [some field, order] =>
    return ⟨← field.text?, ← Json.withDefault .ascending SortOrder.ofJson? order⟩
  | _ => none

end SortKey

/-- A **page** of results. -/
structure Page where
  /-- The number of the page, from one. -/
  current : UInt32
  /-- The number of results on a page. -/
  size : UInt32
  /-- The fields to sort by, the most important first. -/
  sort : List SortKey := []
deriving DecidableEq

namespace Page

/-- A page by number and size; the number is at least one. -/
def ofNumber (current size : UInt32) : Page := { current := max current 1, size := size }

/-- The page that is shown first. -/
def first : Page := ofNumber 1 10

/-- The page with one more field to sort by. -/
def sortedBy (p : Page) (key : SortKey) : Page := { p with sort := p.sort ++ [key] }

/-- **The results that a page covers**: the number of its first result and the one after its last,
counted from zero. The page numbered zero covers the same as page one. -/
def limit (p : Page) : UInt64 × UInt64 :=
  let before := if p.current = 0 then 0 else p.current - 1
  let start := before.toUInt64 * p.size.toUInt64
  (start, start + p.size.toUInt64)

/-- The results that a page covers as JSON. -/
def limitJson (p : Page) : Json := .arr [.int p.limit.1.toNat, .int p.limit.2.toNat]

/-- A page as JSON; without fields to sort by the list of them is left out. -/
def toJson (p : Page) : Json :=
  .obj ([("current", .int p.current.toNat), ("page_size", .int p.size.toNat)] ++
    if p.sort = [] then [] else [("sort", .arr (p.sort.map SortKey.toJson))])

/-- The page in a JSON value. -/
def ofJson? (j : Json) : Option Page := do
  match ← j.parts? ["current", "page_size", "sort"] with
  | [some current, some size, sort] =>
    let keys := fun (v : Json) => do (← v.items?).mapM SortKey.ofJson?
    return ⟨.ofNat (← current.nat32?), .ofNat (← size.nat32?), ← Json.withDefault [] keys sort⟩
  | _ => none

end Page

end ObjectMapping
