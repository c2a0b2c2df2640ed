import ObjectMapping.Text.LetterCase
import ObjectMapping.TypeName

/-! # The catalog of types

What is known of each type besides its rules: how it is called in the interface, which group it
belongs to, and how it takes part in snapshots. The catalog keeps the types in the order of their
declaration, each once (`Catalog.ofTypes`). -/

namespace ObjectMapping

/-- The **group** that a type belongs to. -/
inductive Category where
  /-- Programs. -/
  | programs
  /-- Governance. -/
  | governance
  /-- Objects in scope. -/
  | scope
  /-- People and documents. -/
  | entities
  /-- Audits. -/
  | audit
  /-- Everything else. -/
  | other
deriving DecidableEq

namespace Category

/-- All groups. -/
def all : List Category := [programs, governance, scope, entities, audit, other]

/-- The word for a group. -/
def text : Category → String
  | .programs => "programs"
  | .governance => "governance"
  | .scope => "scope"
  | .entities => "entities"
  | .audit => "audit"
  | .other => "other"

/-- The group that a word stands for. -/
def ofText? (s : String) : Option Category := all.find? fun c => c.text = s

end Category

/-- A **restriction** that every search for objects of a type gets. -/
inductive Constraint where
  /-- Only objects that are not archived. -/
  | unlocked
  /-- Only objects that the current user owns. -/
  | ownedByCurrentUser
deriving DecidableEq

namespace Constraint

/-- The word for a restriction. -/
def text : Constraint → String
  | .unlocked => "unlocked"
  | .ownedByCurrentUser => "owned_by_current_user"

/-- The restriction that a word stands for. -/
def ofText? (s : String) : Option Constraint :=
  [unlocked, ownedByCurrentUser].find? fun c => c.text = s

end Constraint

/-- What is known of a **type**. -/
structure TypeInfo where
  /-- The name of the type. -/
  name : TypeName
  /-- How one object of the type is called. -/
  displayName : String
  /-- How several objects of the type are called. -/
  plural : String
  /-- The group of the type. -/
  category : Category := .other
  /-- Whether objects of the type can be frozen in snapshots. -/
  snapshotable : Bool := false
  /-- Whether objects of the type hold snapshots. -/
  snapshotParent : Bool := false
  /-- Whether the type lives inside audits, where other objects are seen as snapshots. -/
  auditScope : Bool := false
  /-- The restriction on searches for the type. -/
  constraint : Option Constraint := none
deriving DecidableEq

namespace TypeInfo

/-- The characters of a name with a space in front of each upper-case letter that follows a
lower-case one. The flag says whether the character before was a lower-case letter. -/
def spaced : (afterLower : Bool) → List Char → List Char
  | _, [] => []
  | afterLower, c :: rest =>
    (if afterLower && Text.isUpper c then [' ', c] else [c]) ++ spaced (Text.isLower c) rest

/-- The name of a type split into words. -/
def words (name : TypeName) : String := String.ofList (spaced false name.text.toList)

/-- The plural of a name: a final `y` becomes `ies`, after a final `s` stands `es`, and otherwise
`s`. -/
def pluralOf (displayName : String) : String :=
  let cs := displayName.toList
  match cs.getLast? with
  | some 'y' => String.ofList (cs.dropLast ++ ['i', 'e', 's'])
  | some 's' => displayName ++ "es"
  | _ => displayName ++ "s"

/-- A type with the names that follow from its own. -/
def ofName (name : TypeName) (category : Category) : TypeInfo where
  name := name
  displayName := words name
  plural := pluralOf (words name)
  category := category

/-- The type with empty names for the interface filled in. -/
def fillNames (t : TypeInfo) : TypeInfo :=
  let displayName := if t.displayName.isEmpty then words t.name else t.displayName
  { t with
    displayName := displayName
    plural := if t.plural.isEmpty then pluralOf displayName else t.plural }

/-- What is known of a type as JSON; a restriction that it does not have is left out. -/
def toJson (t : TypeInfo) : Json :=
  .object ([("name", t.name.toJson), ("display_name", .str t.displayName),
    ("plural", .str t.plural), ("category", .str t.category.text),
    ("snapshotable", .bool t.snapshotable), ("snapshot_parent", .bool t.snapshotParent),
    ("audit_scope", .bool t.auditScope)] ++
    match t.constraint with
    | some c => [("constraint", .str c.text)]
    | none => [])

end TypeInfo

/-- The **catalog** of types: in order of declaration, each name once. -/
structure Catalog where
  /-- The types in order of declaration. -/
  types : List TypeInfo
  /-- No name is there twice. -/
  distinct : (types.map TypeInfo.name).Nodup

namespace Catalog

/-- A list of types with one more at the end, unless its name is there already. -/
def addNew (types : List TypeInfo) (t : TypeInfo) : List TypeInfo :=
  if t.name ∈ types.map TypeInfo.name then types else types ++ [t]

/-- Adding a type keeps the names distinct. -/
theorem addNew_distinct {types : List TypeInfo} (t : TypeInfo)
    (h : (types.map TypeInfo.name).Nodup) : ((addNew types t).map TypeInfo.name).Nodup := by
  unfold addNew
  split
  · exact h
  · next hnew =>
    rw [List.map_append, List.nodup_append]
    refine ⟨h, by simp, ?_⟩
    intro a ha b hb hab
    rw [List.map_singleton, List.mem_singleton] at hb
    exact hnew (hb ▸ hab ▸ ha)

/-- The first type of each name, in order. -/
def firsts (types : List TypeInfo) : List TypeInfo := types.foldl addNew []

/-- The first types have distinct names. -/
theorem firsts_distinct (types : List TypeInfo) : ((firsts types).map TypeInfo.name).Nodup := by
  suffices h : ∀ acc : List TypeInfo, (acc.map TypeInfo.name).Nodup →
      ((types.foldl addNew acc).map TypeInfo.name).Nodup from h [] (by simp)
  induction types with
  | nil => exact fun _ h => h
  | cons t rest ih => exact fun acc h => ih _ (addNew_distinct t h)

/-- **The catalog of a list of types**; of two types with one name the first counts. -/
def ofTypes (types : List TypeInfo) : Catalog := ⟨firsts types, firsts_distinct types⟩

/-- What is known of a type. -/
def get? (c : Catalog) (name : TypeName) : Option TypeInfo := c.types.find? fun t => t.name = name

/-- Whether a type is in the catalog. -/
def contains (c : Catalog) (name : TypeName) : Bool := (c.get? name).isSome

/-- The number of types. -/
def size (c : Catalog) : Nat := c.types.length

/-- Whether there are no types. -/
def isEmpty (c : Catalog) : Bool := c.types.isEmpty

/-- How one object of a type is called; a type that is not in the catalog goes by its name. -/
def displayName (c : Catalog) (name : TypeName) : String :=
  match c.get? name with
  | some t => t.displayName
  | none => name.text

/-- How several objects of a type are called; a type that is not in the catalog goes by its name. -/
def plural (c : Catalog) (name : TypeName) : String :=
  match c.get? name with
  | some t => t.plural
  | none => name.text

/-- The group of a type. -/
def category? (c : Catalog) (name : TypeName) : Option Category :=
  (c.get? name).map TypeInfo.category

/-- The types of a group by display name; of two with one display name the first declared comes
first. -/
def typesIn (c : Catalog) (category : Category) : List TypeName :=
  ((c.types.filter fun t => t.category = category).mergeSort
    fun a b => a.displayName ≤ b.displayName).map TypeInfo.name

/-- The types whose objects can be frozen, in order of declaration. -/
def snapshotableTypes (c : Catalog) : List TypeName :=
  (c.types.filter TypeInfo.snapshotable).map TypeInfo.name

/-- Whether objects of a type can be frozen. -/
def isSnapshotable (c : Catalog) (name : TypeName) : Bool :=
  (c.get? name).any TypeInfo.snapshotable

/-- Whether objects of a type hold snapshots. -/
def isSnapshotParent (c : Catalog) (name : TypeName) : Bool :=
  (c.get? name).any TypeInfo.snapshotParent

/-- Whether a type lives inside audits. -/
def isAuditScope (c : Catalog) (name : TypeName) : Bool := (c.get? name).any TypeInfo.auditScope

/-- Whether a type is that of snapshots. -/
def isSnapshotModel (name : TypeName) : Bool := name == TypeName.snapshot

/-- Whether an object of the parent type sees objects of the child type as snapshots. -/
def isSnapshotRelated (c : Catalog) (parent child : TypeName) : Bool :=
  c.isSnapshotable child && (c.isSnapshotParent parent || c.isAuditScope parent)

/-- The restriction on searches for a type. -/
def constraint? (c : Catalog) (name : TypeName) : Option Constraint :=
  (c.get? name).bind TypeInfo.constraint

end Catalog

end ObjectMapping
