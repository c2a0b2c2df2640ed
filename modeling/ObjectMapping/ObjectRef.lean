import ObjectMapping.TypeName

/-! # References to objects

A saved object is referred to by its number and its type. A reference may lead to a snapshot, and
then it also names the object that was frozen. Whether two references mean the same object depends
on the number and the type alone (`ObjectRef.key`); the frozen object and the context in which the
reference was made ride along.

Where a rule speaks of relationships, either end may be a saved object, an object that is still
being drafted, or a type as a whole (`Endpoint`). -/

namespace ObjectMapping

/-- A **reference** to a saved object. -/
structure ObjectRef where
  /-- The number of the object. -/
  id : Int
  /-- The type of the object. -/
  type : TypeName
  /-- For a snapshot, the type of the frozen object. -/
  childType : Option TypeName := none
  /-- For a snapshot, the number of the frozen object. -/
  childId : Option Int := none
  /-- The context in which rights on the object are looked up. -/
  context : Option Int := none
deriving DecidableEq

/-- What decides whether two references mean the same object: its number and type. -/
abbrev ObjectKey := Int × TypeName

namespace ObjectRef

/-- The identity of the object that a reference means. -/
def key (r : ObjectRef) : ObjectKey := (r.id, r.type)

/-- Whether two references mean the same object. -/
def same (a b : ObjectRef) : Bool := a.key == b.key

/-- Two references mean the same object exactly when number and type agree. -/
@[simp] theorem same_iff (a b : ObjectRef) : a.same b = true ↔ a.key = b.key := by simp [same]

/-- A reference by number and type alone. -/
def plain (id : Int) (type : TypeName) : ObjectRef := { id := id, type := type }

/-- A reference to the snapshot of an object. -/
def snapshotOf (id : Int) (childType : TypeName) (childId : Int) : ObjectRef :=
  { id := id, type := .snapshot, childType := some childType, childId := some childId }

/-- The reference made in a context. -/
def inContext (r : ObjectRef) (context : Int) : ObjectRef := { r with context := some context }

/-- Whether the reference leads to a snapshot. -/
def isSnapshot (r : ObjectRef) : Bool := r.childType.isSome

/-- The type whose rules apply: for a snapshot, that of the frozen object. -/
def effectiveType (r : ObjectRef) : TypeName := r.childType.getD r.type

/-- A type name and a number as messages show them. -/
def label (type : TypeName) (id : Int) : String := type.text ++ "#" ++ toString id

/-- The reference as messages show it. -/
def text (r : ObjectRef) : String :=
  match r.childType, r.childId with
  | some childType, some childId => label r.type r.id ++ " (" ++ label childType childId ++ ")"
  | _, _ => label r.type r.id

/-- The names of the parts of a written reference. -/
def partNames : List String := ["id", "type", "child_type", "child_id", "context_id"]

/-- A reference as JSON; parts without a value are left out. -/
def toJson (r : ObjectRef) : Json :=
  let present := fun (name : String) (value : Option Json) =>
    match value with
    | some j => [(name, j)]
    | none => []
  .object <| [("id", .int r.id), ("type", r.type.toJson)] ++
    present "child_type" (r.childType.map TypeName.toJson) ++
    present "child_id" (r.childId.map Json.int) ++ present "context_id" (r.context.map Json.int)

/-- The reference in a JSON value: number and type are required, the other parts optional. -/
def ofJson? (j : Json) : Option ObjectRef := do
  match ← j.parts? partNames with
  | [some id, some type, childType, childId, context] =>
    let id ← id.int64?
    let type ← TypeName.ofJson? type
    let childType ← Json.optional TypeName.ofJson? childType
    let childId ← Json.optional Json.int64? childId
    let context ← Json.optional Json.int64? context
    return { id, type, childType, childId, context }
  | _ => none

end ObjectRef

/-- An **end of a relationship**. -/
inductive Endpoint where
  /-- A saved object. -/
  | object (ref : ObjectRef)
  /-- An object of a type that has not been saved yet. -/
  | draft (type : TypeName)
  /-- A type as a whole. -/
  | type (type : TypeName)
deriving DecidableEq

namespace Endpoint

/-- The end in a JSON value: an object whose member tells what kind of end it is. -/
def ofJson? (j : Json) : Option Endpoint :=
  match j.get? "ref", j.get? "draft", j.get? "type" with
  | some ref, _, _ => (ObjectRef.ofJson? ref).map .object
  | _, some name, _ => (TypeName.ofJson? name).map .draft
  | _, _, some name => (TypeName.ofJson? name).map .type
  | _, _, _ => none

/-- The type whose rules apply. -/
def effectiveType : Endpoint → TypeName
  | .object r => r.effectiveType
  | .draft t => t
  | .type t => t

/-- The saved object at the end, if it is one. -/
def ref? : Endpoint → Option ObjectRef
  | .object r => some r
  | _ => none

/-- Whether the end is a draft. -/
def isDraft : Endpoint → Bool
  | .draft _ => true
  | _ => false

/-- Whether the end is a single object, saved or not. -/
def isInstance : Endpoint → Bool
  | .type _ => false
  | _ => true

/-- Whether the end is a snapshot. -/
def isSnapshot (e : Endpoint) : Bool := e.ref?.any ObjectRef.isSnapshot

/-- Whether two ends are alike: the same object, or drafts or types of one name. -/
def same : Endpoint → Endpoint → Bool
  | .object a, .object b => a.same b
  | .draft a, .draft b => a == b
  | .type a, .type b => a == b
  | _, _ => false

end Endpoint

end ObjectMapping
