import ObjectMapping.Direction
import ObjectMapping.ObjectRef

/-! # Mapping services

Relationships are kept by a mapping service, which makes and takes away several of them at a time.
A service is any pair of functions on states of its own (`MappingService`), so a law for all
services says nothing about what the service does. -/

namespace ObjectMapping

/-- An **object to map** to another one. -/
structure MappingTarget where
  /-- The object. -/
  object : ObjectRef
  /-- The direction of the relationship, where it has one. -/
  direction : Option Direction := none
deriving DecidableEq

namespace MappingTarget

/-- A target as JSON; a direction that it does not have is left out. -/
def toJson (t : MappingTarget) : Json :=
  .obj (("entity", t.object.toJson) ::
    match t.direction with
    | some d => [("relation", d.toJson)]
    | none => [])

/-- The target in a JSON value. -/
def ofJson? (j : Json) : Option MappingTarget := do
  match ← j.parts? ["entity", "relation"] with
  | [some object, direction] =>
    return ⟨← ObjectRef.ofJson? object, ← Json.optional Direction.ofJson? direction⟩
  | _ => none

end MappingTarget

/-- Why relationships were **not changed**. -/
inductive MappingError where
  /-- The service could not be reached or failed. -/
  | transport (report : String)
  /-- A relationship to be taken away does not exist. -/
  | notRelated (parent target : ObjectRef)
  /-- The rules or the permissions refuse the change. -/
  | notAllowed (change : Change) (parent : TypeName) (target : ObjectRef)
  /-- A change was to be made at once for a parent that has not been saved. -/
  | notSaved (parent : TypeName)
deriving DecidableEq

/-- What the report of a change that was not made says. -/
def MappingError.message : MappingError → String
  | .transport report => "mapping service error: " ++ report
  | .notRelated parent target =>
    target.text ++ " is not directly mapped to " ++ parent.text ++
      ". It may be related through another object; unmap that object instead."
  | .notAllowed change parent target =>
    "cannot " ++ change.text ++ " " ++ target.text ++ " for " ++ parent.text
  | .notSaved parent => parent.text ++ " has not been saved yet; stage the change instead"

/-- A change that was not made as JSON. -/
def MappingError.toJson (e : MappingError) : Json :=
  match e with
  | .transport _ => .failure "Transport" (some e.message)
  | .notRelated _ _ => .failure "RelationshipNotFound" (some e.message)
  | .notAllowed _ _ _ => .failure "NotAllowed" (some e.message)
  | .notSaved _ => .failure "ParentNotPersisted" (some e.message)

/-- The answer of a service to one call. -/
abbrev ServiceAnswer := Except MappingError Unit

/-- A **mapping service** with states of a type. -/
structure MappingService (σ : Type) where
  /-- Makes the relationships of a source to targets. -/
  map : (source : ObjectRef) → List MappingTarget → σ → ServiceAnswer × σ
  /-- Takes away the relationships of a source to targets. -/
  unmap : (source : ObjectRef) → List ObjectRef → σ → ServiceAnswer × σ

end ObjectMapping
