import ObjectMapping.Mapping.Service

/-! # A mapping service in memory

A stand-in for a mapping service: it knows which objects are related, keeps the calls that it
receives, and fails when it has been told to. A call that fails changes no relationship. -/

namespace ObjectMapping

/-- A **call** of a mapping service. -/
inductive MappingCall where
  /-- To make the relationships of a source to targets. -/
  | map (source : ObjectRef) (targets : List MappingTarget)
  /-- To take away the relationships of a source to targets. -/
  | unmap (source : ObjectRef) (targets : List ObjectRef)
deriving DecidableEq

/-- A call as JSON. -/
def MappingCall.toJson : MappingCall → Json
  | .map source targets =>
    .object [("map", source.toJson), ("targets", .arr (targets.map MappingTarget.toJson))]
  | .unmap source targets =>
    .object [("unmap", source.toJson), ("targets", .arr (targets.map ObjectRef.toJson))]

/-- A set of relationships: whether the first object is related to the second. -/
abbrev Relations := ObjectKey → ObjectKey → Bool

namespace Relations

/-- The relationships with those of a source to targets added. -/
def relate (r : Relations) (source : ObjectKey) (targets : List ObjectKey) : Relations :=
  fun a b => r a b || (a == source && targets.contains b)

/-- The relationships without those of a source to targets. -/
def separate (r : Relations) (source : ObjectKey) (targets : List ObjectKey) : Relations :=
  fun a b => r a b && !(a == source && targets.contains b)

end Relations

/-- A **mapping service in memory**. -/
structure RelationStore where
  /-- The relationships. -/
  related : Relations := fun _ _ => false
  /-- The calls received so far, in order. -/
  calls : List MappingCall := []
  /-- The failures to come of calls that make relationships, the next one first. -/
  mapFailures : List String := []
  /-- The failures to come of calls that take relationships away, the next one first. -/
  unmapFailures : List String := []

namespace RelationStore

/-- The answer to a call that makes relationships. -/
def map (source : ObjectRef) (targets : List MappingTarget) (s : RelationStore) :
    ServiceAnswer × RelationStore :=
  let s := { s with calls := s.calls ++ [MappingCall.map source targets] }
  match s.mapFailures with
  | report :: rest => (.error (.transport report), { s with mapFailures := rest })
  | [] =>
    let keys := targets.map fun t => t.object.key
    (.ok (), { s with related := s.related.relate source.key keys })

/-- The answer to a call that takes relationships away. The first target that is not related to the
source is reported, and then nothing is taken away. -/
def unmap (source : ObjectRef) (targets : List ObjectRef) (s : RelationStore) :
    ServiceAnswer × RelationStore :=
  let s := { s with calls := s.calls ++ [MappingCall.unmap source targets] }
  match s.unmapFailures with
  | report :: rest => (.error (.transport report), { s with unmapFailures := rest })
  | [] =>
    match targets.find? fun t => !s.related source.key t.key with
    | some missing => (.error (.notRelated source missing), s)
    | none =>
      (.ok (), { s with related := s.related.separate source.key (targets.map ObjectRef.key) })

/-- The store as a mapping service. -/
def service : MappingService RelationStore := ⟨map, unmap⟩

end RelationStore

end ObjectMapping
