import ObjectMapping.Ledger.Table
import ObjectMapping.Search.Hit
import ObjectMapping.Search.Plan
import ObjectMapping.Settings

/-! # Brokers

A broker carries out changes to relationships. It sorts out the targets of a change first: those
that another system keeps are set aside, and if one of the others may not be changed, the whole call
is refused and nothing happens. What remains is sent to the mapping service at once or staged in the
ledger of the parent.

* **`Broker.map`, `Broker.unmap`** — change relationships of a parent.
* **`Broker.commit`, `Broker.discard`** — carry out or drop what was staged for a parent.
* **`Broker.selection`** — the targets that a selection of hits stands for. -/

namespace ObjectMapping

/-- **When** a change is made. -/
inductive MapMode where
  /-- At once; the parent has to be saved. -/
  | immediate
  /-- When the ledger of a parent is committed. -/
  | deferred (parent : LedgerParent)
deriving DecidableEq

/-- What came of a **call to change relationships**. -/
structure MapOutcome where
  /-- The objects whose change was made. -/
  applied : List ObjectRef := []
  /-- The objects whose change was staged. -/
  staged : List ObjectRef := []
  /-- The objects whose relationship another system keeps. -/
  external : List ObjectRef := []
deriving DecidableEq

/-- Whether nothing was done and nothing set aside. -/
def MapOutcome.isEmpty (o : MapOutcome) : Bool :=
  o.applied.isEmpty && o.staged.isEmpty && o.external.isEmpty

/-- The outcome of a call as JSON. -/
def MapOutcome.toJson (o : MapOutcome) : Json :=
  let objects := fun (refs : List ObjectRef) => Json.arr (refs.map ObjectRef.toJson)
  .object [("applied", objects o.applied), ("staged", objects o.staged),
    ("external", objects o.external), ("is_empty", .bool o.isEmpty)]

/-- What a broker **changes**: the ledgers and the state of the mapping service. -/
structure Workspace (σ : Type) where
  /-- The ledgers by parent. -/
  ledgers : LedgerTable := ∅
  /-- The state of the mapping service. -/
  service : σ

/-- A **broker**. -/
structure Broker where
  /-- What plans of searches are made from. -/
  planner : Planner
  /-- The settings. -/
  settings : Settings

/-- The targets of a change **sorted out**. -/
structure Sorted (α : Type) where
  /-- The targets to be changed, in order. -/
  accepted : List α
  /-- The objects whose relationship another system keeps, in order. -/
  external : List ObjectRef

namespace Sorted

/-- Targets sorted out by two tests of their objects: those that pass the first are set aside, and
the others are refused with the first of them that does not pass the second. -/
def ofTargets {α : Type} (object : α → ObjectRef) (isExternal isAllowed : ObjectRef → Bool)
    (refusal : ObjectRef → MappingError) : List α → Except MappingError (Sorted α)
  | [] => .ok ⟨[], []⟩
  | t :: rest =>
    if isExternal (object t) then
      (ofTargets object isExternal isAllowed refusal rest).map fun s =>
        { s with external := object t :: s.external }
    else if isAllowed (object t) then
      (ofTargets object isExternal isAllowed refusal rest).map fun s =>
        { s with accepted := t :: s.accepted }
    else .error (refusal (object t))

end Sorted

namespace Broker

/-- What decides compatibility. -/
def policy (b : Broker) : Policy := b.planner.policy

/-- The broker that settings lead to, given what is found at paths. -/
def ofSettings (settings : Settings) (permissions : Permissions) (fileAt : String → File) :
    Broker where
  planner :=
    { catalog := settings.catalog fileAt
      policy := ⟨settings.book fileAt, permissions⟩
      snapshotType := settings.snapshotName }
  settings := settings

/-- The first page of a search from an end of a relationship for objects of a type. -/
def searchSpec (b : Broker) (base : Endpoint) (target : TypeName) : SearchSpec :=
  { b.planner.mapperSpec base target with page := b.settings.firstPage }

/-- **The targets that a selection of hits stands for**: those that can be selected, with their
directions. -/
def selection (selected : List Hit) (chosen : ChosenDirections) : List MappingTarget :=
  let directions := chosen.collect selected
  (selected.filter fun h => !h.disabled).map fun h =>
    ⟨h.object, directions.get? h.object.id⟩

/-! ### Sorting out targets -/

/-- The circumstances under which objects are mapped to a parent. -/
def optionsFor (parent : Endpoint) : MapOptions := { parentIsSnapshot := parent.isSnapshot }

/-- A target with a direction: where relationships have one and it was given none, the default. -/
def directed (b : Broker) (parent : Endpoint) (t : MappingTarget) : MappingTarget :=
  if t.direction = none ∧ b.policy.isMega parent (.object t.object) then
    { t with direction := some b.settings.defaultDirection }
  else t

/-- The targets of a mapping sorted out. -/
def sortMaps (b : Broker) (parent : Endpoint) (targets : List MappingTarget) :
    Except MappingError (Sorted MappingTarget) :=
  (Sorted.ofTargets MappingTarget.object
      (fun r => b.policy.isExternallyMapped parent.effectiveType r.effectiveType)
      (fun r => b.policy.canMap parent (.object r) (optionsFor parent))
      (fun r => .notAllowed .map parent.effectiveType r) targets).map fun s =>
    { s with accepted := s.accepted.map (b.directed parent) }

/-- The targets of an unmapping sorted out. -/
def sortUnmaps (b : Broker) (parent : Endpoint) (targets : List ObjectRef) :
    Except MappingError (Sorted ObjectRef) :=
  Sorted.ofTargets id
    (fun r => b.policy.isExternallyUnmapped parent.effectiveType r.effectiveType)
    (fun r => b.policy.canUnmap parent (.object r))
    (fun r => .notAllowed .unmap parent.effectiveType r) targets

/-! ### Changing relationships -/

variable {σ : Type}

/-- What a call to change relationships answers after the service has answered. -/
def applied (objects external : List ObjectRef) (answer : ServiceAnswer) :
    Except MappingError MapOutcome :=
  answer.map fun _ => { applied := objects, external := external }

/-- **Maps targets to a parent.** -/
def map (b : Broker) (service : MappingService σ) (parent : Endpoint)
    (targets : List MappingTarget) (mode : MapMode) (w : Workspace σ) :
    Except MappingError MapOutcome × Workspace σ :=
  match b.sortMaps parent targets with
  | .error e => (.error e, w)
  | .ok ⟨accepted, external⟩ =>
    let objects := accepted.map MappingTarget.object
    if accepted = [] then (.ok { external := external }, w)
    else
      match mode, parent.ref? with
      | .deferred p, _ =>
        (.ok { staged := objects, external := external },
          { w with ledgers := LedgerTable.stageTargets w.ledgers p accepted })
      | .immediate, some source =>
        let (answer, s) := service.map source accepted w.service
        (applied objects external answer, { w with service := s })
      | .immediate, none => (.error (.notSaved parent.effectiveType), w)

/-- **Unmaps objects from a parent.** -/
def unmap (b : Broker) (service : MappingService σ) (parent : Endpoint)
    (targets : List ObjectRef) (mode : MapMode) (w : Workspace σ) :
    Except MappingError MapOutcome × Workspace σ :=
  match b.sortUnmaps parent targets with
  | .error e => (.error e, w)
  | .ok ⟨accepted, external⟩ =>
    if accepted = [] then (.ok { external := external }, w)
    else
      match mode, parent.ref? with
      | .deferred p, _ =>
        (.ok { staged := accepted, external := external },
          { w with ledgers := LedgerTable.stage w.ledgers p accepted .unmap })
      | .immediate, some source =>
        let (answer, s) := service.unmap source accepted w.service
        (applied accepted external answer, { w with service := s })
      | .immediate, none => (.error (.notSaved parent.effectiveType), w)

/-- Carries out what was staged for a parent, whose saved object is given. -/
def commit (service : MappingService σ) (parent : LedgerParent) (saved : ObjectRef)
    (w : Workspace σ) : CommitReport × Workspace σ :=
  let (report, ledgers, s) := LedgerTable.commit w.ledgers service parent saved w.service
  (report, { ledgers := ledgers, service := s })

/-- Drops what was staged for a parent. -/
def discard (parent : LedgerParent) (w : Workspace σ) : Workspace σ :=
  { w with ledgers := LedgerTable.discard w.ledgers parent }

end Broker

end ObjectMapping
