import ObjectMapping.Mapping.Service

/-! # Ledgers

While an object is being edited, changes to its relationships are staged in a ledger and carried out
together when the object has been saved. A ledger holds at most one intent for each object: staging
the opposite of an intent takes the intent out, and staging it again changes nothing but the
direction.

* **`Ledger.stageOne`** — stages one change.
* **`Ledger.settle`** — what a commit leaves and reports, given the service's answers to the two
  calls, one for what is to be mapped and one for what is to be unmapped.
* **`Ledger.commit`** — a commit with a service. -/

namespace ObjectMapping

/-- A **change that is staged**. -/
structure Intent where
  /-- The object that is to be mapped or unmapped. -/
  object : ObjectRef
  /-- What is to be done. -/
  change : Change
  /-- The direction of the relationship, where it has one. -/
  direction : Option Direction := none
deriving DecidableEq

namespace Intent

/-- Whether an intent is for a change of an object. -/
def isFor (key : ObjectKey) (change : Change) (i : Intent) : Bool :=
  i.change == change && i.object.key == key

/-- The object of an intent with its direction, as a service receives it. -/
def target (i : Intent) : MappingTarget := ⟨i.object, i.direction⟩

/-- An intent as JSON. -/
def toJson (i : Intent) : Json :=
  .object [("what", i.object.toJson), ("how", i.change.toJson),
    ("relation", .ofOption (i.direction.map Direction.toJson))]

end Intent

/-- A **ledger**: the staged changes in the order in which they were staged. -/
structure Ledger where
  /-- The staged changes. -/
  intents : List Intent := []
deriving DecidableEq

/-- What came of a **commit**. -/
structure CommitReport where
  /-- The objects that were mapped. -/
  mapped : List ObjectRef := []
  /-- The objects that were unmapped. -/
  unmapped : List ObjectRef := []
  /-- Why nothing was mapped. -/
  mapError : Option MappingError := none
  /-- Why nothing was unmapped. -/
  unmapError : Option MappingError := none
deriving DecidableEq

namespace CommitReport

/-- Whether nothing failed. -/
def isSuccess (r : CommitReport) : Bool := r.mapError.isNone && r.unmapError.isNone

/-- Whether nothing was done. -/
def isEmpty (r : CommitReport) : Bool := r.mapped.isEmpty && r.unmapped.isEmpty

/-- The report, or the first failure in it. -/
def result (r : CommitReport) : Except MappingError CommitReport :=
  match r.mapError.or r.unmapError with
  | some e => .error e
  | none => .ok r

/-- What came of a commit as JSON. -/
def toJson (r : CommitReport) : Json :=
  let objects := fun (refs : List ObjectRef) => Json.arr (refs.map ObjectRef.toJson)
  let failure := fun (e : Option MappingError) => Json.ofOption (e.map MappingError.toJson)
  .object [("mapped", objects r.mapped), ("unmapped", objects r.unmapped),
    ("map_error", failure r.mapError), ("unmap_error", failure r.unmapError),
    ("is_success", .bool r.isSuccess), ("is_empty", .bool r.isEmpty),
    ("into_result",
      match r.result with
      | .ok _ => .str "ok"
      | .error e => e.toJson)]

end CommitReport

namespace Ledger

/-- The ledger without intents. -/
def empty : Ledger := {}

instance : Inhabited Ledger := ⟨empty⟩

/-- Whether nothing is staged. -/
def isEmpty (l : Ledger) : Bool := l.intents.isEmpty

/-- The number of staged changes. -/
def size (l : Ledger) : Nat := l.intents.length

/-- A ledger as JSON: its intents in order. -/
def toJson (l : Ledger) : Json := .arr (l.intents.map Intent.toJson)

/-- Whether a change of an object is staged. -/
def isPending (l : Ledger) (key : ObjectKey) (change : Change) : Bool :=
  l.intents.any (Intent.isFor key change)

/-! ### Staging -/

/-- The first intent for a change of an object gets a direction, unless none is given. -/
def redirect (key : ObjectKey) (change : Change) (direction : Option Direction) :
    List Intent → List Intent
  | [] => []
  | i :: rest =>
    if i.isFor key change then { i with direction := direction.or i.direction } :: rest
    else i :: redirect key change direction rest

/-- **Stages one change.** The opposite change of the object, if staged, is taken out and nothing
is put in its place; a change that is staged already only gets the direction. -/
def stageOne (l : Ledger) (object : ObjectRef) (change : Change) (direction : Option Direction) :
    Ledger :=
  if l.isPending object.key change.opposite then
    ⟨l.intents.eraseP (Intent.isFor object.key change.opposite)⟩
  else if l.isPending object.key change then ⟨redirect object.key change direction l.intents⟩
  else ⟨l.intents ++ [⟨object, change, direction⟩]⟩

/-- Stages a change of several objects. -/
def stage (l : Ledger) (objects : List ObjectRef) (change : Change) : Ledger :=
  objects.foldl (fun l r => l.stageOne r change none) l

/-- Stages the mapping of targets. -/
def stageTargets (l : Ledger) (targets : List MappingTarget) : Ledger :=
  targets.foldl (fun l t => l.stageOne t.object .map t.direction) l

/-! ### Committing -/

/-- The intents for one kind of change. -/
def half (l : Ledger) (change : Change) : List Intent := l.intents.filter fun i => i.change = change

/-- The targets to be mapped. -/
def pendingMaps (l : Ledger) : List MappingTarget := (l.half .map).map Intent.target

/-- The objects to be unmapped. -/
def pendingUnmaps (l : Ledger) : List ObjectRef := (l.half .unmap).map Intent.object

/-- The ledger without the intents for one kind of change. -/
def without (l : Ledger) (change : Change) : Ledger :=
  ⟨l.intents.filter fun i => i.change ≠ change⟩

/-- The ledger after the answer to the call for one kind of change: what succeeded is taken out. -/
def after (l : Ledger) (change : Change) (answer : ServiceAnswer) : Ledger :=
  match answer with
  | .ok () => l.without change
  | .error _ => l

/-- The objects of a kind of change that succeeded. -/
def succeeded (l : Ledger) (change : Change) (answer : ServiceAnswer) : List ObjectRef :=
  match answer with
  | .ok () => (l.half change).map Intent.object
  | .error _ => []

/-- The failure in an answer. -/
def failure? (answer : ServiceAnswer) : Option MappingError :=
  match answer with
  | .ok () => none
  | .error e => some e

/-- What a commit reports, given the answers to both calls. -/
def report (l : Ledger) (mapAnswer unmapAnswer : ServiceAnswer) : CommitReport where
  mapped := l.succeeded .map mapAnswer
  unmapped := l.succeeded .unmap unmapAnswer
  mapError := failure? mapAnswer
  unmapError := failure? unmapAnswer

/-- **What a commit leaves**, given the answers to both calls. -/
def settle (l : Ledger) (mapAnswer unmapAnswer : ServiceAnswer) : Ledger :=
  (l.after .map mapAnswer).after .unmap unmapAnswer

/-- The call for one kind of change. Where there is nothing to do there is no call. -/
def send {σ : Type} (l : Ledger) (service : MappingService σ) (parent : ObjectRef)
    (change : Change) (s : σ) : ServiceAnswer × σ :=
  if l.half change = [] then (.ok (), s)
  else
    match change with
    | .map => service.map parent l.pendingMaps s
    | .unmap => service.unmap parent l.pendingUnmaps s

/-- **A commit**: the two calls in either order, each made whatever becomes of the other. -/
def commit {σ : Type} (l : Ledger) (service : MappingService σ) (first : Change)
    (parent : ObjectRef) (s : σ) : CommitReport × Ledger × σ :=
  let (firstAnswer, s) := l.send service parent first s
  let (secondAnswer, s) := l.send service parent first.opposite s
  match first with
  | .map => (l.report firstAnswer secondAnswer, l.settle firstAnswer secondAnswer, s)
  | .unmap => (l.report secondAnswer firstAnswer, l.settle secondAnswer firstAnswer, s)

end Ledger

end ObjectMapping
