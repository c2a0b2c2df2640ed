import ObjectMapping.Proofs.Mapping.AllOrNothing

/-! # What is staged and what a commit sends

A change that a broker defers goes through a ledger: its targets are staged as intents, and a commit
sends the intents to the mapping service in at most two calls. Both halves of the way are described
here for mapping and for unmapping alike.

* **`Broker.Procedure.Intends`** — the intents that a procedure stages for its targets, and what a
  commit of them asks of the service.
* **`Broker.commit_logging`** — the calls that a commit sends. -/

namespace ObjectMapping

variable {σ α : Type}

namespace Ledger

/-! ### Intents -/

/-- A ledger after intents have been staged in turn. -/
def stageAll (l : Ledger) (intents : List Intent) : Ledger :=
  intents.foldl (fun l i => l.stageOne i.object i.change i.direction) l

/-- All intents of a ledger whose intents are for one kind of change are for that kind. -/
theorem half_eq_self {change : Change} {intents : List Intent}
    (h : ∀ i ∈ intents, i.change = change) : half ⟨intents⟩ change = intents :=
  List.filter_eq_self.2 fun i hi => decide_eq_true (h i hi)

/-- A ledger whose intents are for one kind of change has none for the other. -/
theorem half_opposite_eq_nil {change : Change} {intents : List Intent}
    (h : ∀ i ∈ intents, i.change = change) : half ⟨intents⟩ change.opposite = [] := by
  refine List.filter_eq_nil_iff.2 fun i hi => ?_
  rw [h i hi]
  simpa using (Change.opposite_ne change).symm

/-! ### The calls of a commit -/

/-- The call that a commit sends for one kind of change, if any intent is for it: one with the
objects of all these intents in order, and with their directions where they are to be mapped. -/
def callsFor (l : Ledger) (parent : ObjectRef) (change : Change) : List MappingCall :=
  let intents := l.intents.filter fun i => i.change = change
  if intents = [] then []
  else
    match change with
    | .map => [.map parent (intents.map fun i => ⟨i.object, i.direction⟩)]
    | .unmap => [.unmap parent (intents.map fun i => i.object)]

/-- The calls that a commit of a ledger sends. -/
def calls (l : Ledger) (parent : ObjectRef) : List MappingCall :=
  l.callsFor parent .map ++ l.callsFor parent .unmap

/-- Without anything pending for a kind of change there is no call for it. -/
theorem callsFor_of_half_eq_nil {l : Ledger} {parent : ObjectRef} {change : Change}
    (h : l.half change = []) : l.callsFor parent change = [] :=
  if_pos h

/-- The call for what is to be mapped has all the pending targets. -/
theorem callsFor_map {l : Ledger} {parent : ObjectRef} (h : l.half .map ≠ []) :
    l.callsFor parent .map = [.map parent l.pendingMaps] :=
  if_neg h

/-- The call for what is to be unmapped has all the pending objects. -/
theorem callsFor_unmap {l : Ledger} {parent : ObjectRef} (h : l.half .unmap ≠ []) :
    l.callsFor parent .unmap = [.unmap parent l.pendingUnmaps] :=
  if_neg h

/-- With a log, one half of a commit answers as it does without, and its call is logged. -/
theorem send_logging (l : Ledger) (service : MappingService σ) (parent : ObjectRef)
    (change : Change) (s : σ) (log : List MappingCall) :
    l.send service.logging parent change (s, log) =
      ((l.send service parent change s).1, (l.send service parent change s).2,
        log ++ l.callsFor parent change) := by
  unfold send
  by_cases h : l.half change = []
  · simp only [if_pos h, callsFor_of_half_eq_nil h, List.append_nil]
  · simp only [if_neg h]
    cases change with
    | map => rw [callsFor_map h]; rfl
    | unmap => rw [callsFor_unmap h]; rfl

/-- With a log, a commit does as it does without, and its calls are logged. -/
theorem commit_logging (l : Ledger) (service : MappingService σ) (parent : ObjectRef) (s : σ)
    (log : List MappingCall) :
    l.commit service.logging .map parent (s, log) =
      ((l.commit service .map parent s).1, (l.commit service .map parent s).2.1,
        (l.commit service .map parent s).2.2, log ++ l.calls parent) := by
  simp only [commit, send_logging, Change.opposite, calls, List.append_assoc]

end Ledger

/-- The calls that a commit for a parent sends, given the saved object. -/
def LedgerTable.calls (t : LedgerTable) (parent : LedgerParent) (saved : ObjectRef) :
    List MappingCall :=
  match t.get? parent.key with
  | some l => l.calls saved
  | none => []

namespace Broker

/-- **With a log, a commit does as it does without, and its calls are logged.** -/
theorem commit_logging (service : MappingService σ) (p : LedgerParent) (saved : ObjectRef)
    (w : Workspace σ) (log : List MappingCall) :
    commit service.logging p saved (w.withLog log) =
      ((commit service p saved w).1,
        (commit service p saved w).2.withLog (log ++ LedgerTable.calls w.ledgers p saved)) := by
  unfold commit LedgerTable.commit LedgerTable.calls Workspace.withLog
  cases w.ledgers.get? p.key with
  | none => simp only [List.append_nil]
  | some l => simp only [Ledger.commit_logging]

namespace Procedure

/-! ### Intents of procedures -/

/-- **The intents of a procedure**: for each target it stages an intent for its object and its
change, and a commit of intents for targets asks of the service what the procedure asks. -/
structure Intends (P : Procedure σ α) (service : MappingService σ) (intent : α → Intent) :
    Prop where
  object_eq : ∀ t, (intent t).object = P.object t
  change_eq : ∀ t, (intent t).change = P.change
  stage_eq : ∀ (ledgers : LedgerTable) (p : LedgerParent) (targets : List α),
    P.stage ledgers p targets =
      ledgers.insert p.key ((LedgerTable.ledger ledgers p).stageAll (targets.map intent))
  send_eq : ∀ (parent : ObjectRef) (targets : List α) (s : σ), targets ≠ [] →
    Ledger.send ⟨targets.map intent⟩ service parent P.change s = P.ask parent targets s
  calls_eq : ∀ (parent : ObjectRef) (targets : List α), targets ≠ [] →
    Ledger.callsFor ⟨targets.map intent⟩ parent P.change = [P.call parent targets]

end Procedure

/-- The intents that mapping stages. -/
theorem intends_mapping (b : Broker) (service : MappingService σ) (parent : Endpoint) :
    (b.mapping service parent).Intends service fun t => ⟨t.object, .map, t.direction⟩ := by
  have htargets : ∀ targets : List MappingTarget,
      Ledger.pendingMaps ⟨targets.map fun t => ⟨t.object, .map, t.direction⟩⟩ = targets := by
    intro targets
    rw [Ledger.pendingMaps, Ledger.half_eq_self (by simp), List.map_map]
    exact List.map_id targets
  have hhalf : ∀ targets : List MappingTarget, targets ≠ [] →
      Ledger.half ⟨targets.map fun t => ⟨t.object, .map, t.direction⟩⟩ .map ≠ [] := by
    intro targets hsome
    rw [Ledger.half_eq_self (by simp)]
    simpa using hsome
  refine ⟨fun _ => rfl, fun _ => rfl, fun ledgers p targets => ?_, fun source targets s hsome => ?_,
    fun source targets hsome => ?_⟩
  · rw [Ledger.stageAll, List.foldl_map]
    rfl
  · show Ledger.send _ service source .map s = service.map source targets s
    rw [Ledger.send, if_neg (hhalf targets hsome), htargets]
  · show Ledger.callsFor _ source .map = [.map source targets]
    rw [Ledger.callsFor_map (hhalf targets hsome), htargets]

/-- The intents that unmapping stages. -/
theorem intends_unmapping (b : Broker) (service : MappingService σ) (parent : Endpoint) :
    (b.unmapping service parent).Intends service fun r => ⟨r, .unmap, none⟩ := by
  have hobjects : ∀ objects : List ObjectRef,
      Ledger.pendingUnmaps ⟨objects.map fun r => ⟨r, .unmap, none⟩⟩ = objects := by
    intro objects
    rw [Ledger.pendingUnmaps, Ledger.half_eq_self (by simp), List.map_map]
    exact List.map_id objects
  have hhalf : ∀ objects : List ObjectRef, objects ≠ [] →
      Ledger.half ⟨objects.map fun r => ⟨r, .unmap, none⟩⟩ .unmap ≠ [] := by
    intro objects hsome
    rw [Ledger.half_eq_self (by simp)]
    simpa using hsome
  refine ⟨fun _ => rfl, fun _ => rfl, fun ledgers p objects => ?_, fun source objects s hsome => ?_,
    fun source objects hsome => ?_⟩
  · rw [Ledger.stageAll, List.foldl_map]
    rfl
  · show Ledger.send _ service source .unmap s = service.unmap source objects s
    rw [Ledger.send, if_neg (hhalf objects hsome), hobjects]
  · show Ledger.callsFor _ source .unmap = [.unmap source objects]
    rw [Ledger.callsFor_unmap (hhalf objects hsome), hobjects]

end Broker

end ObjectMapping
