import ObjectMapping.Mapping.Broker
import ObjectMapping.Mapping.Relationships

/-! # Calls that change all or nothing

A call to a broker makes the change of all its targets or of none. Mapping and unmapping are two
**procedures** (`Broker.Procedure`) that differ in what another system keeps, in what is allowed,
and in what is asked of the service and of the ledgers. A procedure goes in one of six ways
(`Broker.Procedure.Goes`), and what is said of calls follows from these without a look at what a
broker does.

To see which calls reach a mapping service it is given a log (`MappingService.logging`), with which
it answers as it does without.

* **`Broker.map_eq_run`, `Broker.unmap_eq_run`** — a broker follows the two procedures.
* **`Broker.Procedure.exists_goes`** — a procedure goes in one of the six ways.
* **`Broker.all_or_nothing`** — a call that fails has done nothing, and one that succeeds has done
  all of it. -/

namespace ObjectMapping

/-! ### Logs -/

/-- A mapping service with a **log** of the calls that it receives. -/
def MappingService.logging {σ : Type} (service : MappingService σ) :
    MappingService (σ × List MappingCall) where
  map source targets s :=
    let (answer, t) := service.map source targets s.1
    (answer, t, s.2 ++ [.map source targets])
  unmap source targets s :=
    let (answer, t) := service.unmap source targets s.1
    (answer, t, s.2 ++ [.unmap source targets])

/-- A workspace whose service has a log. -/
def Workspace.withLog {σ : Type} (w : Workspace σ) (log : List MappingCall) :
    Workspace (σ × List MappingCall) :=
  { ledgers := w.ledgers, service := (w.service, log) }

/-! ### Sorting out -/

/-- The first target that is neither set aside nor passes refuses them all; else those that are set
aside and those that pass are kept apart, each in order. -/
theorem Sorted.ofTargets_eq {α : Type} (object : α → ObjectRef)
    (isExternal isAllowed : ObjectRef → Bool) (refusal : ObjectRef → MappingError)
    (targets : List α) :
    Sorted.ofTargets object isExternal isAllowed refusal targets =
      match (targets.map object).find? fun r => !isExternal r && !isAllowed r with
      | some r => .error (refusal r)
      | none => .ok ⟨targets.filter fun t => !isExternal (object t) && isAllowed (object t),
          (targets.map object).filter isExternal⟩ := by
  induction targets with
  | nil => rfl
  | cons t rest ih =>
    rw [ofTargets, List.map_cons, ih]
    by_cases hexternal : isExternal (object t) = true
    · rw [if_pos hexternal, List.find?_cons_of_neg (by simp [hexternal]),
        List.filter_cons_of_neg (by simp [hexternal]), List.filter_cons_of_pos hexternal]
      cases (rest.map object).find? fun r => !isExternal r && !isAllowed r <;> rfl
    · rw [if_neg hexternal]
      by_cases hallowed : isAllowed (object t) = true
      · rw [if_pos hallowed, List.find?_cons_of_neg (by simp [hallowed]),
          List.filter_cons_of_pos (by simp [hexternal, hallowed]),
          List.filter_cons_of_neg hexternal]
        cases (rest.map object).find? fun r => !isExternal r && !isAllowed r <;> rfl
      · rw [if_neg hallowed, List.find?_cons_of_pos (by simp [hexternal, hallowed])]

namespace Broker

/-! ### Procedures -/

/-- A **procedure**: how the relationships of a parent are changed in one way. -/
structure Procedure (σ α : Type) where
  /-- The change. -/
  change : Change
  /-- The parent. -/
  parent : Endpoint
  /-- The object of a target. -/
  object : α → ObjectRef
  /-- Whether another system keeps the relationship to an object. -/
  isExternal : ObjectRef → Bool
  /-- Whether the change of the relationship to an object is allowed. -/
  isAllowed : ObjectRef → Bool
  /-- A target with what is added to it. -/
  complete : α → α
  /-- What is added to a target leaves its object. -/
  object_complete : ∀ t, object (complete t) = object t
  /-- The call of the service for a source and targets. -/
  call : ObjectRef → List α → MappingCall
  /-- What the service does when it is called. -/
  ask : ObjectRef → List α → σ → ServiceAnswer × σ
  /-- What staging targets for a parent does to the ledgers. -/
  stage : LedgerTable → LedgerParent → List α → LedgerTable

variable {σ α : Type}

/-- How a broker maps targets to a parent. -/
def mapping (b : Broker) (service : MappingService σ) (parent : Endpoint) :
    Procedure σ MappingTarget where
  change := .map
  parent := parent
  object := MappingTarget.object
  isExternal r := b.policy.isExternallyMapped parent.effectiveType r.effectiveType
  isAllowed r := b.policy.canMap parent (.object r) (optionsFor parent)
  complete := b.directed parent
  object_complete t := by
    unfold directed
    split <;> rfl
  call := .map
  ask := service.map
  stage := LedgerTable.stageTargets

/-- How a broker unmaps objects from a parent. -/
def unmapping (b : Broker) (service : MappingService σ) (parent : Endpoint) :
    Procedure σ ObjectRef where
  change := .unmap
  parent := parent
  object := id
  isExternal r := b.policy.isExternallyUnmapped parent.effectiveType r.effectiveType
  isAllowed r := b.policy.canUnmap parent (.object r)
  complete := id
  object_complete _ := rfl
  call := .unmap
  ask := service.unmap
  stage ledgers p objects := LedgerTable.stage ledgers p objects .unmap

namespace Procedure

variable (P : Procedure σ α) (targets : List α) (mode : MapMode) (w : Workspace σ)

/-- The **first refused** object: the first one that no other system keeps and whose change is not
allowed. -/
def refused? : Option ObjectRef :=
  (targets.map P.object).find? fun r => !P.isExternal r && !P.isAllowed r

/-- The **external** objects, in order. -/
def external : List ObjectRef := (targets.map P.object).filter P.isExternal

/-- The objects that are not external, in order. -/
def others : List ObjectRef := (targets.map P.object).filter fun r => !P.isExternal r

/-- The **accepted** targets, in order, with what is added to them. -/
def accepted : List α :=
  (targets.filter fun t => !P.isExternal (P.object t) && P.isAllowed (P.object t)).map P.complete

/-- The targets **sorted out**, or the refusal of them all. -/
def sort : Except MappingError (Sorted α) :=
  match P.refused? targets with
  | some r => .error (.notAllowed P.change P.parent.effectiveType r)
  | none => .ok ⟨P.accepted targets, P.external targets⟩

/-- **Following** a procedure. -/
def run : Except MappingError MapOutcome × Workspace σ :=
  match P.sort targets with
  | .error e => (.error e, w)
  | .ok ⟨accepted, external⟩ =>
    let objects := accepted.map P.object
    if accepted = [] then (.ok { external := external }, w)
    else
      match mode, P.parent.ref? with
      | .deferred p, _ =>
        (.ok { staged := objects, external := external },
          { w with ledgers := P.stage w.ledgers p accepted })
      | .immediate, some source =>
        let (answer, s) := P.ask source accepted w.service
        (applied objects external answer, { w with service := s })
      | .immediate, none => (.error (.notSaved P.parent.effectiveType), w)

/-- A procedure with a log of the calls. -/
def logging : Procedure (σ × List MappingCall) α where
  change := P.change
  parent := P.parent
  object := P.object
  isExternal := P.isExternal
  isAllowed := P.isAllowed
  complete := P.complete
  object_complete := P.object_complete
  call := P.call
  ask source targets s :=
    let (answer, t) := P.ask source targets s.1
    (answer, t, s.2 ++ [P.call source targets])
  stage := P.stage

/-- The **ways in which a procedure goes**: what it answers, the workspace that it leaves, and the
calls that the service receives. -/
inductive Goes (P : Procedure σ α) (targets : List α) (mode : MapMode) (w : Workspace σ) :
    Except MappingError MapOutcome × Workspace σ → List MappingCall → Prop where
  /-- A target is refused. -/
  | refused {r : ObjectRef} (hrefused : P.refused? targets = some r) :
      Goes P targets mode w (.error (.notAllowed P.change P.parent.effectiveType r), w) []
  /-- There is nothing to change. -/
  | idle (hrefused : P.refused? targets = none) (hnone : P.accepted targets = []) :
      Goes P targets mode w (.ok { external := P.external targets }, w) []
  /-- The change is staged. -/
  | stages {p : LedgerParent} (hrefused : P.refused? targets = none)
      (hsome : P.accepted targets ≠ []) (hmode : mode = .deferred p) :
      Goes P targets mode w
        (.ok { staged := P.others targets, external := P.external targets },
          { w with ledgers := P.stage w.ledgers p (P.accepted targets) }) []
  /-- The parent has not been saved. -/
  | notSaved (hrefused : P.refused? targets = none) (hsome : P.accepted targets ≠ [])
      (hmode : mode = .immediate) (hparent : P.parent.ref? = none) :
      Goes P targets mode w (.error (.notSaved P.parent.effectiveType), w) []
  /-- The service makes the change. -/
  | applies {source : ObjectRef} {s : σ} (hrefused : P.refused? targets = none)
      (hsome : P.accepted targets ≠ []) (hmode : mode = .immediate)
      (hparent : P.parent.ref? = some source)
      (hask : P.ask source (P.accepted targets) w.service = (.ok (), s)) :
      Goes P targets mode w
        (.ok { applied := P.others targets, external := P.external targets },
          { w with service := s })
        [P.call source (P.accepted targets)]
  /-- The service answers with a failure. -/
  | fails {source : ObjectRef} {e : MappingError} {s : σ} (hrefused : P.refused? targets = none)
      (hsome : P.accepted targets ≠ []) (hmode : mode = .immediate)
      (hparent : P.parent.ref? = some source)
      (hask : P.ask source (P.accepted targets) w.service = (.error e, s)) :
      Goes P targets mode w (.error e, { w with service := s })
        [P.call source (P.accepted targets)]

variable {P targets mode w}

/-- Where none is refused, the accepted targets are those that are not external. -/
theorem map_object_accepted (h : P.refused? targets = none) :
    (P.accepted targets).map P.object = P.others targets := by
  have hallowed : ∀ t ∈ targets, (!P.isExternal (P.object t) && P.isAllowed (P.object t)) =
      !P.isExternal (P.object t) := by
    intro t ht
    have hno := List.find?_eq_none.1 h (P.object t) (List.mem_map_of_mem ht)
    cases hexternal : P.isExternal (P.object t) with
    | true => rfl
    | false => simpa [hexternal] using hno
  have hobject : P.object ∘ P.complete = P.object := funext P.object_complete
  rw [accepted, others, List.map_map, hobject, List.filter_map]
  exact congrArg (List.map P.object) (List.filter_congr hallowed)

/-- **A procedure goes in one of the ways**, and with a log it does the same and adds the calls to
the log. -/
theorem exists_goes (P : Procedure σ α) (targets : List α) (mode : MapMode) (w : Workspace σ) :
    ∃ calls, P.Goes targets mode w (P.run targets mode w) calls ∧
      ∀ log, P.logging.run targets mode (w.withLog log) =
        ((P.run targets mode w).1, (P.run targets mode w).2.withLog (log ++ calls)) := by
  -- a log makes no difference to what is refused, accepted and set aside
  have hlogging : P.logging.sort targets = P.sort targets := rfl
  unfold run
  rw [hlogging]
  cases hrefused : P.refused? targets with
  | some r =>
    have hsort : P.sort targets = .error (.notAllowed P.change P.parent.effectiveType r) := by
      rw [sort, hrefused]
    rw [hsort]
    exact ⟨[], .refused hrefused, fun log => by rw [List.append_nil]⟩
  | none =>
    have hsort : P.sort targets = .ok ⟨P.accepted targets, P.external targets⟩ := by
      rw [sort, hrefused]
    rw [hsort]
    dsimp only
    by_cases hnone : P.accepted targets = []
    · rw [if_pos hnone]
      exact ⟨[], .idle hrefused hnone, fun log => by rw [if_pos hnone, List.append_nil]⟩
    · have hobjects : (P.accepted targets).map P.logging.object = P.others targets :=
        map_object_accepted hrefused
      simp only [if_neg hnone, map_object_accepted hrefused, hobjects]
      cases mode with
      | deferred p =>
        exact ⟨[], .stages hrefused hnone rfl, fun log => by rw [List.append_nil]; rfl⟩
      | immediate =>
        cases hparent : P.parent.ref? with
        | none =>
          have hparent' : P.logging.parent.ref? = none := hparent
          refine ⟨[], .notSaved hrefused hnone rfl hparent, fun log => ?_⟩
          rw [hparent', List.append_nil]
          rfl
        | some source =>
          have hparent' : P.logging.parent.ref? = some source := hparent
          refine ⟨[P.call source (P.accepted targets)], ?_, fun log => ?_⟩
          · -- the service decides which of the last two ways it is
            show P.Goes targets .immediate w
              (applied _ _ (P.ask source (P.accepted targets) w.service).1,
                { w with service := (P.ask source (P.accepted targets) w.service).2 }) _
            obtain ⟨answer, s, hask⟩ :
                ∃ answer s, P.ask source (P.accepted targets) w.service = (answer, s) := ⟨_, _, rfl⟩
            rw [hask]
            cases answer with
            | ok _ => exact .applies hrefused hnone rfl hparent hask
            | error e => exact .fails hrefused hnone rfl hparent hask
          · rw [hparent']
            rfl

/-- **All or nothing**: what a call for targets may answer and leave. A mapping service may itself
answer with any error, so what is said of the errors that a call has reasons of its own for is said
of calls that do not reach the service. -/
structure AllOrNothing (P : Procedure σ α) (targets : List α) (mode : MapMode) (w : Workspace σ)
    (r : Except MappingError MapOutcome × Workspace σ) (calls : List MappingCall) : Prop where
  /-- A call that fails has changed no ledger. -/
  ledgers_of_error : ∀ e, r.1 = .error e → r.2.ledgers = w.ledgers
  /-- A call that fails has not reached the service, unless the failure is the answer of the service
  to one call with all accepted targets. -/
  calls_of_error : ∀ e, r.1 = .error e →
    calls = [] ∧ r.2.service = w.service ∨
      ∃ source, P.parent.ref? = some source ∧ calls = [P.call source (P.accepted targets)] ∧
        P.ask source (P.accepted targets) w.service = (.error e, r.2.service)
  /-- A target is refused exactly when there is one that is neither external nor allowed, and the
  first of them is named. A service that has been called may itself answer with such an error, so
  the refusal is told from its answer by `calls = []`. -/
  notAllowed_iff : ∀ change type object,
    r.1 = .error (.notAllowed change type object) ∧ calls = [] ↔
      change = P.change ∧ type = P.parent.effectiveType ∧ P.refused? targets = some object
  /-- The parent is reported as not saved exactly when no target is refused, some are accepted, and
  the change is to be made at once for a parent that is no saved object. Here too `calls = []` sets
  the report apart from an answer of the service with such an error. -/
  notSaved_iff : ∀ type, r.1 = .error (.notSaved type) ∧ calls = [] ↔
    type = P.parent.effectiveType ∧ P.refused? targets = none ∧ P.accepted targets ≠ [] ∧
      mode = .immediate ∧ P.parent.ref? = none
  /-- A call that fails without having reached the service fails for one of these two reasons. -/
  reason_of_error : ∀ e, r.1 = .error e → calls = [] →
    (∃ change type object, e = .notAllowed change type object) ∨ ∃ type, e = .notSaved type
  /-- A call that succeeds tells the external objects, and all others, in order, as applied or as
  staged. -/
  lists_of_ok : ∀ o, r.1 = .ok o → o.external = P.external targets ∧
    (mode = .immediate → o.applied = P.others targets ∧ o.staged = []) ∧
    ∀ p, mode = .deferred p → o.staged = P.others targets ∧ o.applied = []
  /-- A call that succeeds tells each object in one of the lists and in no other. -/
  perm_of_ok : ∀ o, r.1 = .ok o →
    (o.external ++ (o.applied ++ o.staged)).Perm (targets.map P.object)
  /-- What is told as applied has been done by the service in one call, and what is told as staged
  has been staged. -/
  effects_of_ok : ∀ o, r.1 = .ok o →
    (o.applied = [] → calls = [] ∧ r.2.service = w.service) ∧
    (o.applied ≠ [] → ∃ source, P.parent.ref? = some source ∧
      calls = [P.call source (P.accepted targets)] ∧
      P.ask source (P.accepted targets) w.service = (.ok (), r.2.service)) ∧
    (o.staged = [] → r.2.ledgers = w.ledgers) ∧
    (o.staged ≠ [] → ∃ p, mode = .deferred p ∧
      r.2.ledgers = P.stage w.ledgers p (P.accepted targets))

variable {r : Except MappingError MapOutcome × Workspace σ} {calls : List MappingCall}

/-- Where none is refused, there are accepted targets if not all objects are external. -/
theorem others_eq_nil_iff (h : P.refused? targets = none) :
    P.others targets = [] ↔ P.accepted targets = [] := by
  rw [← map_object_accepted h, List.map_eq_nil_iff]

/-- However a procedure goes, a failure leaves the ledgers as they were. -/
theorem Goes.ledgers_of_error (h : P.Goes targets mode w r calls) (e : MappingError)
    (he : r.1 = .error e) : r.2.ledgers = w.ledgers := by
  cases h with
  | stages => cases he
  | _ => rfl

/-- However a procedure goes, a failure is not preceded by a call, or it is the answer to the only
one. -/
theorem Goes.calls_of_error (h : P.Goes targets mode w r calls) (e : MappingError)
    (he : r.1 = .error e) :
    calls = [] ∧ r.2.service = w.service ∨
      ∃ source, P.parent.ref? = some source ∧ calls = [P.call source (P.accepted targets)] ∧
        P.ask source (P.accepted targets) w.service = (.error e, r.2.service) := by
  cases h with
  | refused hrefused => exact .inl ⟨rfl, rfl⟩
  | notSaved hrefused hsome hmode hparent => exact .inl ⟨rfl, rfl⟩
  | fails hrefused hsome hmode hparent hask =>
    cases he
    exact .inr ⟨_, hparent, rfl, hask⟩
  | _ => cases he

/-- A target is refused exactly when one has to be. -/
theorem Goes.notAllowed_iff (h : P.Goes targets mode w r calls) (change : Change) (type : TypeName)
    (object : ObjectRef) :
    r.1 = .error (.notAllowed change type object) ∧ calls = [] ↔
      change = P.change ∧ type = P.parent.effectiveType ∧ P.refused? targets = some object := by
  constructor
  · rintro ⟨he, hcalls⟩
    cases h with
    | refused hrefused =>
      cases he
      exact ⟨rfl, rfl, hrefused⟩
    | fails => cases hcalls
    | _ => cases he
  · rintro ⟨rfl, rfl, hobject⟩
    cases h with
    | refused hrefused =>
      rw [hrefused] at hobject
      cases hobject
      exact ⟨rfl, rfl⟩
    | _ hrefused =>
      rw [hrefused] at hobject
      cases hobject

/-- The parent is reported as not saved exactly when it has to be. -/
theorem Goes.notSaved_iff (h : P.Goes targets mode w r calls) (type : TypeName) :
    r.1 = .error (.notSaved type) ∧ calls = [] ↔
      type = P.parent.effectiveType ∧ P.refused? targets = none ∧ P.accepted targets ≠ [] ∧
        mode = .immediate ∧ P.parent.ref? = none := by
  constructor
  · rintro ⟨he, hcalls⟩
    cases h with
    | notSaved hrefused hsome hmode hparent =>
      cases he
      exact ⟨rfl, hrefused, hsome, hmode, hparent⟩
    | fails => cases hcalls
    | _ => cases he
  · rintro ⟨rfl, hnone, hsome, hmode, hparent⟩
    cases h with
    | refused hrefused =>
      rw [hrefused] at hnone
      cases hnone
    | idle hrefused hidle => exact absurd hidle hsome
    | stages hrefused hsome' hmode' =>
      rw [hmode'] at hmode
      cases hmode
    | notSaved => exact ⟨rfl, rfl⟩
    | _ hrefused hsome' hmode' hparent' =>
      rw [hparent'] at hparent
      cases hparent

/-- A call that succeeds tells every object, as external or else as applied or as staged. -/
theorem Goes.lists_of_ok (h : P.Goes targets mode w r calls) (o : MapOutcome) (ho : r.1 = .ok o) :
    o.external = P.external targets ∧
      (mode = .immediate → o.applied = P.others targets ∧ o.staged = []) ∧
      ∀ p, mode = .deferred p → o.staged = P.others targets ∧ o.applied = [] := by
  cases h with
  | idle hrefused hnone =>
    cases ho
    rw [(others_eq_nil_iff hrefused).2 hnone]
    exact ⟨rfl, fun _ => ⟨rfl, rfl⟩, fun _ _ => ⟨rfl, rfl⟩⟩
  | stages hrefused hsome hmode =>
    cases ho
    rw [hmode]
    exact ⟨rfl, nofun, fun _ _ => ⟨rfl, rfl⟩⟩
  | applies hrefused hsome hmode =>
    cases ho
    rw [hmode]
    exact ⟨rfl, fun _ => ⟨rfl, rfl⟩, nofun⟩
  | _ => cases ho

/-- A call that succeeds tells the objects that are not external as applied and as staged. -/
theorem Goes.applied_append_staged (h : P.Goes targets mode w r calls) (o : MapOutcome)
    (ho : r.1 = .ok o) : o.applied ++ o.staged = P.others targets := by
  obtain ⟨-, himmediate, hdeferred⟩ := h.lists_of_ok o ho
  cases mode with
  | immediate =>
    obtain ⟨happlied, hstaged⟩ := himmediate rfl
    rw [happlied, hstaged, List.append_nil]
  | deferred p =>
    obtain ⟨hstaged, happlied⟩ := hdeferred p rfl
    rw [happlied, hstaged, List.nil_append]

/-- A call that succeeds tells each object in one of the lists and in no other. -/
theorem Goes.perm_of_ok (h : P.Goes targets mode w r calls) (o : MapOutcome) (ho : r.1 = .ok o) :
    (o.external ++ (o.applied ++ o.staged)).Perm (targets.map P.object) := by
  rw [(h.lists_of_ok o ho).1, h.applied_append_staged o ho]
  exact List.filter_append_perm P.isExternal (targets.map P.object)

/-- A call that succeeds has done what it tells. -/
theorem Goes.effects_of_ok (h : P.Goes targets mode w r calls) (o : MapOutcome)
    (ho : r.1 = .ok o) :
    (o.applied = [] → calls = [] ∧ r.2.service = w.service) ∧
      (o.applied ≠ [] → ∃ source, P.parent.ref? = some source ∧
        calls = [P.call source (P.accepted targets)] ∧
        P.ask source (P.accepted targets) w.service = (.ok (), r.2.service)) ∧
      (o.staged = [] → r.2.ledgers = w.ledgers) ∧
      (o.staged ≠ [] → ∃ p, mode = .deferred p ∧
        r.2.ledgers = P.stage w.ledgers p (P.accepted targets)) := by
  cases h with
  | idle hrefused hnone =>
    cases ho
    exact ⟨fun _ => ⟨rfl, rfl⟩, fun h => absurd rfl h, fun _ => rfl, fun h => absurd rfl h⟩
  | stages hrefused hsome hmode =>
    cases ho
    have hothers : P.others targets ≠ [] := fun h => hsome ((others_eq_nil_iff hrefused).1 h)
    exact ⟨fun _ => ⟨rfl, rfl⟩, fun h => absurd rfl h, fun h => absurd h hothers,
      fun _ => ⟨_, hmode, rfl⟩⟩
  | applies hrefused hsome hmode hparent hask =>
    cases ho
    have hothers : P.others targets ≠ [] := fun h => hsome ((others_eq_nil_iff hrefused).1 h)
    exact ⟨fun h => absurd h hothers, fun _ => ⟨_, hparent, rfl, hask⟩, fun _ => rfl,
      fun h => absurd rfl h⟩
  | _ => cases ho

/-- **However a procedure goes, it changes all or nothing.** -/
theorem Goes.allOrNothing (h : P.Goes targets mode w r calls) :
    P.AllOrNothing targets mode w r calls where
  ledgers_of_error := h.ledgers_of_error
  calls_of_error := h.calls_of_error
  notAllowed_iff := h.notAllowed_iff
  notSaved_iff := h.notSaved_iff
  reason_of_error e he hcalls := by
    cases h with
    | refused => cases he; exact .inl ⟨_, _, _, rfl⟩
    | notSaved => cases he; exact .inr ⟨_, rfl⟩
    | fails => cases hcalls
    | _ => cases he
  lists_of_ok := h.lists_of_ok
  perm_of_ok := h.perm_of_ok
  effects_of_ok := h.effects_of_ok

end Procedure

/-- The targets of a mapping are sorted out as the procedure says. -/
theorem sortMaps_eq (b : Broker) (service : MappingService σ) (parent : Endpoint)
    (targets : List MappingTarget) :
    b.sortMaps parent targets = (b.mapping service parent).sort targets := by
  unfold sortMaps Procedure.sort
  rw [Sorted.ofTargets_eq]
  show Except.map _
    (match (b.mapping service parent).refused? targets with | some _ => _ | none => _) = _
  cases (b.mapping service parent).refused? targets <;> rfl

/-- The targets of an unmapping are sorted out as the procedure says. -/
theorem sortUnmaps_eq (b : Broker) (service : MappingService σ) (parent : Endpoint)
    (targets : List ObjectRef) :
    b.sortUnmaps parent targets = (b.unmapping service parent).sort targets := by
  unfold sortUnmaps Procedure.sort Procedure.accepted
  rw [Sorted.ofTargets_eq]
  have hid : ∀ l : List ObjectRef, l.map (b.unmapping service parent).complete = l := List.map_id
  rw [hid]
  rfl

/-- **A broker maps as its procedure says.** -/
theorem map_eq_run (b : Broker) (service : MappingService σ) (parent : Endpoint)
    (targets : List MappingTarget) (mode : MapMode) (w : Workspace σ) :
    b.map service parent targets mode w = (b.mapping service parent).run targets mode w := by
  unfold map Procedure.run
  rw [b.sortMaps_eq service]
  cases (b.mapping service parent).sort targets <;> rfl

/-- **A broker unmaps as its procedure says.** -/
theorem unmap_eq_run (b : Broker) (service : MappingService σ) (parent : Endpoint)
    (targets : List ObjectRef) (mode : MapMode) (w : Workspace σ) :
    b.unmap service parent targets mode w = (b.unmapping service parent).run targets mode w := by
  unfold unmap Procedure.run
  rw [b.sortUnmaps_eq service]
  cases (b.unmapping service parent).sort targets with
  | error e => rfl
  | ok sorted =>
    have hid : ∀ l : List ObjectRef, l.map (b.unmapping service parent).object = l := List.map_id
    dsimp only
    rw [hid]
    rfl

/-- **A call to a broker changes all or nothing.** Whatever the parent, the targets, the mode, the
rules and permissions, the ledgers and the mapping service, what a call to map or to unmap answers
and leaves, and the calls that the service receives from it, are as `Procedure.AllOrNothing` says;
and the service receives these calls whatever it has received before. -/
theorem all_or_nothing (b : Broker) (service : MappingService σ) (parent : Endpoint)
    (mode : MapMode) (w : Workspace σ) :
    (∀ targets : List MappingTarget, ∃ calls,
      (∀ log, b.map service.logging parent targets mode (w.withLog log) =
        ((b.map service parent targets mode w).1,
          (b.map service parent targets mode w).2.withLog (log ++ calls))) ∧
      (b.mapping service parent).AllOrNothing targets mode w
        (b.map service parent targets mode w) calls) ∧
    ∀ targets : List ObjectRef, ∃ calls,
      (∀ log, b.unmap service.logging parent targets mode (w.withLog log) =
        ((b.unmap service parent targets mode w).1,
          (b.unmap service parent targets mode w).2.withLog (log ++ calls))) ∧
      (b.unmapping service parent).AllOrNothing targets mode w
        (b.unmap service parent targets mode w) calls := by
  refine ⟨fun targets => ?_, fun targets => ?_⟩
  · obtain ⟨calls, hgoes, hlog⟩ := (b.mapping service parent).exists_goes targets mode w
    refine ⟨calls, fun log => ?_, ?_⟩
    · rw [map_eq_run, map_eq_run]
      exact hlog log
    · rw [map_eq_run]
      exact hgoes.allOrNothing
  · obtain ⟨calls, hgoes, hlog⟩ := (b.unmapping service parent).exists_goes targets mode w
    refine ⟨calls, fun log => ?_, ?_⟩
    · rw [unmap_eq_run, unmap_eq_run]
      exact hlog log
    · rw [unmap_eq_run]
      exact hgoes.allOrNothing

end Broker

end ObjectMapping
