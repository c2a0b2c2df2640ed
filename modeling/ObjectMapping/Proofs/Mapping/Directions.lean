import Mathlib.Data.List.ReduceOption
import ObjectMapping.Proofs.Mapping.Gate

/-! # Directions of what is deferred

A target whose relationship has a direction may be given one or be left without. A ledger keeps the
direction of an intent that is staged again without one. A broker never stages such a target without
a direction, however: it adds the default before. So when an object is offered again without a
direction, the default takes the place of the direction that it was given before.

What a ledger holds for an object is told from what is staged for this object alone
(`Ledger.only_stageTargets`), and under the key of a ledger only deferred calls with this key stage
anything.

* **`Broker.only_performs`** — what the calls of a run stage for an object.
* **`Broker.pending_direction`** — in which direction an object is to be mapped after a run, and
  when this is not the last one that was given. -/

namespace ObjectMapping

/-! ### What is staged for one object -/

namespace Ledger

variable {l : Ledger} {key : ObjectKey} {object : ObjectRef} {change : Change}
  {direction : Option Direction} {intents : List Intent}

/-- A ledger with the intents for one object **only**. -/
def only (l : Ledger) (key : ObjectKey) : Ledger :=
  ⟨l.intents.filter fun i => i.object.key = key⟩

/-- Which changes of an object are staged does not depend on other objects. -/
theorem isPending_only : (l.only key).isPending key change = l.isPending key change := by
  rw [isPending, only, List.any_filter, isPending]
  congr 1
  funext i
  rw [Intent.isFor]
  cases i.change == change <;> simp

/-- An intent that is for a change of an object is for the object. -/
theorem key_of_isFor {i : Intent} (h : i.isFor key change = true) : i.object.key = key := by
  simp only [Intent.isFor, Bool.and_eq_true, beq_iff_eq] at h
  exact h.2

/-- Redirecting the change of an object is redirecting it among the intents for the object. -/
theorem filter_redirect_self :
    (redirect key change direction intents).filter (fun i => i.object.key = key) =
      redirect key change direction (intents.filter fun i => i.object.key = key) := by
  induction intents with
  | nil => rfl
  | cons i rest ih =>
    by_cases hkey : i.object.key = key
    · rw [List.filter_cons_of_pos (by simpa using hkey), redirect, redirect]
      split
      · rw [List.filter_cons_of_pos (by simpa using hkey)]
      · rw [List.filter_cons_of_pos (by simpa using hkey), ih]
    · have hfor : ¬ i.isFor key change = true := fun h => hkey (key_of_isFor h)
      rw [List.filter_cons_of_neg (by simpa using hkey), redirect, if_neg hfor,
        List.filter_cons_of_neg (by simpa using hkey), ih]

/-- Redirecting the change of an object leaves the intents for other ones. -/
theorem filter_redirect_of_ne {other : ObjectKey} (h : other ≠ key) :
    (redirect other change direction intents).filter (fun i => i.object.key = key) =
      intents.filter fun i => i.object.key = key := by
  induction intents with
  | nil => rfl
  | cons i rest ih =>
    rw [redirect]
    split
    · next hfor =>
      have hkey : ¬ i.object.key = key := fun hkey => h ((key_of_isFor hfor).symm.trans hkey)
      rw [List.filter_cons_of_neg (by simpa using hkey),
        List.filter_cons_of_neg (by simpa using hkey)]
    · rw [List.filter_cons, List.filter_cons, ih]

/-- **What is staged for an object is staged among the intents for it.** -/
theorem only_stageOne_self :
    (l.stageOne object change direction).only object.key =
      (l.only object.key).stageOne object change direction := by
  unfold stageOne
  rw [isPending_only, isPending_only]
  split
  · -- the intent for the opposite change is one of them
    have hfor : (Intent.isFor object.key change.opposite) = fun i =>
        Intent.isFor object.key change.opposite i && decide (i.object.key = object.key) := by
      funext i
      by_cases h : Intent.isFor object.key change.opposite i = true
      · rw [h, decide_eq_true (key_of_isFor h)]
        rfl
      · rw [Bool.eq_false_iff.2 h, Bool.false_and]
    rw [only, only, List.eraseP_filter, ← hfor]
  · split
    · rw [only, only, filter_redirect_self]
    · rw [only, only, List.filter_append, List.filter_singleton]
      simp

/-- **What is staged for an object leaves the intents for other ones.** -/
theorem only_stageOne_of_ne (h : object.key ≠ key) :
    (l.stageOne object change direction).only key = l.only key := by
  unfold stageOne
  split
  · -- no intent for the object is taken out
    obtain herase | ⟨i, before, after, -, hfor, hintents, herase⟩ :=
      List.exists_or_eq_self_of_eraseP (Intent.isFor object.key change.opposite) l.intents
    · rw [herase]
    · have hkey : ¬ i.object.key = key := fun hkey => h ((key_of_isFor hfor).symm.trans hkey)
      rw [only, only, herase, hintents, List.filter_append, List.filter_append,
        List.filter_cons_of_neg (by simpa using hkey)]
  · split
    · rw [only, only, filter_redirect_of_ne h]
    · rw [only, only, List.filter_append, List.filter_cons_of_neg (by simpa using h),
        List.filter_nil, List.append_nil]

/-- **What a ledger holds for an object after targets have been staged** is told from those of them
that are the object. -/
theorem only_stageTargets (targets : List MappingTarget) :
    (l.stageTargets targets).only key =
      (l.only key).stageTargets (targets.filter fun t => t.object.key = key) := by
  induction targets generalizing l with
  | nil => rfl
  | cons t rest ih =>
    show ((l.stageOne t.object .map t.direction).stageTargets rest).only key = _
    rw [ih]
    by_cases hkey : t.object.key = key
    · rw [List.filter_cons_of_pos (by simpa using hkey), ← hkey, only_stageOne_self]
      rfl
    · rw [List.filter_cons_of_neg (by simpa using hkey), only_stageOne_of_ne hkey]

/-- The **last direction** that targets have, if any has one. -/
def lastDirection? (targets : List MappingTarget) : Option Direction :=
  (targets.map MappingTarget.direction).reduceOption.getLast?

/-- The last direction is that of a later target, or else that of the first one. -/
theorem lastDirection?_cons (t : MappingTarget) (rest : List MappingTarget) :
    lastDirection? (t :: rest) = (lastDirection? rest).or t.direction := by
  unfold lastDirection?
  rw [List.map_cons]
  cases t.direction with
  | none => rw [List.reduceOption_cons_of_none, Option.or_none]
  | some d =>
    rw [List.reduceOption_cons_of_some, List.getLast?_cons]
    cases (rest.map MappingTarget.direction).reduceOption.getLast? <;> rfl

/-- An intent to map an object takes the last direction that it is staged again with. -/
theorem stageTargets_again {i : Intent} (hmap : i.change = .map) {targets : List MappingTarget}
    (h : ∀ t ∈ targets, t.object.key = i.object.key) :
    stageTargets ⟨[i]⟩ targets =
      ⟨[{ i with direction := (lastDirection? targets).or i.direction }]⟩ := by
  induction targets generalizing i with
  | nil => rfl
  | cons t rest ih =>
    rw [List.forall_mem_cons] at h
    have hfor : i.isFor t.object.key .map = true := by
      rw [Intent.isFor, hmap, h.1]
      simp
    have hopposite : i.isFor t.object.key .unmap = false := by
      rw [Intent.isFor, hmap]
      rfl
    have hstage : stageOne ⟨[i]⟩ t.object .map t.direction =
        ⟨[{ i with direction := t.direction.or i.direction }]⟩ := by
      simp [stageOne, isPending, redirect, Change.opposite, hfor, hopposite]
    -- the rest is staged again for an intent that has the direction of this target by now
    show (stageOne ⟨[i]⟩ t.object .map t.direction).stageTargets rest = _
    rw [hstage, ih (i := { i with direction := t.direction.or i.direction }) hmap h.2,
      lastDirection?_cons, Option.or_assoc]

/-- **An object that is staged to be mapped when nothing is pending for it** is so pending with the
last direction. -/
theorem stageTargets_of_key {targets : List MappingTarget} (h : ∀ t ∈ targets, t.object.key = key) :
    (stageTargets .empty targets).intents.map (fun i => (i.change, i.direction)) =
      ((targets.map MappingTarget.direction).getLast?.map fun _ =>
        (Change.map, lastDirection? targets)).toList := by
  rw [List.getLast?_map, Option.map_map]
  cases targets with
  | nil => rfl
  | cons t rest =>
    rw [List.forall_mem_cons] at h
    have hagain := stageTargets_again (i := ⟨t.object, .map, t.direction⟩) rfl
      (fun t' ht' => (h.2 t' ht').trans h.1.symm)
    show ((stageTargets ⟨[⟨t.object, .map, t.direction⟩]⟩ rest).intents.map _) = _
    rw [hagain, lastDirection?_cons, List.getLast?_cons]
    rfl

end Ledger

namespace LedgerTable

variable {t : LedgerTable} {p q : LedgerParent}

/-- The ledger of a parent after one has been put there. -/
theorem ledger_insert (t : LedgerTable) (p q : LedgerParent) (l : Ledger) :
    ledger (t.insert q.key l) p = if p.key = q.key then l else ledger t p := by
  rw [ledger, SortedMap.get?_insert]
  split <;> rfl

/-- Closing the ledger of another parent leaves that of a parent. -/
theorem ledger_erase_of_ne (h : p.key ≠ q.key) : ledger (t.erase q.key) p = ledger t p := by
  rw [ledger, SortedMap.get?_erase, if_neg h]
  rfl

/-- A commit for another parent leaves the ledger of a parent. -/
theorem ledger_commit_of_ne {σ : Type} (h : p.key ≠ q.key) (service : MappingService σ)
    (saved : ObjectRef) (s : σ) : ledger (t.commit service q saved s).2.1 p = ledger t p := by
  unfold commit
  cases t.get? q.key with
  | none => rfl
  | some l =>
    show ledger (if _ then _ else _) p = _
    split
    · exact ledger_erase_of_ne h
    · rw [ledger_insert, if_neg h]

end LedgerTable

/-! ### What calls stage for one object -/

variable {σ : Type}

/-- Calls that **only map** under the key of a ledger: whatever else they do, they neither unmap
there nor commit or discard what is staged. -/
def BrokerCall.OnlyMaps (ledger : LedgerKey) : BrokerCall → Prop
  | .map _ _ _ => True
  | .unmap _ _ .immediate => True
  | .unmap _ _ (.deferred p) | .commit p _ | .discard p => p.key ≠ ledger

namespace Broker

namespace Procedure

variable {α : Type} {P : Procedure σ α} {service : MappingService σ} {intent : α → Intent}
  {targets : List α} {mode : MapMode} {w : Workspace σ} {calls : List MappingCall}
  {r : Except MappingError MapOutcome × Workspace σ} {p q : LedgerParent}

/-- A procedure that is not deferred under the key of a ledger leaves the ledger. -/
theorem Goes.ledger_of_ne (h : P.Goes targets mode w r calls) (hP : P.Intends service intent)
    (hne : ∀ q, mode = .deferred q → q.key ≠ p.key) :
    LedgerTable.ledger r.2.ledgers p = LedgerTable.ledger w.ledgers p := by
  cases h with
  | stages hrefused hsome hmode =>
    show LedgerTable.ledger (P.stage w.ledgers _ (P.accepted targets)) p = _
    rw [hP.stage_eq, LedgerTable.ledger_insert, if_neg (hne _ hmode).symm]
  | _ => rfl

/-- A procedure that is refused leaves the ledgers. -/
theorem Goes.ledgers_of_refused (h : P.Goes targets mode w r calls)
    (hrefused : P.refused? targets ≠ none) : r.2.ledgers = w.ledgers := by
  cases h with
  | refused => rfl
  | _ hnone => exact absurd hnone hrefused

/-- A procedure that is deferred and not refused stages what it accepts. -/
theorem Goes.ledger_of_deferred (h : P.Goes targets (.deferred p) w r calls)
    (hP : P.Intends service intent) (hrefused : P.refused? targets = none) :
    LedgerTable.ledger r.2.ledgers p =
      (LedgerTable.ledger w.ledgers p).stageAll ((P.accepted targets).map intent) := by
  cases h with
  | refused hsome => exact absurd (hsome.symm.trans hrefused) (Option.some_ne_none _)
  | idle _ hnone =>
    rw [hnone]
    rfl
  | stages _ hsome hmode =>
    cases hmode
    show LedgerTable.ledger (P.stage w.ledgers p (P.accepted targets)) p = _
    rw [hP.stage_eq, LedgerTable.ledger_insert, if_pos rfl]
  | _ _ _ hmode => cases hmode

end Procedure

variable {b : Broker} {p q : LedgerParent} {key : ObjectKey}

/-- Whether a broker **sets aside** a target of a mapping, since another system keeps its
relationship. -/
def setsAside (b : Broker) (parent : Endpoint) (t : MappingTarget) : Bool :=
  b.policy.isExternallyMapped parent.effectiveType t.object.effectiveType

/-- Whether a target may be **mapped** to a parent. -/
def allowsMapping (b : Broker) (parent : Endpoint) (t : MappingTarget) : Bool :=
  b.policy.canMap parent (.object t.object) (optionsFor parent)

/-- The targets that a call **passes on** to a ledger for an object, as they were given to it: those
that are not set aside, if the call is not refused. -/
def passesOn (b : Broker) (ledger : LedgerKey) (key : ObjectKey) :
    BrokerCall → List MappingTarget
  | .map parent targets (.deferred p) =>
    if p.key = ledger ∧ ∀ t ∈ targets, b.setsAside parent t ∨ b.allowsMapping parent t then
      targets.filter fun t => !b.setsAside parent t && t.object.key = key
    else []
  | _ => []

/-- What a call passes on for an object is among its targets. -/
theorem exists_of_mem_passesOn {ledger : LedgerKey} {call : BrokerCall} {t : MappingTarget}
    (h : t ∈ b.passesOn ledger key call) :
    ∃ parent targets q, call = .map parent targets (.deferred q) ∧ q.key = ledger ∧ t ∈ targets ∧
      t.object.key = key := by
  unfold passesOn at h
  split at h
  · next parent targets q =>
    split at h
    · next hall =>
      obtain ⟨hmem, hkey⟩ := List.mem_filter.1 h
      rw [Bool.and_eq_true, decide_eq_true_iff] at hkey
      exact ⟨parent, targets, q, rfl, hall.1, hmem, hkey.2⟩
    · cases h
  · cases h

/-- Giving a direction to a target leaves its object. -/
theorem object_directed (parent : Endpoint) (t : MappingTarget) :
    (b.directed parent t).object = t.object := by
  unfold directed
  split <;> rfl

/-- What a call **stages** in a ledger for an object: what it passes on, with what it adds. -/
def stages (b : Broker) (ledger : LedgerKey) (key : ObjectKey) (call : BrokerCall) :
    List MappingTarget :=
  match call with
  | .map parent _ _ => (b.passesOn ledger key call).map (b.directed parent)
  | _ => []

/-- A mapping is not refused exactly when each of its targets is set aside or may be mapped. -/
theorem refused?_eq_none_iff (service : MappingService σ) {parent : Endpoint}
    {targets : List MappingTarget} :
    (b.mapping service parent).refused? targets = none ↔
      ∀ t ∈ targets, b.setsAside parent t ∨ b.allowsMapping parent t := by
  unfold Procedure.refused?
  rw [List.find?_eq_none, List.forall_mem_map]
  refine forall₂_congr fun t _ => ?_
  show ¬ (!b.setsAside parent t && !b.allowsMapping parent t) = true ↔ _
  cases b.setsAside parent t <;> cases b.allowsMapping parent t <;> decide

/-- A call that is refused stages nothing. -/
theorem stages_of_refused (service : MappingService σ) {parent : Endpoint}
    {targets : List MappingTarget} {ledger : LedgerKey}
    (h : (b.mapping service parent).refused? targets ≠ none) :
    b.stages ledger key (.map parent targets (.deferred p)) = [] := by
  have hno : b.passesOn ledger key (.map parent targets (.deferred p)) = [] :=
    if_neg fun hall => h ((refused?_eq_none_iff service).2 hall.2)
  rw [stages, hno, List.map_nil]

/-- A call that is not refused stages what its procedure accepts. -/
theorem stages_of_not_refused (service : MappingService σ) {parent : Endpoint}
    {targets : List MappingTarget} (h : (b.mapping service parent).refused? targets = none) :
    b.stages p.key key (.map parent targets (.deferred p)) =
      ((b.mapping service parent).accepted targets).filter fun t => t.object.key = key := by
  have hall := (refused?_eq_none_iff service).1 h
  have hpassed : b.passesOn p.key key (.map parent targets (.deferred p)) =
      targets.filter fun t => !b.setsAside parent t && t.object.key = key := if_pos ⟨rfl, hall⟩
  -- completing a target leaves its object
  have hkey : (fun t : MappingTarget => decide (t.object.key = key)) ∘ b.directed parent =
      fun t => decide (t.object.key = key) :=
    funext fun t => congrArg (fun r => decide (ObjectRef.key r = key)) (object_directed parent t)
  show (b.passesOn p.key key _).map (b.directed parent) =
    ((targets.filter fun t => !b.setsAside parent t && b.allowsMapping parent t).map
      (b.directed parent)).filter _
  rw [hpassed, List.filter_map, hkey, List.filter_filter]
  congr 1
  refine List.filter_congr fun t ht => ?_
  cases haside : b.setsAside parent t with
  | true => rw [Bool.not_true, Bool.false_and, Bool.false_and, Bool.and_false]
  | false =>
    have hallowed : b.allowsMapping parent t = true :=
      (hall t ht).resolve_left fun h => Bool.false_ne_true (haside.symm.trans h)
    rw [hallowed, Bool.not_false, Bool.true_and, Bool.and_true, Bool.and_true]

/-- A call that is deferred under another key stages nothing in a ledger. -/
theorem stages_of_ne {parent : Endpoint} {targets : List MappingTarget} (h : q.key ≠ p.key) :
    b.stages p.key key (.map parent targets (.deferred q)) = [] := by
  have hno : b.passesOn p.key key (.map parent targets (.deferred q)) = [] :=
    if_neg fun hall => h hall.1
  rw [stages, hno, List.map_nil]

/-- **What one call does to what a ledger holds for an object.** -/
theorem only_perform (service : MappingService σ) (w : Workspace σ) {call : BrokerCall}
    (honly : call.OnlyMaps p.key) :
    (LedgerTable.ledger (b.perform service w call).ledgers p).only key =
      ((LedgerTable.ledger w.ledgers p).only key).stageTargets (b.stages p.key key call) := by
  cases call with
  | map parent targets mode =>
    obtain ⟨_, hgoes, -⟩ := (b.mapping service parent).exists_goes targets mode w
    have hintends := b.intends_mapping service parent
    rw [perform, map_eq_run]
    cases mode with
    | immediate =>
      rw [hgoes.ledger_of_ne hintends fun _ h => absurd h (by simp)]
      rfl
    | deferred q =>
      by_cases hq : q.key = p.key
      · -- both parents lead to one ledger
        have hledger : ∀ t, LedgerTable.ledger t p = LedgerTable.ledger t q := fun t => by
          rw [LedgerTable.ledger, LedgerTable.ledger, hq]
        rw [← hq, hledger, hledger]
        by_cases hrefused : (b.mapping service parent).refused? targets = none
        · rw [hgoes.ledger_of_deferred hintends hrefused, stages_of_not_refused service hrefused,
            ← Ledger.only_stageTargets, Ledger.stageAll, List.foldl_map]
          rfl
        · rw [hgoes.ledgers_of_refused hrefused, stages_of_refused service hrefused]
          rfl
      · rw [hgoes.ledger_of_ne hintends fun _ h => MapMode.deferred.inj h ▸ hq, stages_of_ne hq]
        rfl
  | unmap parent objects mode =>
    obtain ⟨_, hgoes, -⟩ := (b.unmapping service parent).exists_goes objects mode w
    rw [perform, unmap_eq_run, hgoes.ledger_of_ne (b.intends_unmapping service parent)]
    · rfl
    · rintro q rfl
      exact honly
  | commit q saved =>
    exact congrArg (Ledger.only · key) (LedgerTable.ledger_commit_of_ne honly.symm service saved _)
  | discard q => exact congrArg (Ledger.only · key) (LedgerTable.ledger_erase_of_ne honly.symm)

/-- **What the calls of a run do to what a ledger holds for an object**, in which nothing but
mapping happens under the key of the ledger. -/
theorem only_performs (service : MappingService σ) (w : Workspace σ) {calls : List BrokerCall}
    (honly : ∀ call ∈ calls, call.OnlyMaps p.key) :
    (LedgerTable.ledger (calls.foldl (b.perform service) w).ledgers p).only key =
      ((LedgerTable.ledger w.ledgers p).only key).stageTargets
        (calls.flatMap (b.stages p.key key)) := by
  induction calls generalizing w with
  | nil => rfl
  | cons call rest ih =>
    rw [List.forall_mem_cons] at honly
    rw [List.foldl_cons, ih _ honly.2, only_perform service w honly.1, List.flatMap_cons,
      Ledger.stageTargets, Ledger.stageTargets, Ledger.stageTargets, List.foldl_append]

/-! ### The direction that is pending -/

/-- What a call stages for an object is it. -/
theorem key_of_mem_stages {ledger : LedgerKey} {call : BrokerCall} {t : MappingTarget}
    (h : t ∈ b.stages ledger key call) : t.object.key = key := by
  unfold stages at h
  split at h
  · next parent _ _ =>
    obtain ⟨given, hgiven, rfl⟩ := List.mem_map.1 h
    obtain ⟨_, _, _, -, -, -, hkey⟩ := exists_of_mem_passesOn hgiven
    rwa [object_directed]
  · cases h

/-- Where relationships have a direction, what a call stages for an object has the direction that
the call was given, or the default. -/
theorem map_direction_stages {ledger : LedgerKey} {call : BrokerCall}
    (hmega : ∀ parent targets q, call = .map parent targets (.deferred q) → q.key = ledger →
      ∀ t ∈ targets, t.object.key = key → b.policy.isMega parent (.object t.object) = true) :
    (b.stages ledger key call).map MappingTarget.direction =
      ((b.passesOn ledger key call).map MappingTarget.direction).map fun d =>
        some (d.getD b.settings.defaultDirection) := by
  unfold stages
  split
  · next parent targets mode =>
    rw [List.map_map, List.map_map]
    refine List.map_congr_left fun t ht => ?_
    obtain ⟨_, _, q, hcall, hledger, hmem, hkey⟩ := exists_of_mem_passesOn ht
    cases hcall
    have hdirected := hmega parent targets q rfl hledger t hmem hkey
    show (b.directed parent t).direction = some (t.direction.getD b.settings.defaultDirection)
    unfold directed
    cases hdirection : t.direction with
    | none => rw [if_pos ⟨rfl, hdirected⟩]; rfl
    | some d => rw [if_neg fun h => Option.some_ne_none d h.1, hdirection]; rfl
  · next hno =>
    have hnone : b.passesOn ledger key call = [] := by
      refine List.eq_nil_iff_forall_not_mem.2 fun t ht => ?_
      obtain ⟨parent, targets, q, hcall, -⟩ := exists_of_mem_passesOn ht
      exact hno _ _ _ hcall
    rw [hnone]
    rfl

/-- The last of directions, with a default for one that is missing, is the last one that is there or
the default, except when the last one is missing and the last one that is there is another one. -/
theorem getD_eq_lastGiven_iff (before : List (Option Direction)) (d : Option Direction)
    (fallback : Direction) :
    d.getD fallback = (before ++ [d]).reduceOption.getLast?.getD fallback ↔
      ¬ (d = none ∧ ∃ e ∈ (before ++ [d]).reduceOption.getLast?, e ≠ fallback) := by
  rw [List.reduceOption_append]
  cases d with
  | some x =>
    rw [List.reduceOption_cons_of_some, List.reduceOption_nil, List.getLast?_concat]
    exact iff_of_true rfl fun h => Option.some_ne_none x h.1
  | none =>
    rw [List.reduceOption_cons_of_none, List.reduceOption_nil, List.append_nil]
    cases before.reduceOption.getLast? with
    | none => exact iff_of_true rfl fun ⟨_, e, he, _⟩ => Option.some_ne_none e he.symm
    | some e => simp [eq_comm]

/-- **The direction in which an object is to be mapped** after a run of calls that only map under
the key of a ledger, for an object for which nothing was pending there at first and whose
relationships have a direction: it is the one that the last call which passed the object on was
given, or the default if that call was given none. So it is the last direction that was given in
the run, or the default if none was, except when a call without a direction comes last and the last
direction that was given is not the default. -/
theorem pending_direction (b : Broker) (service : MappingService σ) (w : Workspace σ)
    (p : LedgerParent) (key : ObjectKey) (calls : List BrokerCall)
    (hfresh : ∀ i ∈ (LedgerTable.ledger w.ledgers p).intents, i.object.key ≠ key)
    (honly : ∀ call ∈ calls, call.OnlyMaps p.key)
    (hmega : ∀ parent targets q, .map parent targets (.deferred q) ∈ calls → q.key = p.key →
      ∀ t ∈ targets, t.object.key = key → b.policy.isMega parent (.object t.object) = true) :
    let passed := (calls.flatMap (b.passesOn p.key key)).map MappingTarget.direction
    let fallback := b.settings.defaultDirection
    let held :=
      ((LedgerTable.ledger (calls.foldl (b.perform service) w).ledgers p).only key).intents
    held.map (fun i => (i.change, i.direction)) =
        (passed.getLast?.map fun d => (Change.map, some (d.getD fallback))).toList ∧
      (passed ≠ [] →
        (held.map Intent.direction = [some (passed.reduceOption.getLast?.getD fallback)] ↔
          ¬ (passed.getLast? = some none ∧ ∃ d ∈ passed.reduceOption.getLast?, d ≠ fallback))) := by
  intro passed fallback held
  have hempty : (LedgerTable.ledger w.ledgers p).only key = .empty :=
    congrArg Ledger.mk (List.filter_eq_nil_iff.2 fun i hi => by simpa using hfresh i hi)
  have hkey : ∀ t ∈ calls.flatMap (b.stages p.key key), t.object.key = key := fun t ht => by
    obtain ⟨call, -, ht⟩ := List.mem_flatMap.1 ht
    exact key_of_mem_stages ht
  -- what is staged has the directions that were passed on, with the default for none
  have hstaged : (calls.flatMap (b.stages p.key key)).map MappingTarget.direction =
      passed.map fun d => some (d.getD fallback) := by
    simp only [passed, List.map_flatMap]
    refine List.flatMap_congr fun call hcall => map_direction_stages fun parent targets q h => ?_
    exact hmega parent targets q (h ▸ hcall)
  clear_value passed
  have hheld : held.map (fun i => (i.change, i.direction)) =
      (passed.getLast?.map fun d => (Change.map, some (d.getD fallback))).toList := by
    have hreduce : (passed.map fun d => some (d.getD fallback)).reduceOption =
        passed.map fun d => d.getD fallback := by
      rw [List.reduceOption, List.filterMap_map]
      exact congrFun (List.filterMap_eq_map (f := fun d => d.getD fallback)) passed
    simp only [held]
    rw [only_performs service w honly, hempty, Ledger.stageTargets_of_key hkey,
      Ledger.lastDirection?, hstaged, hreduce, List.getLast?_map, List.getLast?_map]
    cases passed.getLast? <;> rfl
  refine ⟨hheld, fun hsome => ?_⟩
  -- what was passed on last decides, whether or not it has a direction
  obtain ⟨before, d, hpassed⟩ := passed.eq_nil_or_concat'.resolve_left hsome
  have hdirection : held.map Intent.direction = [some (d.getD fallback)] := by
    have hboth := congrArg (List.map Prod.snd) hheld
    rw [List.map_map, hpassed, List.getLast?_concat] at hboth
    exact hboth
  rw [hdirection, hpassed, List.getLast?_concat]
  simp only [List.cons.injEq, and_true, Option.some.injEq]
  exact getD_eq_lastGiven_iff before d fallback

/-- A broker for which programs are related to programs, in a direction. -/
def relatingPrograms : Broker where
  planner :=
    { catalog := ⟨[], List.nodup_nil⟩
      policy := ⟨⟨.ofList [(⟨"Program"⟩, ⟨{ map := .ofList [⟨"Program"⟩] }, some true⟩)], {}, []⟩,
        Permissions.all⟩
      snapshotType := .snapshot }
  settings := {}

/-- A call to relate one program to another when a draft is committed. -/
def relatingLater (direction : Option Direction) : BrokerCall :=
  .map (.object (.plain 1 ⟨"Program"⟩)) [⟨.plain 2 ⟨"Program"⟩, direction⟩] (.deferred (.draft "d"))

/-- Of two calls the first one has no direction, so that the object is pending with that of the
second one. Another ledger is discarded between them. -/
theorem pending_direction_given_later :
    let p : LedgerParent := .draft "d"
    let key : ObjectKey := (2, ⟨"Program"⟩)
    let calls := [relatingLater none, .discard (.draft "e"), relatingLater (some .parent)]
    let w := calls.foldl (relatingPrograms.perform RelationStore.service) { service := {} }
    (calls.flatMap (relatingPrograms.passesOn p.key key)).map MappingTarget.direction =
        [none, some .parent] ∧
      ((LedgerTable.ledger w.ledgers p).only key).intents.map (fun i => (i.change, i.direction)) =
        [(.map, some .parent)] := by
  intro p key calls w
  have hpassed : (calls.flatMap (relatingPrograms.passesOn p.key key)).map
      MappingTarget.direction = [none, some .parent] := by decide +kernel
  have honly : ∀ call ∈ calls, call.OnlyMaps p.key := by
    simp [calls, relatingLater, BrokerCall.OnlyMaps, LedgerParent.key, p]
  have hmega : ∀ parent targets q, .map parent targets (.deferred q) ∈ calls → q.key = p.key →
      ∀ t ∈ targets, t.object.key = key →
        relatingPrograms.policy.isMega parent (.object t.object) = true := by
    intro parent targets q hmem _ t ht _
    simp only [calls, relatingLater, List.mem_cons, BrokerCall.map.injEq, reduceCtorEq, false_or,
      List.not_mem_nil, or_false] at hmem
    obtain ⟨rfl, rfl, -⟩ | ⟨rfl, rfl, -⟩ := hmem <;>
      rw [List.mem_singleton.1 ht] <;>
      rfl
  obtain ⟨hheld, -⟩ := relatingPrograms.pending_direction RelationStore.service { service := {} }
    p key calls nofun honly hmega
  rw [hpassed] at hheld
  exact ⟨hpassed, hheld⟩

/-- Of two calls the second one has no direction, so that the default takes the place of that of the
first one. -/
theorem default_overrides_given :
    let p : LedgerParent := .draft "d"
    let key : ObjectKey := (2, ⟨"Program"⟩)
    let calls := [relatingLater (some .parent), relatingLater none]
    let w := calls.foldl (relatingPrograms.perform RelationStore.service) { service := {} }
    relatingPrograms.policy.isMega (.object (.plain 1 ⟨"Program"⟩))
        (.object (.plain 2 ⟨"Program"⟩)) = true ∧
      (calls.flatMap (relatingPrograms.passesOn p.key key)).map MappingTarget.direction =
        [some .parent, none] ∧
      relatingPrograms.settings.defaultDirection = .child ∧
      ((LedgerTable.ledger w.ledgers p).only key).intents.map (fun i => (i.change, i.direction)) =
        [(.map, some .child)] := by
  decide +kernel

end Broker

end ObjectMapping
