import ObjectMapping.Proofs.Ledger.Pending
import ObjectMapping.Proofs.Mapping.Commits

/-! # Deferred changes are the changes made at once

A change can be made at once, or it can be deferred and made by a commit. For targets that are
distinct objects, and with nothing else staged, the two come to the same: the service receives the
same call, if any, and what it answers is told alike.

The way of a deferred change leads through a ledger. Staged in a ledger without intents, distinct
targets stay as they are and in their order (`Ledger.stageAll_of_distinct`), and a commit of intents
for one kind of change is the one call for them (`Ledger.commit_of_forall_change`).

* **`Broker.Procedure.DeferredAgrees`** — what it means that the two come to the same.
* **`Broker.deferred_eq_immediate`** — they come to the same for mapping and for unmapping. -/

namespace ObjectMapping

variable {σ α : Type}

/-- The report of one kind of change of objects, given the answer of the service. -/
def CommitReport.ofAnswer (change : Change) (objects : List ObjectRef) (answer : ServiceAnswer) :
    CommitReport :=
  match change, answer with
  | .map, .ok () => { mapped := objects }
  | .map, .error e => { mapError := some e }
  | .unmap, .ok () => { unmapped := objects }
  | .unmap, .error e => { unmapError := some e }

/-- The report that a service was asked for nothing is empty. -/
theorem CommitReport.ofAnswer_nil (change : Change) :
    CommitReport.ofAnswer change [] (.ok ()) = {} := by cases change <;> rfl

namespace Ledger

variable {l : Ledger} {i : Intent} {change : Change}

/-! ### Staging distinct objects -/

/-- An intent for an object without one is put behind the others. -/
theorem stageOne_of_forall (h : ∀ j ∈ l.intents, j.object.key ≠ i.object.key) :
    l.stageOne i.object i.change i.direction = ⟨l.intents ++ [i]⟩ := by
  have hnone : ∀ change, ¬ l.isPending i.object.key change = true := by
    intro change hpending
    obtain ⟨j, hj, -, hkey⟩ := Event.isPending_iff.1 hpending
    exact h j hj hkey
  rw [stageOne, if_neg (hnone _), if_neg (hnone _)]

/-- **Intents for distinct objects are staged as they are**, in their order. -/
theorem stageAll_of_distinct {intents : List Intent} (h : Distinct (l.intents ++ intents)) :
    l.stageAll intents = ⟨l.intents ++ intents⟩ := by
  induction intents generalizing l with
  | nil =>
    rw [List.append_nil]
    rfl
  | cons i rest ih =>
    have hfresh : ∀ j ∈ l.intents, j.object.key ≠ i.object.key := by
      rw [Distinct, List.map_append, List.map_cons, List.nodup_append] at h
      exact fun j hj => h.2.2 _ (List.mem_map_of_mem hj) _ List.mem_cons_self
    have hsplit : l.intents ++ i :: rest = l.intents ++ [i] ++ rest := by
      rw [List.append_assoc, List.singleton_append]
    rw [hsplit] at h ⊢
    show (l.stageOne i.object i.change i.direction).stageAll rest = _
    rw [stageOne_of_forall hfresh]
    exact ih h

/-! ### Committing one kind of change -/

/-- For a kind of change without intents nothing is asked. -/
theorem send_of_half_eq_nil (service : MappingService σ) (parent : ObjectRef) (s : σ)
    (h : l.half change = []) : l.send service parent change s = (.ok (), s) := if_pos h

/-- The report on a ledger with nothing to unmap is that of the mapping. -/
theorem report_map (h : l.half .unmap = []) (answer : ServiceAnswer) :
    l.report answer (.ok ()) = .ofAnswer .map ((l.half .map).map Intent.object) answer := by
  have hnone : l.succeeded .unmap (.ok ()) = [] := by rw [succeeded, h, List.map_nil]
  rw [report, hnone]
  cases answer <;> rfl

/-- The report on a ledger with nothing to map is that of the unmapping. -/
theorem report_unmap (h : l.half .map = []) (answer : ServiceAnswer) :
    l.report (.ok ()) answer = .ofAnswer .unmap ((l.half .unmap).map Intent.object) answer := by
  have hnone : l.succeeded .map (.ok ()) = [] := by rw [succeeded, h, List.map_nil]
  rw [report, hnone]
  cases answer <;> rfl

/-- **A commit of intents for one kind of change is the one call for them**, and its report is what
the service answers. -/
theorem commit_of_forall_change (h : ∀ i ∈ l.intents, i.change = change)
    (service : MappingService σ) (parent : ObjectRef) (s : σ) :
    (l.commit service .map parent s).1 = .ofAnswer change (l.intents.map Intent.object)
        (l.send service parent change s).1 ∧
      (l.commit service .map parent s).2.2 = (l.send service parent change s).2 ∧
      l.calls parent = l.callsFor parent change := by
  have hall : l.half change = l.intents := half_eq_self h
  have hnone : l.half change.opposite = [] := half_opposite_eq_nil h
  have hcalls : l.callsFor parent change.opposite = [] := callsFor_of_half_eq_nil hnone
  have hsend : ∀ s, l.send service parent change.opposite s = (.ok (), s) := fun s =>
    l.send_of_half_eq_nil service parent s hnone
  -- the half of the other change is empty, whether it is the first or the second
  cases change with
  | map =>
    have hcommit : l.commit service .map parent s =
        (l.report (l.send service parent .map s).1 (.ok ()),
          l.settle (l.send service parent .map s).1 (.ok ()),
          (l.send service parent .map s).2) := by
      simp only [commit, hsend]
    refine ⟨?_, congrArg (·.2.2) hcommit, ?_⟩
    · rw [hcommit, report_map hnone, hall]
    · rw [calls, show l.callsFor parent .unmap = [] from hcalls, List.append_nil]
  | unmap =>
    have hfirst : l.send service parent .map s = (.ok (), s) := hsend s
    have hcommit : l.commit service .map parent s =
        (l.report (.ok ()) (l.send service parent .unmap s).1,
          l.settle (.ok ()) (l.send service parent .unmap s).1,
          (l.send service parent .unmap s).2) := by
      simp only [commit, hfirst, Change.opposite]
    refine ⟨?_, congrArg (·.2.2) hcommit, ?_⟩
    · rw [hcommit, report_unmap hnone, hall]
    · rw [calls, show l.callsFor parent .map = [] from hcalls, List.nil_append]

end Ledger

namespace Broker

/-- A commit for a parent is the commit of its ledger, which is empty if there is none. -/
theorem commit_eq_ledger_commit (service : MappingService σ) (p : LedgerParent) (saved : ObjectRef)
    (w : Workspace σ) :
    (commit service p saved w).1 =
        ((LedgerTable.ledger w.ledgers p).commit service .map saved w.service).1 ∧
      (commit service p saved w).2.service =
        ((LedgerTable.ledger w.ledgers p).commit service .map saved w.service).2.2 ∧
      LedgerTable.calls w.ledgers p saved = (LedgerTable.ledger w.ledgers p).calls saved := by
  unfold commit LedgerTable.commit LedgerTable.calls LedgerTable.ledger
  cases w.ledgers.get? p.key with
  | none => exact ⟨rfl, rfl, rfl⟩
  | some l => exact ⟨rfl, rfl, rfl⟩

/-- Staged intents for one kind of change are committed by the one call for them. -/
theorem commit_of_forall_change {change : Change} {p : LedgerParent} {w : Workspace σ}
    {intents : List Intent} (service : MappingService σ) (saved : ObjectRef)
    (hledger : LedgerTable.ledger w.ledgers p = ⟨intents⟩)
    (hchange : ∀ i ∈ intents, i.change = change) :
    (commit service p saved w).1 = .ofAnswer change (intents.map Intent.object)
        (Ledger.send ⟨intents⟩ service saved change w.service).1 ∧
      (commit service p saved w).2.service =
        (Ledger.send ⟨intents⟩ service saved change w.service).2 ∧
      LedgerTable.calls w.ledgers p saved = Ledger.callsFor ⟨intents⟩ saved change := by
  obtain ⟨hreport, hservice, hcalls⟩ := commit_eq_ledger_commit service p saved w
  rw [hreport, hservice, hcalls, hledger]
  exact Ledger.commit_of_forall_change hchange service saved w.service

namespace Procedure

/-- **A deferred change agrees with the change made at once**: what a call for targets answers and
leaves `now`, at once, against what it answers and leaves `later`, when it is deferred, and against
what the commit after that reports and leaves. The calls are those that the service receives either
way. -/
structure DeferredAgrees (P : Procedure σ α) (targets : List α) (source : ObjectRef)
    (now later : Except MappingError MapOutcome × Workspace σ)
    (committed : CommitReport × Workspace σ) (calls : List MappingCall) : Prop where
  /-- The service receives no call, or one with all accepted targets. -/
  calls_cases : calls = [] ∨ calls = [P.call source (P.accepted targets)]
  /-- The service is left in the same state. -/
  service_eq : committed.2.service = now.2.service
  /-- Both are refused alike, which is to fail without a call, and then nothing is committed. -/
  refused_iff : ∀ e, later.1 = .error e ↔ now.1 = .error e ∧ calls = []
  /-- A commit after a refusal has nothing to report. -/
  report_of_refused : ∀ e, later.1 = .error e → committed.1 = {}
  /-- What is told as applied at once is told as staged and then as committed, and the same objects
  are set aside as external. -/
  report_of_ok : ∀ o, now.1 = .ok o →
    later.1 = .ok { staged := o.applied, external := o.external } ∧
      committed.1 = .ofAnswer P.change o.applied (.ok ())
  /-- A failure of the service is told by the commit. -/
  report_of_error : ∀ e, now.1 = .error e → calls ≠ [] →
    later.1 = .ok { staged := P.others targets, external := P.external targets } ∧
      committed.1 = .ofAnswer P.change (P.others targets) (.error e)

variable {P : Procedure σ α} {service : MappingService σ} {intent : α → Intent} {targets : List α}
  {w : Workspace σ} {p : LedgerParent} {source : ObjectRef}
  {now : Except MappingError MapOutcome × Workspace σ} {calls : List MappingCall}

/-- Of distinct targets the accepted ones are staged for distinct objects. -/
theorem Intends.distinct_accepted (hP : P.Intends service intent)
    (hdistinct : (targets.map fun t => (P.object t).key).Nodup) :
    Ledger.Distinct ((P.accepted targets).map intent) := by
  have hkey : ((fun i => i.object.key) ∘ intent) ∘ P.complete = fun t => (P.object t).key := by
    funext t
    show (intent (P.complete t)).object.key = (P.object t).key
    rw [hP.object_eq, P.object_complete]
  rw [Ledger.Distinct, accepted, List.map_map, List.map_map, hkey]
  exact hdistinct.sublist (List.filter_sublist.map _)

/-- Targets that are refused are refused in any mode. -/
theorem run_of_refused {r : ObjectRef} (hrefused : P.refused? targets = some r) (mode : MapMode) :
    P.run targets mode w = (.error (.notAllowed P.change P.parent.effectiveType r), w) := by
  rw [run, sort, hrefused]

/-- **What is deferred is staged as it is**: where nothing is staged and none of the targets, all of
distinct objects, is refused, the ledger then holds the intents of the accepted ones. -/
theorem Intends.run_deferred (hP : P.Intends service intent)
    (hempty : (LedgerTable.ledger w.ledgers p).intents = [])
    (hdistinct : (targets.map fun t => (P.object t).key).Nodup)
    (hrefused : P.refused? targets = none) :
    (P.run targets (.deferred p) w).1 =
        .ok { staged := P.others targets, external := P.external targets } ∧
      (P.run targets (.deferred p) w).2.service = w.service ∧
      LedgerTable.ledger (P.run targets (.deferred p) w).2.ledgers p =
        ⟨(P.accepted targets).map intent⟩ := by
  have hledger : LedgerTable.ledger w.ledgers p = ⟨[]⟩ := by
    rw [← hempty]
  have hsort : P.sort targets = .ok ⟨P.accepted targets, P.external targets⟩ := by
    rw [sort, hrefused]
  rw [run, hsort]
  dsimp only
  by_cases hnone : P.accepted targets = []
  · rw [if_pos hnone, hnone, (others_eq_nil_iff hrefused).2 hnone]
    exact ⟨rfl, rfl, hledger⟩
  · have hstaged : Ledger.stageAll ⟨[]⟩ ((P.accepted targets).map intent) =
        ⟨(P.accepted targets).map intent⟩ :=
      Ledger.stageAll_of_distinct (hP.distinct_accepted hdistinct)
    rw [if_neg hnone, map_object_accepted hrefused]
    refine ⟨rfl, rfl, ?_⟩
    show LedgerTable.ledger (P.stage w.ledgers p (P.accepted targets)) p = _
    rw [hP.stage_eq, hledger, hstaged, LedgerTable.ledger, SortedMap.get?_insert, if_pos rfl]
    rfl

/-- **What is deferred is committed as it is**: the commit asks of the service what is asked for the
accepted targets, and tells its answer. -/
theorem Intends.commit_deferred (hP : P.Intends service intent) (source : ObjectRef)
    (hempty : (LedgerTable.ledger w.ledgers p).intents = [])
    (hdistinct : (targets.map fun t => (P.object t).key).Nodup)
    (hrefused : P.refused? targets = none) :
    let later := (P.run targets (.deferred p) w).2
    let send := Ledger.send ⟨(P.accepted targets).map intent⟩ service source P.change w.service
    (commit service p source later).1 = .ofAnswer P.change (P.others targets) send.1 ∧
      (commit service p source later).2.service = send.2 ∧
      LedgerTable.calls later.ledgers p source =
        Ledger.callsFor ⟨(P.accepted targets).map intent⟩ source P.change := by
  intro later send
  obtain ⟨-, hservice, hledger⟩ := hP.run_deferred hempty hdistinct hrefused
  have hchange : ∀ i ∈ (P.accepted targets).map intent, i.change = P.change := by
    intro i hi
    obtain ⟨t, -, rfl⟩ := List.mem_map.1 hi
    exact hP.change_eq t
  have hobjects : ((P.accepted targets).map intent).map Intent.object = P.others targets := by
    rw [List.map_map, show Intent.object ∘ intent = P.object from funext hP.object_eq,
      map_object_accepted hrefused]
  have hcommit := commit_of_forall_change service source hledger hchange
  rwa [hservice, hobjects] at hcommit

/-- A change that is not refused is told alike, whatever the service answers. -/
theorem DeferredAgrees.of_answer {later : Except MappingError MapOutcome × Workspace σ}
    {committed : CommitReport × Workspace σ} {answer : ServiceAnswer}
    (hcalls : calls = [] ∧ answer = .ok () ∨ calls = [P.call source (P.accepted targets)])
    (hservice : committed.2.service = now.2.service)
    (hnow : now.1 = applied (P.others targets) (P.external targets) answer)
    (hlater : later.1 = .ok { staged := P.others targets, external := P.external targets })
    (hreport : committed.1 = .ofAnswer P.change (P.others targets) answer) :
    P.DeferredAgrees targets source now later committed calls where
  calls_cases := hcalls.imp_left And.left
  service_eq := hservice
  refused_iff e := by
    rw [hlater, hnow]
    refine ⟨nofun, ?_⟩
    rintro ⟨he, hnone⟩
    obtain ⟨-, hanswer⟩ | hcalls := hcalls
    · rw [hanswer] at he
      cases he
    · rw [hcalls] at hnone
      cases hnone
  report_of_refused e he := by
    rw [hlater] at he
    cases he
  report_of_ok o ho := by
    rw [hnow] at ho
    cases answer with
    | ok _ =>
      cases ho
      exact ⟨hlater, hreport⟩
    | error e => cases ho
  report_of_error e he _ := by
    rw [hnow] at he
    cases answer with
    | ok _ => cases he
    | error e =>
      cases he
      exact ⟨hlater, hreport⟩

/-- A refusal is told alike. -/
theorem DeferredAgrees.of_refused {committed : CommitReport × Workspace σ} {e : MappingError}
    (hservice : committed.2.service = now.2.service) (hnow : now.1 = .error e)
    (hreport : committed.1 = {}) : P.DeferredAgrees targets source now now committed [] where
  calls_cases := .inl rfl
  service_eq := hservice
  refused_iff _ := ⟨fun he => ⟨he, rfl⟩, And.left⟩
  report_of_refused _ _ := hreport
  report_of_ok o ho := by
    rw [hnow] at ho
    cases ho
  report_of_error _ _ hsome := absurd rfl hsome

/-- A change that is not refused and has something to do agrees with the deferred one, whatever the
service answers. -/
theorem Intends.deferredAgrees_of_ask (hP : P.Intends service intent) (source : ObjectRef)
    (hempty : (LedgerTable.ledger w.ledgers p).intents = [])
    (hdistinct : (targets.map fun t => (P.object t).key).Nodup)
    (hrefused : P.refused? targets = none) (hsome : P.accepted targets ≠ []) :
    let asked := P.ask source (P.accepted targets) w.service
    let calls := [P.call source (P.accepted targets)]
    LedgerTable.calls (P.run targets (.deferred p) w).2.ledgers p source = calls ∧
      P.DeferredAgrees targets source
        (applied (P.others targets) (P.external targets) asked.1, { w with service := asked.2 })
        (P.run targets (.deferred p) w)
        (commit service p source (P.run targets (.deferred p) w).2) calls := by
  intro asked calls
  obtain ⟨hlater, -, -⟩ := hP.run_deferred hempty hdistinct hrefused
  obtain ⟨hreport, hservice, hcalls⟩ := hP.commit_deferred source hempty hdistinct hrefused
  rw [hP.send_eq _ _ _ hsome] at hreport hservice
  rw [hP.calls_eq _ _ hsome] at hcalls
  exact ⟨hcalls, .of_answer (.inr rfl) hservice rfl hlater hreport⟩

/-- **However a procedure goes at once, the deferred way agrees with it**, and the commit sends the
same calls. -/
theorem Goes.deferredAgrees (h : P.Goes targets .immediate w now calls)
    (hP : P.Intends service intent) (hparent : P.parent.ref? = some source)
    (hempty : (LedgerTable.ledger w.ledgers p).intents = [])
    (hdistinct : (targets.map fun t => (P.object t).key).Nodup) :
    LedgerTable.calls (P.run targets (.deferred p) w).2.ledgers p source = calls ∧
      P.DeferredAgrees targets source now (P.run targets (.deferred p) w)
        (commit service p source (P.run targets (.deferred p) w).2) calls := by
  cases h with
  | refused hrefused =>
    have hledger : LedgerTable.ledger w.ledgers p = ⟨[]⟩ := by
      rw [← hempty]
    have hchange : ∀ i ∈ ([] : List Intent), i.change = P.change := fun i hi =>
      absurd hi List.not_mem_nil
    obtain ⟨hreport, hservice, hcalls⟩ := commit_of_forall_change service source hledger hchange
    rw [run_of_refused hrefused]
    exact ⟨hcalls, .of_refused hservice rfl (hreport.trans (CommitReport.ofAnswer_nil P.change))⟩
  | idle hrefused hnone =>
    obtain ⟨hlater, -, -⟩ := hP.run_deferred hempty hdistinct hrefused
    obtain ⟨hreport, hservice, hcalls⟩ := hP.commit_deferred source hempty hdistinct hrefused
    have hothers : P.others targets = [] := (others_eq_nil_iff hrefused).2 hnone
    rw [hnone] at hreport hservice hcalls
    refine ⟨hcalls, .of_answer (.inl ⟨rfl, rfl⟩) hservice ?_ hlater hreport⟩
    rw [hothers]
    rfl
  | stages hrefused hsome hmode => cases hmode
  | notSaved hrefused hsome hmode hnone =>
    rw [hnone] at hparent
    cases hparent
  | applies hrefused hsome hmode hsource hask =>
    obtain rfl := Option.some.inj (hparent.symm.trans hsource)
    have hagrees := hP.deferredAgrees_of_ask source hempty hdistinct hrefused hsome
    rwa [hask] at hagrees
  | fails hrefused hsome hmode hsource hask =>
    obtain rfl := Option.some.inj (hparent.symm.trans hsource)
    have hagrees := hP.deferredAgrees_of_ask source hempty hdistinct hrefused hsome
    rwa [hask] at hagrees

/-- A deferred change sends nothing. -/
theorem Goes.calls_of_deferred {r : Except MappingError MapOutcome × Workspace σ}
    (h : P.Goes targets (.deferred p) w r calls) : calls = [] := by
  cases h with
  | applies _ _ hmode => cases hmode
  | fails _ _ hmode => cases hmode
  | _ => rfl

/-- **The calls are the same either way.** With a log, the change made at once sends the calls that
the commit of the deferred one sends, and deferring sends none. -/
theorem Intends.exists_calls (hP : P.Intends service intent) (hparent : P.parent.ref? = some source)
    (hempty : (LedgerTable.ledger w.ledgers p).intents = [])
    (hdistinct : (targets.map fun t => (P.object t).key).Nodup) :
    let now := P.run targets .immediate w
    let later := P.run targets (.deferred p) w
    let committed := commit service p source later.2
    ∃ calls,
      (∀ log, P.logging.run targets .immediate (w.withLog log) =
        (now.1, now.2.withLog (log ++ calls))) ∧
      (∀ log, P.logging.run targets (.deferred p) (w.withLog log) =
        (later.1, later.2.withLog log)) ∧
      (∀ log, commit service.logging p source (later.2.withLog log) =
        (committed.1, committed.2.withLog (log ++ calls))) ∧
      P.DeferredAgrees targets source now later committed calls := by
  intro now later committed
  obtain ⟨calls, hnow, hnowLog⟩ := P.exists_goes targets .immediate w
  obtain ⟨none, hlater, hlaterLog⟩ := P.exists_goes targets (.deferred p) w
  obtain rfl := hlater.calls_of_deferred
  obtain ⟨hcalls, hagrees⟩ := hnow.deferredAgrees hP hparent hempty hdistinct
  refine ⟨calls, hnowLog, fun log => ?_, fun log => ?_, hagrees⟩
  · have hlog := hlaterLog log
    rwa [List.append_nil] at hlog
  · rw [← hcalls]
    exact commit_logging service p source later.2 log

end Procedure

/-- **What is deferred and committed is what is done at once.** For a saved parent and a ledger in
which nothing is staged, and for targets that are distinct objects, the service receives the same
calls from a call made at once as from the commit after it has been deferred, whatever it has
received before; deferring it sends none; and what both answer, report and leave agrees as
`Procedure.DeferredAgrees` says. -/
theorem deferred_eq_immediate (b : Broker) (service : MappingService σ) (source : ObjectRef)
    (p : LedgerParent) (w : Workspace σ)
    (hempty : (LedgerTable.ledger w.ledgers p).intents = []) :
    (∀ targets : List MappingTarget, (targets.map fun t => t.object.key).Nodup →
      let now := b.map service (.object source) targets .immediate w
      let later := b.map service (.object source) targets (.deferred p) w
      let committed := commit service p source later.2
      ∃ calls,
        (∀ log, b.map service.logging (.object source) targets .immediate (w.withLog log) =
          (now.1, now.2.withLog (log ++ calls))) ∧
        (∀ log, b.map service.logging (.object source) targets (.deferred p) (w.withLog log) =
          (later.1, later.2.withLog log)) ∧
        (∀ log, commit service.logging p source (later.2.withLog log) =
          (committed.1, committed.2.withLog (log ++ calls))) ∧
        (b.mapping service (.object source)).DeferredAgrees targets source now later committed
          calls) ∧
    ∀ targets : List ObjectRef, (targets.map ObjectRef.key).Nodup →
      let now := b.unmap service (.object source) targets .immediate w
      let later := b.unmap service (.object source) targets (.deferred p) w
      let committed := commit service p source later.2
      ∃ calls,
        (∀ log, b.unmap service.logging (.object source) targets .immediate (w.withLog log) =
          (now.1, now.2.withLog (log ++ calls))) ∧
        (∀ log, b.unmap service.logging (.object source) targets (.deferred p) (w.withLog log) =
          (later.1, later.2.withLog log)) ∧
        (∀ log, commit service.logging p source (later.2.withLog log) =
          (committed.1, committed.2.withLog (log ++ calls))) ∧
        (b.unmapping service (.object source)).DeferredAgrees targets source now later committed
          calls := by
  refine ⟨fun targets hdistinct => ?_, fun targets hdistinct => ?_⟩
  · simp only [map_eq_run]
    exact (b.intends_mapping service (.object source)).exists_calls rfl hempty hdistinct
  · simp only [unmap_eq_run]
    exact (b.intends_unmapping service (.object source)).exists_calls rfl hempty hdistinct

/-- Of two targets the first is external and the second is mapped by one call either way. -/
theorem deferred_eq_immediate_beside_external :
    ∃ (b : Broker) (source : ObjectRef) (p : LedgerParent) (w : Workspace RelationStore)
      (external target : MappingTarget),
      (LedgerTable.ledger w.ledgers p).intents = [] ∧
      ([external, target].map fun t => t.object.key).Nodup ∧
      (b.map RelationStore.service (.object source) [external, target] .immediate w).1 =
        .ok { applied := [target.object], external := [external.object] } ∧
      (b.mapping RelationStore.service (.object source)).DeferredAgrees [external, target] source
        (b.map RelationStore.service (.object source) [external, target] .immediate w)
        (b.map RelationStore.service (.object source) [external, target] (.deferred p) w)
        (commit RelationStore.service p source
          (b.map RelationStore.service (.object source) [external, target] (.deferred p) w).2)
        [.map source [target]] := by
  let sets : FieldSets := { map := .ofList [⟨"Control"⟩], externalMap := .ofList [⟨"Threat"⟩] }
  let book : RuleBook := ⟨.ofList [(⟨"Risk"⟩, ⟨sets, none⟩)], {}, []⟩
  let b : Broker := ⟨⟨⟨[], List.nodup_nil⟩, ⟨book, Permissions.all⟩, none, .snapshot⟩, {}⟩
  let source : ObjectRef := .plain 1 ⟨"Risk"⟩
  let external : MappingTarget := ⟨.plain 2 ⟨"Threat"⟩, none⟩
  let target : MappingTarget := ⟨.plain 3 ⟨"Control"⟩, none⟩
  let w : Workspace RelationStore := { service := {} }
  have hdistinct : ([external, target].map fun t => t.object.key).Nodup := by decide
  obtain ⟨calls, hnow, -, -, hagrees⟩ :=
    (deferred_eq_immediate b RelationStore.service source (.draft "d") w rfl).1
      [external, target] hdistinct
  have hcalls : calls = [.map source [target]] := by
    have hlog := congrArg (fun r => r.2.service.2) (hnow [])
    exact hlog.symm.trans (by rfl)
  rw [hcalls] at hagrees
  exact ⟨b, source, .draft "d", w, external, target, rfl, hdistinct, by rfl, hagrees⟩

end Broker

end ObjectMapping
