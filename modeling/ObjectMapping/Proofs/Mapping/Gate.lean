import Mathlib.Data.List.Induction
import ObjectMapping.Proofs.Mapping.Commits

/-! # The gate to the mapping service

An object may be mapped to a parent, or unmapped from it, if the rules and permissions allow it and
no other system does so (`Broker.Admits`). A broker asks this when it is called with the object, but
the mapping service may receive the object much later: what is deferred waits in a ledger, where it
may be cancelled, staged again with another direction, committed in vain and committed again. No way
leads around the gate: whatever a broker is called with, each object that the service receives has
been admitted.

A run of a broker is a list of calls (`BrokerCall`), with all answers of the service, and what has
to be carried along is where the intents in the ledgers come from (`Broker.Backed`).

* **`Broker.perform_step`** — every call keeps the intents backed, and sends only what is warranted.
* **`Broker.gate_not_bypassed`** — what the service receives in a run is warranted, so a forbidden
  object never reaches it to be mapped, nor does one that was offered for snapshots only. -/

namespace ObjectMapping

variable {σ α : Type}

/-! ### What intents are for -/

/-- What an intent is **for**: its object and its change, without the direction. -/
def Intent.aim (i : Intent) : ObjectRef × Change := (i.object, i.change)

namespace Ledger

/-- A direction does not alter what intents are for. -/
theorem map_aim_redirect (key : ObjectKey) (change : Change) (direction : Option Direction)
    (intents : List Intent) :
    (redirect key change direction intents).map Intent.aim = intents.map Intent.aim := by
  induction intents with
  | nil => rfl
  | cons i rest ih =>
    rw [redirect]
    by_cases h : i.isFor key change = true
    · rw [if_pos h]
      rfl
    · rw [if_neg h, List.map_cons, List.map_cons, ih]

/-- Staging an intent adds nothing else to what the intents are for. -/
theorem aims_stageOne (l : Ledger) (i : Intent) :
    (l.stageOne i.object i.change i.direction).intents.map Intent.aim ⊆
      l.intents.map Intent.aim ++ [i.aim] := by
  rw [stageOne]
  by_cases hopposite : l.isPending i.object.key i.change.opposite = true
  · rw [if_pos hopposite]
    exact List.subset_append_of_subset_left _ (List.eraseP_sublist.map _).subset
  · rw [if_neg hopposite]
    by_cases hsame : l.isPending i.object.key i.change = true
    · rw [if_pos hsame]
      show (redirect _ _ _ l.intents).map Intent.aim ⊆ _
      rw [map_aim_redirect]
      exact List.subset_append_left _ _
    · rw [if_neg hsame, List.map_append]
      exact List.Subset.refl _

/-- Staging intents adds nothing else to what the intents are for. -/
theorem aims_stageAll (l : Ledger) (intents : List Intent) :
    (l.stageAll intents).intents.map Intent.aim ⊆
      l.intents.map Intent.aim ++ intents.map Intent.aim := by
  induction intents generalizing l with
  | nil => exact List.subset_append_left _ _
  | cons i rest ih =>
    refine List.Subset.trans (ih (l.stageOne i.object i.change i.direction)) ?_
    rw [List.map_cons, ← List.singleton_append, ← List.append_assoc]
    exact List.append_subset.2
      ⟨List.subset_append_of_subset_left _ (l.aims_stageOne i), List.subset_append_right _ _⟩

/-- An answer to a commit leaves some of the intents. -/
theorem intents_after_subset (l : Ledger) (change : Change) (answer : ServiceAnswer) :
    (l.after change answer).intents ⊆ l.intents := by
  cases answer with
  | ok _ => exact List.filter_sublist.subset
  | error _ => exact List.Subset.refl _

/-- A commit leaves some of the intents. -/
theorem intents_commit_subset (l : Ledger) (service : MappingService σ) (parent : ObjectRef)
    (s : σ) : (l.commit service .map parent s).2.1.intents ⊆ l.intents :=
  List.Subset.trans (intents_after_subset _ .unmap _) (l.intents_after_subset .map _)

end Ledger

/-! ### Forbidden pairs -/

namespace Forbidden

/-- A pair is **of two types**, in either order and up to the case of ASCII letters. -/
def IsOf (pair : TypeName × TypeName) (a b : TypeName) : Prop :=
  Text.fold pair.1.text = Text.fold a.text ∧ Text.fold pair.2.text = Text.fold b.text ∨
    Text.fold pair.1.text = Text.fold b.text ∧ Text.fold pair.2.text = Text.fold a.text

/-- Types are forbidden in both directions if one of the pairs is of them. -/
theorem isTwoWay_iff (f : Forbidden) (a b : TypeName) :
    f.isTwoWay a b = true ↔ ∃ pair ∈ f.twoWay, IsOf pair a b := by
  simp [isTwoWay, names, TypeName.eqIgnoringCase, IsOf]

end Forbidden

/-! ### Calls -/

namespace MappingCall

/-- The change that a call asks for. -/
def change : MappingCall → Change
  | .map _ _ => .map
  | .unmap _ _ => .unmap

/-- The source of a call. -/
def source : MappingCall → ObjectRef
  | .map source _ => source
  | .unmap source _ => source

/-- The objects that a call is about. -/
def objects : MappingCall → List ObjectRef
  | .map _ targets => targets.map MappingTarget.object
  | .unmap _ objects => objects

end MappingCall

namespace Ledger

variable {l : Ledger} {parent : ObjectRef} {m : MappingCall}

/-- The call for one kind of change is about the objects of the intents for it. -/
theorem eq_of_mem_callsFor {change : Change} (h : m ∈ l.callsFor parent change) :
    m.source = parent ∧ m.change = change ∧ m.objects = (l.half change).map Intent.object := by
  by_cases hnone : l.half change = []
  · rw [callsFor_of_half_eq_nil hnone] at h
    cases h
  · cases change with
    | map =>
      rw [callsFor_map hnone, List.mem_singleton] at h
      subst h
      exact ⟨rfl, rfl, List.map_map⟩
    | unmap =>
      rw [callsFor_unmap hnone, List.mem_singleton] at h
      subst h
      exact ⟨rfl, rfl, rfl⟩

/-- A call of a commit is about objects of intents for its change. -/
theorem exists_intent_of_mem_calls (h : m ∈ l.calls parent) :
    m.source = parent ∧
      ∀ r ∈ m.objects, ∃ i ∈ l.intents, i.change = m.change ∧ i.object = r := by
  obtain ⟨change, hm⟩ : ∃ change, m ∈ l.callsFor parent change := by
    rcases List.mem_append.1 h with hm | hm
    · exact ⟨.map, hm⟩
    · exact ⟨.unmap, hm⟩
  obtain ⟨hsource, hchange, hobjects⟩ := eq_of_mem_callsFor hm
  refine ⟨hsource, fun r hr => ?_⟩
  rw [hobjects] at hr
  obtain ⟨i, hi, rfl⟩ := List.mem_map.1 hr
  obtain ⟨hi, hfor⟩ := List.mem_filter.1 hi
  exact ⟨i, hi, (of_decide_eq_true hfor).trans hchange.symm, rfl⟩

end Ledger

/-- A **call of a broker**. -/
inductive BrokerCall where
  /-- To map targets to a parent. -/
  | map (parent : Endpoint) (targets : List MappingTarget) (mode : MapMode)
  /-- To unmap objects from a parent. -/
  | unmap (parent : Endpoint) (objects : List ObjectRef) (mode : MapMode)
  /-- To carry out what was staged for a parent, whose saved object is given. -/
  | commit (p : LedgerParent) (saved : ObjectRef)
  /-- To drop what was staged for a parent. -/
  | discard (p : LedgerParent)

/-- The **offers** of a call: the objects that are to be mapped to or unmapped from a parent, and
when. -/
inductive BrokerCall.Offers : BrokerCall → Change → Endpoint → MapMode → ObjectRef → Prop where
  /-- Each target of a mapping is offered to be mapped. -/
  | map {parent : Endpoint} {targets : List MappingTarget} {mode : MapMode} {t : MappingTarget}
      (ht : t ∈ targets) : Offers (.map parent targets mode) .map parent mode t.object
  /-- Each object of an unmapping is offered to be unmapped. -/
  | unmap {parent : Endpoint} {objects : List ObjectRef} {mode : MapMode} {r : ObjectRef}
      (hr : r ∈ objects) : Offers (.unmap parent objects mode) .unmap parent mode r

namespace Broker

/-- A workspace after a call. -/
def perform (b : Broker) (service : MappingService σ) (w : Workspace σ) : BrokerCall → Workspace σ
  | .map parent targets mode => (b.map service parent targets mode w).2
  | .unmap parent objects mode => (b.unmap service parent objects mode w).2
  | .commit p saved => (commit service p saved w).2
  | .discard p => discard p w

/-- A workspace after calls, one after the other, when nothing is staged at first. -/
def performAll (b : Broker) (service : MappingService σ) (s : σ) (calls : List BrokerCall) :
    Workspace σ :=
  calls.foldl (b.perform service) { service := s }

/-- The **log** of a run: the calls that the service receives in it, in order. -/
def log (b : Broker) (service : MappingService σ) (s : σ) (calls : List BrokerCall) :
    List MappingCall :=
  (b.performAll service.logging (s, []) calls).service.2

/-- The **gate**: whether the change of the relationship between a parent and an object is allowed
and left to the broker. -/
def Admits (b : Broker) (change : Change) (parent : Endpoint) (r : ObjectRef) : Prop :=
  match change with
  | .map => b.policy.canMap parent (.object r) (optionsFor parent) = true ∧
      b.policy.isExternallyMapped parent.effectiveType r.effectiveType = false
  | .unmap => b.policy.canUnmap parent (.object r) = true ∧
      b.policy.isExternallyUnmapped parent.effectiveType r.effectiveType = false

/-- A change of an object has been **staged** by one of the calls, for a parent with a key, and was
admitted. -/
def Staged (b : Broker) (calls : List BrokerCall) (key : LedgerKey) (change : Change)
    (r : ObjectRef) : Prop :=
  ∃ call ∈ calls, ∃ parent p, call.Offers change parent (.deferred p) r ∧ p.key = key ∧
    b.Admits change parent r

/-- The intents in the ledgers are **backed** by calls: each of them has been staged by one. -/
def Backed (b : Broker) (calls : List BrokerCall) (ledgers : LedgerTable) : Prop :=
  ∀ key l, ledgers.get? key = some l → ∀ i ∈ l.intents, b.Staged calls key i.change i.object

/-- What the service receives by a call is **warranted**: each object in it is offered and admitted
by the call itself, for the source, or it has been staged by an earlier call under the key that is
now committed for the source. -/
def Warranted (b : Broker) (before : List BrokerCall) (call : BrokerCall) (m : MappingCall) :
    Prop :=
  ∀ r ∈ m.objects,
    (∃ parent, parent.ref? = some m.source ∧ call.Offers m.change parent .immediate r ∧
      b.Admits m.change parent r) ∨
    ∃ p, call = .commit p m.source ∧ b.Staged before p.key m.change r

variable {b : Broker} {before : List BrokerCall} {call : BrokerCall} {key : LedgerKey}
  {change : Change} {r : ObjectRef} {ledgers : LedgerTable}

/-! ### One call -/

/-- What has been staged has been staged also after one more call. -/
theorem Staged.concat (h : b.Staged before key change r) (call : BrokerCall) :
    b.Staged (before ++ [call]) key change r := by
  obtain ⟨earlier, hearlier, hstaged⟩ := h
  exact ⟨earlier, List.mem_append_left _ hearlier, hstaged⟩

/-- Intents that are backed are backed also after one more call. -/
theorem Backed.concat (h : b.Backed before ledgers) (call : BrokerCall) :
    b.Backed (before ++ [call]) ledgers :=
  fun key l hl i hi => (h key l hl i hi).concat call

/-- Without ledgers there are no intents to back. -/
theorem backed_empty : b.Backed before ∅ := nofun

/-- Intents are still backed when one ledger is left with backed intents. -/
theorem Backed.insert (h : b.Backed before ledgers) {l : Ledger}
    (hl : ∀ i ∈ l.intents, b.Staged before key i.change i.object) :
    b.Backed before (ledgers.insert key l) := by
  intro k l' hl'
  rw [SortedMap.get?_insert] at hl'
  by_cases hk : k = key
  · rw [if_pos hk] at hl'
    obtain rfl := Option.some.inj hl'
    rw [hk]
    exact hl
  · rw [if_neg hk] at hl'
    exact h k l' hl'

/-- Intents are still backed when one ledger is closed. -/
theorem Backed.erase (h : b.Backed before ledgers) (key : LedgerKey) :
    b.Backed before (ledgers.erase key) := by
  intro k l hl
  rw [SortedMap.get?_erase] at hl
  by_cases hk : k = key
  · rw [if_pos hk] at hl
    cases hl
  · rw [if_neg hk] at hl
    exact h k l hl

/-- The intents of a parent are backed, also when it has no ledger. -/
theorem Backed.staged_of_mem (h : b.Backed before ledgers) {p : LedgerParent} {i : Intent}
    (hi : i ∈ (LedgerTable.ledger ledgers p).intents) :
    b.Staged before p.key i.change i.object := by
  rw [LedgerTable.ledger] at hi
  cases hl : ledgers.get? p.key with
  | none =>
    rw [hl] at hi
    cases hi
  | some l =>
    rw [hl] at hi
    exact h p.key l hl i hi

namespace Procedure

/-- A procedure **carries** a call for targets: the call offers their objects, what the procedure
accepts is admitted, and what it sends is about the objects of the targets. -/
structure Carries (P : Procedure σ α) (b : Broker) (call : BrokerCall) (targets : List α)
    (mode : MapMode) : Prop where
  offers : ∀ t ∈ targets, call.Offers P.change P.parent mode (P.object t)
  admits : ∀ r, P.isExternal r = false → P.isAllowed r = true → b.Admits P.change P.parent r
  call_change : ∀ source accepted, (P.call source accepted).change = P.change
  call_source : ∀ source accepted, (P.call source accepted).source = source
  call_objects : ∀ source accepted, (P.call source accepted).objects = accepted.map P.object

variable {P : Procedure σ α} {service : MappingService σ} {intent : α → Intent} {targets : List α}
  {mode : MapMode} {w : Workspace σ} {answer : Except MappingError MapOutcome × Workspace σ}
  {sent : List MappingCall}

/-- **Accepted targets have passed the gate.** -/
theorem Carries.of_mem_accepted (hP : P.Carries b call targets mode) {t : α}
    (ht : t ∈ P.accepted targets) :
    call.Offers P.change P.parent mode (P.object t) ∧ b.Admits P.change P.parent (P.object t) := by
  obtain ⟨t, hfilter, rfl⟩ := List.mem_map.1 ht
  obtain ⟨hmem, hpass⟩ := List.mem_filter.1 hfilter
  rw [Bool.and_eq_true, Bool.not_eq_true'] at hpass
  rw [P.object_complete]
  exact ⟨hP.offers t hmem, hP.admits _ hpass.1 hpass.2⟩

/-- What is sent at once is warranted. -/
theorem Carries.warranted (hP : P.Carries b call targets .immediate) {source : ObjectRef}
    (hparent : P.parent.ref? = some source) :
    ∀ m ∈ [P.call source (P.accepted targets)], b.Warranted before call m := by
  intro m hm r hr
  rw [List.mem_singleton.1 hm, hP.call_objects] at hr
  obtain ⟨t, ht, rfl⟩ := List.mem_map.1 hr
  obtain ⟨hoffers, hadmits⟩ := hP.of_mem_accepted ht
  rw [List.mem_singleton.1 hm, hP.call_source, hP.call_change]
  exact .inl ⟨P.parent, hparent, hoffers, hadmits⟩

/-- What is staged is backed. -/
theorem Carries.backed {p : LedgerParent} (hP : P.Carries b call targets (.deferred p))
    (hintends : P.Intends service intent) (h : b.Backed before ledgers) :
    b.Backed (before ++ [call]) (P.stage ledgers p (P.accepted targets)) := by
  rw [hintends.stage_eq]
  refine (h.concat call).insert fun i hi => ?_
  have haim := Ledger.aims_stageAll _ _ (List.mem_map_of_mem hi)
  rcases List.mem_append.1 haim with hold | hnew
  · -- the intent is for what one of the old intents is for
    obtain ⟨j, hj, hji⟩ := List.mem_map.1 hold
    obtain ⟨hobject, hchange⟩ := Prod.mk.inj hji
    rw [← hobject, ← hchange]
    exact (h.concat call).staged_of_mem hj
  · rw [List.map_map] at hnew
    obtain ⟨t, ht, hti⟩ := List.mem_map.1 hnew
    obtain ⟨hobject, hchange⟩ := Prod.mk.inj hti
    obtain ⟨hoffers, hadmits⟩ := hP.of_mem_accepted ht
    rw [← hobject, ← hchange, hintends.object_eq, hintends.change_eq]
    exact ⟨call, List.mem_append_right _ (List.mem_singleton_self _), P.parent, p, hoffers, rfl,
      hadmits⟩

/-- **A call to change relationships keeps the intents backed**, and sends only what is
warranted. -/
theorem Carries.step (hP : P.Carries b call targets mode) (hintends : P.Intends service intent)
    (hgoes : P.Goes targets mode w answer sent) (h : b.Backed before w.ledgers) :
    b.Backed (before ++ [call]) answer.2.ledgers ∧ ∀ m ∈ sent, b.Warranted before call m := by
  have hkept : b.Backed (before ++ [call]) w.ledgers := h.concat call
  cases hgoes with
  | stages hrefused hsome hmode =>
    rw [hmode] at hP
    exact ⟨hP.backed hintends h, nofun⟩
  | applies hrefused hsome hmode hparent =>
    rw [hmode] at hP
    exact ⟨hkept, hP.warranted hparent⟩
  | fails hrefused hsome hmode hparent =>
    rw [hmode] at hP
    exact ⟨hkept, hP.warranted hparent⟩
  | _ => exact ⟨hkept, nofun⟩

end Procedure

/-- Mapping carries the calls to map. -/
theorem carries_mapping (b : Broker) (service : MappingService σ) (parent : Endpoint)
    (targets : List MappingTarget) (mode : MapMode) :
    (b.mapping service parent).Carries b (.map parent targets mode) targets mode where
  offers _ ht := .map ht
  admits _ hexternal hallowed := ⟨hallowed, hexternal⟩
  call_change _ _ := rfl
  call_source _ _ := rfl
  call_objects _ _ := rfl

/-- Unmapping carries the calls to unmap. -/
theorem carries_unmapping (b : Broker) (service : MappingService σ) (parent : Endpoint)
    (objects : List ObjectRef) (mode : MapMode) :
    (b.unmapping service parent).Carries b (.unmap parent objects mode) objects mode where
  offers _ hr := .unmap hr
  admits _ hexternal hallowed := ⟨hallowed, hexternal⟩
  call_change _ _ := rfl
  call_source _ _ := rfl
  call_objects _ accepted := (List.map_id accepted).symm

/-- **A commit keeps the intents backed, and sends only what is warranted.** -/
theorem commit_step (service : MappingService σ) (p : LedgerParent) (saved : ObjectRef)
    (w : Workspace σ) (h : b.Backed before w.ledgers) :
    b.Backed (before ++ [.commit p saved]) (commit service p saved w).2.ledgers ∧
      ∀ m ∈ LedgerTable.calls w.ledgers p saved, b.Warranted before (.commit p saved) m := by
  have hkept : b.Backed (before ++ [.commit p saved]) w.ledgers := h.concat _
  rw [commit, LedgerTable.commit, LedgerTable.calls]
  cases hl : w.ledgers.get? p.key with
  | none => exact ⟨hkept, nofun⟩
  | some l =>
    dsimp only
    refine ⟨?_, fun m hm r hr => ?_⟩
    · -- the ledger is closed or left with some of its intents
      by_cases hempty : (l.commit service .map saved w.service).2.1.isEmpty = true
      · rw [if_pos hempty]
        exact hkept.erase _
      · rw [if_neg hempty]
        exact hkept.insert fun i hi =>
          hkept p.key l hl i (Ledger.intents_commit_subset l service saved w.service hi)
    · obtain ⟨hsource, hintent⟩ := Ledger.exists_intent_of_mem_calls hm
      obtain ⟨i, hi, hchange, rfl⟩ := hintent r hr
      rw [hsource, ← hchange]
      exact .inr ⟨p, rfl, h p.key l hl i hi⟩

/-- **Every call keeps the intents backed, and sends only what is warranted**, whatever the service
has received before. -/
theorem perform_step (b : Broker) (service : MappingService σ) (w : Workspace σ)
    (before : List BrokerCall) (call : BrokerCall) (h : b.Backed before w.ledgers) :
    b.Backed (before ++ [call]) (b.perform service w call).ledgers ∧
      ∃ sent, (∀ m ∈ sent, b.Warranted before call m) ∧
        ∀ log, b.perform service.logging (w.withLog log) call =
          (b.perform service w call).withLog (log ++ sent) := by
  cases call with
  | map parent targets mode =>
    obtain ⟨sent, hgoes, hlog⟩ := (b.mapping service parent).exists_goes targets mode w
    obtain ⟨hbacked, hwarranted⟩ := (b.carries_mapping service parent targets mode).step
      (b.intends_mapping service parent) hgoes h
    simp only [perform, map_eq_run]
    exact ⟨hbacked, sent, hwarranted, fun log => congrArg Prod.snd (hlog log)⟩
  | unmap parent objects mode =>
    obtain ⟨sent, hgoes, hlog⟩ := (b.unmapping service parent).exists_goes objects mode w
    obtain ⟨hbacked, hwarranted⟩ := (b.carries_unmapping service parent objects mode).step
      (b.intends_unmapping service parent) hgoes h
    simp only [perform, unmap_eq_run]
    exact ⟨hbacked, sent, hwarranted, fun log => congrArg Prod.snd (hlog log)⟩
  | commit p saved =>
    obtain ⟨hbacked, hwarranted⟩ := commit_step service p saved w h
    exact ⟨hbacked, _, hwarranted, fun log =>
      congrArg Prod.snd (commit_logging service p saved w log)⟩
  | discard p =>
    refine ⟨(h.concat _).erase _, [], nofun, fun log => ?_⟩
    rw [List.append_nil]
    rfl

/-! ### Runs -/

/-- A run with one more call. -/
theorem performAll_concat (b : Broker) (service : MappingService σ) (s : σ)
    (calls : List BrokerCall) (call : BrokerCall) :
    b.performAll service s (calls ++ [call]) =
      b.perform service (b.performAll service s calls) call := List.foldl_append

/-- **After any run the intents are backed**, and with a log the run is the same. -/
theorem performAll_backed (b : Broker) (service : MappingService σ) (s : σ)
    (calls : List BrokerCall) :
    b.Backed calls (b.performAll service s calls).ledgers ∧
      b.performAll service.logging (s, []) calls =
        (b.performAll service s calls).withLog (b.log service s calls) := by
  induction calls using List.reverseRecOn with
  | nil => exact ⟨backed_empty, rfl⟩
  | append_singleton calls call ih =>
    obtain ⟨hbacked, hrun⟩ := ih
    obtain ⟨hnext, sent, -, hlog⟩ := b.perform_step service _ calls call hbacked
    rw [log, performAll_concat, performAll_concat, hrun, hlog]
    exact ⟨hnext, rfl⟩

/-- **One more call of a run sends only what is warranted.** -/
theorem exists_sent_warranted (b : Broker) (service : MappingService σ) (s : σ)
    (before : List BrokerCall) (call : BrokerCall) :
    ∃ sent, b.log service s (before ++ [call]) = b.log service s before ++ sent ∧
      ∀ m ∈ sent, b.Warranted before call m := by
  obtain ⟨hbacked, hrun⟩ := b.performAll_backed service s before
  obtain ⟨-, sent, hwarranted, hlog⟩ := b.perform_step service _ before call hbacked
  refine ⟨sent, ?_, hwarranted⟩
  rw [log, performAll_concat, hrun, hlog]
  rfl

/-- What the service receives in a run is about objects that a call of the run has offered, for a
parent for which they were admitted. -/
theorem exists_offer_of_mem_log (b : Broker) (service : MappingService σ) (s : σ)
    (calls : List BrokerCall) {m : MappingCall} (hm : m ∈ b.log service s calls) {r : ObjectRef}
    (hr : r ∈ m.objects) :
    ∃ call ∈ calls, ∃ parent mode, call.Offers m.change parent mode r ∧
      b.Admits m.change parent r := by
  induction calls using List.reverseRecOn with
  | nil => cases hm
  | append_singleton before call ih =>
    obtain ⟨sent, hlog, hwarranted⟩ := b.exists_sent_warranted service s before call
    rw [hlog] at hm
    rcases List.mem_append.1 hm with hm | hm
    · obtain ⟨earlier, hearlier, h⟩ := ih hm
      exact ⟨earlier, List.mem_append_left _ hearlier, h⟩
    · obtain ⟨parent, -, hoffers, hadmits⟩ | ⟨p, -, earlier, hearlier, parent, staged, hoffers, -,
        hadmits⟩ := hwarranted m hm r hr
      · exact ⟨call, List.mem_append_right _ (List.mem_singleton_self _), parent, _, hoffers,
          hadmits⟩
      · exact ⟨earlier, List.mem_append_left _ hearlier, parent, _, hoffers, hadmits⟩

/-- What is admitted to be mapped is not forbidden, and the parent is no snapshot. -/
theorem Admits.of_map {parent : Endpoint} (h : b.Admits .map parent r) :
    parent.isSnapshot = false ∧
      b.policy.book.forbidden.isTwoWay parent.effectiveType r.effectiveType = false := by
  obtain ⟨hallowed, -⟩ := h
  simp only [Policy.canMap, Bool.and_eq_true, Bool.not_eq_true'] at hallowed
  obtain ⟨⟨⟨⟨-, htwoWay⟩, hsnapshot⟩, -⟩, -⟩ := hallowed
  exact ⟨hsnapshot, htwoWay⟩

/-- **The gate cannot be bypassed.** Whatever the rules and permissions and the mapping service, and
whatever calls a broker receives when nothing is staged at first: what one more call sends to the
service is warranted, as `Warranted` says. So an object never reaches the service to be mapped if
every call that offered it to be mapped did so for a snapshot or for a parent whose type and its own
are a forbidden pair. -/
theorem gate_not_bypassed (b : Broker) (service : MappingService σ) (s : σ) :
    (∀ before call, ∃ sent, b.log service s (before ++ [call]) = b.log service s before ++ sent ∧
      ∀ m ∈ sent, b.Warranted before call m) ∧
    ∀ calls r,
      (∀ call : BrokerCall, call ∈ calls → ∀ parent mode, call.Offers .map parent mode r →
        parent.isSnapshot = true ∨ ∃ pair ∈ b.policy.book.forbidden.twoWay,
          Forbidden.IsOf pair parent.effectiveType r.effectiveType) →
      ∀ m ∈ b.log service s calls, m.change = .map → r ∉ m.objects := by
  refine ⟨b.exists_sent_warranted service s, fun calls r hbarred m hm hmap hr => ?_⟩
  obtain ⟨call, hcall, parent, mode, hoffers, hadmits⟩ :=
    b.exists_offer_of_mem_log service s calls hm hr
  rw [hmap] at hoffers hadmits
  obtain ⟨hsnapshot, htwoWay⟩ := hadmits.of_map
  rcases hbarred call hcall parent mode hoffers with h | h
  · rw [h] at hsnapshot
    cases hsnapshot
  · rw [← Forbidden.isTwoWay_iff, htwoWay] at h
    cases h

/-- A commit that is made again after a failure sends what a call before it has staged. -/
theorem gate_not_bypassed_by_retry : ∃ (b : Broker) (s : RelationStore) (parent : Endpoint)
    (t : MappingTarget) (p : LedgerParent) (saved : ObjectRef),
    let before : List BrokerCall := [.map parent [t] (.deferred p), .commit p saved]
    b.log RelationStore.service s (before ++ [.commit p saved]) =
        [.map saved [t], .map saved [t]] ∧
      b.Warranted before (.commit p saved) (.map saved [t]) := by
  let sets : FieldSets := { map := .ofList [⟨"Control"⟩] }
  let book : RuleBook := ⟨.ofList [(⟨"Risk"⟩, ⟨sets, none⟩)], {}, []⟩
  let b : Broker := ⟨⟨⟨[], List.nodup_nil⟩, ⟨book, Permissions.all⟩, none, .snapshot⟩, {}⟩
  let s : RelationStore := { mapFailures := ["down"] }
  let t : MappingTarget := ⟨.plain 3 ⟨"Control"⟩, none⟩
  let saved : ObjectRef := .plain 1 ⟨"Risk"⟩
  refine ⟨b, s, .draft ⟨"Risk"⟩, t, .draft "d", saved, ?_⟩
  intro before
  have hbefore : b.log RelationStore.service s before = [.map saved [t]] := by rfl
  have hall : b.log RelationStore.service s (before ++ [.commit (.draft "d") saved]) =
      [.map saved [t], .map saved [t]] := by rfl
  obtain ⟨sent, hlog, hwarranted⟩ :=
    (b.gate_not_bypassed RelationStore.service s).1 before (.commit (.draft "d") saved)
  have hsent : sent = [.map saved [t]] := by
    rw [hall, hbefore] at hlog
    exact (List.cons.inj hlog).2.symm
  rw [hsent] at hwarranted
  exact ⟨hall, hwarranted _ (List.mem_singleton_self _)⟩

end Broker

end ObjectMapping
