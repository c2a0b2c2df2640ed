import ObjectMapping.Proofs.Ledger.Reach

/-! # Looking a ledger up again

A staging call that has waited for a ledger looks whether the table still leads there, and if not it
begins again. The steps of a run (`LedgerStore.steps`) show how often a call does so
(`StoreStep.Repeats`), and how often a commit or a discard takes the ledger out of the table for which
a call waits (`StoreStep.Withdraws`). Between the two stands `LedgerStore.Deprived`: a staging call
waits for a ledger to which the table does not lead any more. It becomes so by a withdrawal alone, and
it ceases to be so when it looks its ledger up again.

* **`Happens.awaits_or`** — a call is deprived of its ledger by a commit or a discard alone.
* **`Reachable.withdraws_of_repeats`** — what has happened when a call looks its ledger up again.
* **`Reachable.countP_repeats_le`** — how often this is at most. -/

namespace ObjectMapping

/-- Whether a call commits can be decided. -/
instance : DecidablePred LedgerCall.Commits
  | .commit _ _ => isTrue trivial
  | .opening _ | .stage _ _ _ | .stageTargets _ _ | .snapshot _ | .discard _ => isFalse id

/-- Whether a call discards can be decided. -/
instance : DecidablePred LedgerCall.Discards
  | .discard _ => isTrue trivial
  | .opening _ | .stage _ _ _ | .stageTargets _ _ | .snapshot _ | .commit _ _ => isFalse id

namespace Phase

/-- Whether a call looks for its ledger in the table. -/
def isLookUp : Phase → Bool
  | .lookUp => true
  | _ => false

/-- The ledger that a call has found, and for which it waits or which it has to check. -/
def awaits? : Phase → Option LedgerId
  | .enters id | .rechecks id => some id
  | _ => none

end Phase

/-- One **step** of shared ledgers. -/
structure StoreStep where
  /-- The store before. -/
  before : LedgerStore
  /-- What happens. -/
  event : StoreEvent
  /-- The store after. -/
  after : LedgerStore

namespace LedgerStore

variable {s t : LedgerStore} {c : CallId} {k k' : CallState} {call : LedgerCall} {p p' : Phase}
  {e : StoreEvent} {events : List StoreEvent} {id : LedgerId} {key : LedgerKey}

/-- The **steps** from a store, as far as one event after the other can happen. -/
def steps : LedgerStore → List StoreEvent → List StoreStep
  | _, [] => []
  | s, e :: events =>
    match s.next? e with
    | some t => ⟨s, e, t⟩ :: steps t events
    | none => []

/-- A staging call **awaits** a ledger that it has found. -/
def Awaits (s : LedgerStore) (c : CallId) (id : LedgerId) : Prop :=
  ∃ k, s.calls[c]? = some k ∧ k.call.Stages ∧ k.phase.awaits? = some id

/-- A staging call is **deprived** of the ledger that it awaits: the table does not lead there. -/
def Deprived (s : LedgerStore) (c : CallId) : Prop :=
  ∃ k id, s.calls[c]? = some k ∧ k.call.Stages ∧ k.phase.awaits? = some id ∧
    s.table.get? k.call.key ≠ some id

end LedgerStore

namespace StoreStep

/-- A call **finds** a ledger: it has looked it up or opened it, and goes on to wait for it. -/
def Finds (x : StoreStep) (c : CallId) (id : LedgerId) : Prop :=
  x.event = .advance c ∧ ∃ k, x.before.calls[c]? = some k ∧
    (k.phase = .lookUp ∨ k.phase = .opens) ∧ x.after.table.get? k.call.key = some id ∧
    x.after.calls[c]? = some ⟨k.call, .enters id, false⟩

/-- A call **repeats** its look-up: it comes back to it from another phase. -/
def Repeats (x : StoreStep) (c : CallId) : Prop :=
  ∃ k ∈ x.before.calls[c]?, k.phase.isLookUp = false ∧
    ∃ k' ∈ x.after.calls[c]?, k'.phase.isLookUp = true

/-- A commit or a discard **withdraws** from a call the ledger that it has found: it takes it out of the
table. -/
def Withdraws (x : StoreStep) (c : CallId) : Prop :=
  (∃ k ∈ x.before.calls[c]?, ∃ id ∈ k.phase.awaits?,
    x.before.table.get? k.call.key = some id ∧ x.after.table.get? k.call.key ≠ some id) ∧
  ∃ d ∈ x.event.call?, ∃ k ∈ x.before.calls[d]?, k.call.Commits ∨ k.call.Discards

instance (x : StoreStep) (c : CallId) : Decidable (x.Repeats c) :=
  inferInstanceAs (Decidable (∃ k ∈ x.before.calls[c]?, k.phase.isLookUp = false ∧
    ∃ k' ∈ x.after.calls[c]?, k'.phase.isLookUp = true))

instance (x : StoreStep) (c : CallId) : Decidable (x.Withdraws c) :=
  inferInstanceAs (Decidable ((∃ k ∈ x.before.calls[c]?, ∃ id ∈ k.phase.awaits?,
    x.before.table.get? k.call.key = some id ∧ x.after.table.get? k.call.key ≠ some id) ∧
    ∃ d ∈ x.event.call?, ∃ k ∈ x.before.calls[d]?, k.call.Commits ∨ k.call.Discards))

end StoreStep

namespace LedgerStore

variable {s t : LedgerStore} {c : CallId} {k k' : CallState} {call : LedgerCall} {p p' : Phase}
  {e : StoreEvent} {events : List StoreEvent} {id : LedgerId} {key : LedgerKey}

/-! ### What one step does -/

/-- A call awaits a ledger that it has just found, or that it awaited before and to which the table
leads as it did. -/
theorem Advance.awaits?_or (h : Advance s c call p p' t) (hcall : call.Stages)
    (hp : p.Suits call) (hid : p'.awaits? = some id) :
    ((p = .lookUp ∨ p = .opens) ∧ p' = .enters id ∧ t.table.get? call.key = some id) ∨
      p.awaits? = some id ∧ t.table = s.table := by
  have found_eq : ∀ id, found call id = .enters id := by
    intro id
    cases call <;> first | rfl | exact hcall.elim
  cases h with
  | finds h =>
    rw [found_eq] at hid ⊢
    cases hid
    exact .inl ⟨.inl rfl, rfl, by simpa using h⟩
  | findsOpened h =>
    rw [found_eq] at hid ⊢
    cases hid
    exact .inl ⟨.inr rfl, rfl, by simpa using h⟩
  | opens h =>
    rw [found_eq] at hid ⊢
    cases hid
    exact .inl ⟨.inr rfl, rfl, by simp [withNew]⟩
  | takesOut h =>
    -- a staging call takes no ledger out
    cases call <;> first | exact hcall.elim | exact hp.elim
  | enters _ => exact .inr ⟨hid, table_moveTo⟩
  | _ => cases hid

/-- A call comes back to its look-up from a ledger to which the table does not lead any more. -/
theorem Advance.of_lookUp (h : Advance s c call p .lookUp t) :
    ∃ id, p = .rechecks id ∧ s.table.get? call.key ≠ some id := by
  generalize hp : Phase.lookUp = p' at h
  cases h with
  | retries h => exact ⟨_, rfl, h⟩
  | finds _ | findsOpened _ | opens _ => cases call <;> cases hp
  | _ => cases hp

/-- **An entry is taken out of the table** by a commit or a discard that goes on. -/
theorem Happens.exists_unlister (h : Happens s e t) (hs : s.Sound)
    (hkey : s.table.get? key = some id) (hgone : t.table.get? key ≠ some id) :
    ∃ d k, e.call? = some d ∧ s.calls[d]? = some k ∧ (k.call.Commits ∨ k.call.Discards) := by
  cases h with
  | starts call => exact absurd hkey hgone
  | grants hk hwants hwaits hu => exact absurd ((grants_of_grant? hu).table ▸ hkey) hgone
  | answers hk hp => exact absurd hkey (table_moveTo ▸ hgone)
  | @advances d k p' _ hk hready h =>
    have hsuits := (hs.calls d k hk).suits
    refine ⟨d, k, rfl, hk, ?_⟩
    obtain ⟨ht, -⟩ | ⟨-, hnone, ht, -⟩ | ⟨j, -, -, -, ⟨hp, -⟩ | ⟨report, hp⟩⟩ := h.table_eq_or
    · exact absurd (ht ▸ hkey) hgone
    · -- opening a ledger takes no entry out
      rw [ht, SortedMap.get?_insert] at hgone
      split at hgone
      · next hk => rw [hk, hnone] at hkey; cases hkey
      · exact absurd hkey hgone
    · rw [hp] at hsuits
      exact .inr hsuits
    · rw [hp] at hsuits
      exact .inl hsuits

/-- A call that is deprived of its ledger awaits it. -/
theorem Deprived.exists_awaits (hc : Deprived s c) : ∃ id, Awaits s c id := by
  obtain ⟨k, id, hk, hcall, hid, -⟩ := hc
  exact ⟨id, k, hk, hcall, hid⟩

/-- A call is not deprived of a ledger to which the table leads. -/
theorem not_deprived_of_get? (hk : s.calls[c]? = some k) (hid : k.phase.awaits? = some id)
    (hkey : s.table.get? k.call.key = some id) : ¬ Deprived s c := by
  rintro ⟨k', id', hk', -, hid', hgone⟩
  cases hk.symm.trans hk'
  cases hid.symm.trans hid'
  exact hgone hkey

/-- What deprives a call that has not gone on is a withdrawal. -/
theorem Happens.withdraws_or (h : Happens s e t) (hs : s.Sound) (hk : s.calls[c]? = some k)
    (hcall : k.call.Stages) (hid : k.phase.awaits? = some id)
    (hgone : t.table.get? k.call.key ≠ some id) :
    Deprived s c ∨ StoreStep.Withdraws ⟨s, e, t⟩ c := by
  by_cases hkey : s.table.get? k.call.key = some id
  · obtain ⟨d, kd, he, hkd, hunlists⟩ := h.exists_unlister hs hkey hgone
    exact .inr ⟨⟨k, hk, id, hid, hkey, hgone⟩, d, he, kd, hkd, hunlists⟩
  · exact .inl ⟨k, id, hk, hcall, hid, hkey⟩

/-- **A call awaits a ledger** that it has just found, or that it awaited before. In the first case
the table leads there, and in the second it has been led elsewhere by a withdrawal alone. -/
theorem Happens.awaits_or (h : Happens s e t) (hs : s.Sound) (hc : Awaits t c id) :
    (StoreStep.Finds ⟨s, e, t⟩ c id ∧ ¬ Deprived t c) ∨
      Awaits s c id ∧ (Deprived t c → Deprived s c ∨ StoreStep.Withdraws ⟨s, e, t⟩ c) := by
  obtain ⟨k', hk', hcall, hid⟩ := hc
  -- a call that awaited the ledger before is deprived of it by a withdrawal alone
  have awaited : ∀ k, s.calls[c]? = some k → k.call = k'.call → k.phase.awaits? = some id →
      Awaits s c id ∧ (Deprived t c → Deprived s c ∨ StoreStep.Withdraws ⟨s, e, t⟩ c) := by
    intro k hk heq hidk
    refine ⟨⟨k, hk, heq ▸ hcall, hidk⟩, ?_⟩
    rintro ⟨k'', id', hk'', -, hid', hgone⟩
    cases hk'.symm.trans hk''
    cases hid.symm.trans hid'
    exact h.withdraws_or hs hk (heq ▸ hcall) hidk (heq ▸ hgone)
  obtain ⟨-, hk⟩ | ⟨call, -, rfl⟩ | he := h.call_or hk'
  · exact .inr (awaited k' hk rfl hid)
  · -- a call that begins has found nothing yet
    cases call <;> cases hid
  · cases h with
    | starts call => cases he
    | @grants c' k lock u hk hwants hwaits hu =>
      cases he
      rw [(grants_of_grant? hu).calls, getElem?_modify_self hk] at hk'
      cases hk'
      exact .inr (awaited k hk rfl hid)
    | @advances c' k p' t hk hready h =>
      cases he
      rw [h.calls_eq, getElem?_modify_self hk] at hk'
      cases hk'
      obtain ⟨hp, rfl, hkey⟩ | ⟨hidk, -⟩ := h.awaits?_or hcall (hs.calls c k hk).suits hid
      · have hk' : t.calls[c]? = some ⟨k.call, .enters id, false⟩ := by
          rw [h.calls_eq, getElem?_modify_self hk]
        exact .inl ⟨⟨rfl, k, hk, hp, hkey, hk'⟩, not_deprived_of_get? hk' rfl hkey⟩
      · exact .inr (awaited k hk rfl hidk)
    | @answers c' k p' change answer hk hp =>
      cases he
      rw [calls_moveTo, getElem?_modify_self hk] at hk'
      cases hk'
      obtain ⟨id', m, u, -, ⟨-, -, rfl⟩ | ⟨-, -, rfl⟩⟩ := answered?_eq_some_iff.1 hp <;> cases hid

/-- **A call that looks its ledger up again has been deprived of it**, and is so no longer. -/
theorem Happens.deprived_of_repeats (h : Happens s e t) (hs : s.Sound)
    (hc : StoreStep.Repeats ⟨s, e, t⟩ c) : Deprived s c ∧ ¬ Deprived t c := by
  obtain ⟨k, hk, hlook, k', hk', hlook'⟩ := hc
  have hnot : ¬ Deprived t c := by
    rintro ⟨k'', id, hk'', -, hid, -⟩
    cases hk'.symm.trans hk''
    cases hp : k'.phase with
    | lookUp => rw [hp] at hid; cases hid
    | _ => rw [hp] at hlook'; cases hlook'
  refine ⟨?_, hnot⟩
  have ne_of_phase_eq : k'.phase ≠ k.phase := fun heq => by
    rw [heq, hlook] at hlook'
    cases hlook'
  obtain ⟨-, hk''⟩ | ⟨call, rfl, -⟩ | he := h.call_or hk'
  · cases hk.symm.trans hk''
    exact absurd rfl ne_of_phase_eq
  · cases h
    rw [List.getElem?_append_left (List.getElem?_eq_some_iff.1 hk).1] at hk'
    cases hk.symm.trans hk'
    exact absurd rfl ne_of_phase_eq
  · cases h with
    | starts call => cases he
    | grants hk'' hwants hwaits hu =>
      cases he
      rw [(grants_of_grant? hu).calls, getElem?_modify_self hk] at hk'
      cases hk'
      exact absurd rfl ne_of_phase_eq
    | @advances c' k'' p' t hk'' hready h =>
      cases he
      cases hk.symm.trans hk''
      rw [h.calls_eq, getElem?_modify_self hk] at hk'
      cases hk'
      obtain rfl : p' = .lookUp := by
        cases p' <;> first | rfl | cases hlook'
      obtain ⟨id, hp, hgone⟩ := h.of_lookUp
      have hsuits := (hs.calls c k hk).suits
      rw [hp] at hsuits
      exact ⟨k, id, hk, hsuits, by rw [hp]; rfl, hgone⟩
    | @answers c' k'' p' change answer hk'' hp =>
      cases he
      rw [calls_moveTo, getElem?_modify_self hk] at hk'
      cases hk'
      obtain ⟨id', m, u, -, ⟨-, -, rfl⟩ | ⟨-, -, rfl⟩⟩ := answered?_eq_some_iff.1 hp <;>
        cases hlook'

/-! ### What a run does -/

/-- The steps from a store begin with one, if there are any, and go on from where it leads. -/
theorem steps_eq_cons {x : StoreStep} {xs : List StoreStep} (h : steps s events = x :: xs) :
    ∃ e t rest, x = ⟨s, e, t⟩ ∧ s.next? e = some t ∧ xs = steps t rest := by
  cases events with
  | nil => cases h
  | cons e rest =>
    unfold steps at h
    split at h
    · next t ht =>
      cases h
      exact ⟨e, t, rest, rfl, ht, rfl⟩
    · cases h

/-- **What has happened when a call looks its ledger up again.** It has found the ledger in an earlier
step and awaited it ever since, or it awaited it from the first; and a commit or a discard has
withdrawn it meanwhile, or the call was deprived of it from the first. -/
theorem Reachable.withdraws_of_repeats {before after : List StoreStep} {x : StoreStep}
    (hs : Reachable s) (hsteps : steps s events = before ++ x :: after) (hx : x.Repeats c) :
    (∃ id earlier look waiting, before = earlier ++ look :: waiting ∧ look.Finds c id ∧
      (∀ y ∈ waiting ++ [x], y.before.Awaits c id) ∧ ∃ y ∈ waiting, y.Withdraws c) ∨
    ∃ id, Awaits s c id ∧ (∀ y ∈ before ++ [x], y.before.Awaits c id) ∧
      (Deprived s c ∨ ∃ y ∈ before, y.Withdraws c) := by
  induction before generalizing s events with
  | nil =>
    obtain ⟨e, t, rest, rfl, ht, -⟩ := steps_eq_cons hsteps
    obtain ⟨hdeprived, -⟩ := (next?_eq_some_iff.1 ht).deprived_of_repeats hs.sound hx
    obtain ⟨id, hid⟩ := hdeprived.exists_awaits
    refine .inr ⟨id, hid, fun y hy => ?_, .inl hdeprived⟩
    cases List.mem_singleton.1 hy
    exact hid
  | cons first before ih =>
    obtain ⟨e, t, rest, rfl, ht, hrest⟩ := steps_eq_cons hsteps
    have hstep := next?_eq_some_iff.1 ht
    obtain ⟨id, earlier, look, waiting, rfl, h⟩ | ⟨id, hid, hwaiting, hgone⟩ :=
      ih (hs.step ⟨e, ht⟩) hrest.symm
    · exact .inl ⟨id, _ :: earlier, look, waiting, rfl, h⟩
    · obtain ⟨hfinds, hnot⟩ | ⟨hid', hloses⟩ := hstep.awaits_or hs.sound hid
      · -- the call has found the ledger in this step
        exact .inl ⟨id, [], _, before, rfl, hfinds, hwaiting, hgone.resolve_left hnot⟩
      · refine .inr ⟨id, hid', fun y hy => ?_, ?_⟩
        · obtain rfl | hy := List.mem_cons.1 hy
          · exact hid'
          · exact hwaiting y hy
        · obtain hgone | ⟨y, hy, hwithdraws⟩ := hgone
          · obtain hdeprived | hwithdraws := hloses hgone
            · exact .inl hdeprived
            · exact .inr ⟨_, List.mem_cons_self, hwithdraws⟩
          · exact .inr ⟨y, List.mem_cons_of_mem _ hy, hwithdraws⟩

/-- **A call looks its ledger up again no more often than a ledger is withdrawn from it**, or once more
if it was deprived of its ledger from the first. -/
theorem Reachable.countP_repeats_le (hs : Reachable s) (events : List StoreEvent) (c : CallId) :
    (¬ Deprived s c → (steps s events).countP (fun x => x.Repeats c) ≤
      (steps s events).countP fun x => x.Withdraws c) ∧
    (steps s events).countP (fun x => x.Repeats c) ≤
      (steps s events).countP (fun x => x.Withdraws c) + 1 := by
  induction events generalizing s with
  | nil => exact ⟨fun _ => Nat.le_refl _, Nat.zero_le _⟩
  | cons e rest ih =>
    unfold steps
    cases ht : s.next? e with
    | none => exact ⟨fun _ => Nat.le_refl _, Nat.zero_le _⟩
    | some t =>
      have hstep := next?_eq_some_iff.1 ht
      obtain ⟨ihnot, ih⟩ := ih (hs.step ⟨e, ht⟩)
      simp only [List.countP_cons, decide_eq_true_eq]
      by_cases hrepeats : StoreStep.Repeats ⟨s, e, t⟩ c
      · obtain ⟨hdeprived, hnot⟩ := hstep.deprived_of_repeats hs.sound hrepeats
        have hle := ihnot hnot
        refine ⟨fun h => absurd hdeprived h, ?_⟩
        rw [if_pos hrepeats]
        omega
      · rw [if_neg hrepeats]
        refine ⟨fun hnotBefore => ?_, by omega⟩
        by_cases hdeprived : Deprived t c
        · -- the step has deprived the call of its ledger
          obtain ⟨id, hid⟩ := hdeprived.exists_awaits
          obtain ⟨-, hnot⟩ | ⟨-, hloses⟩ := hstep.awaits_or hs.sound hid
          · exact absurd hdeprived hnot
          · rw [if_pos ((hloses hdeprived).resolve_left hnotBefore)]
            exact ih
        · have hle := ihnot hdeprived
          omega

end LedgerStore

end ObjectMapping
