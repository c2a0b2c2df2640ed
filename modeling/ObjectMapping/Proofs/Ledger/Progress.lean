import ObjectMapping.Proofs.Ledger.Locks
import ObjectMapping.Proofs.Ledger.Retries

/-! # Shared ledgers never get stuck

Calls wait for locks, and some of them wait while they have one. They never wait in a circle: who has
the lock of the table waits for nothing, so that lock becomes free; and who has a ledger waits for
nothing but the table or the mapping service. A staging call that has waited in vain looks its ledger
up again, but it has waited in vain only when a commit or a discard has taken that ledger out of the
table in the meantime.

* **`Reachable.not_hasTable`** — nobody waits for a ledger while having the lock of the table.
* **`Reachable.goesOn_or_unanswered`** — some call can go on, or the mapping service has not
  answered.
* **`never_stuck`** — all of this together. -/

namespace ObjectMapping

namespace LedgerStore

variable {s : LedgerStore} {c : CallId} {k : CallState} {p : Phase} {id : LedgerId} {lock : Lock}

/-! ### Waiting -/

/-- Whether a call **has the lock of the table**, to read it or to write to it. -/
def HasTable (s : LedgerStore) (c : CallId) : Prop :=
  c ∈ s.tableLock.readers ∨ s.tableLock.writer = some c

/-- Some call **goes on**, or is given the lock that it wants. -/
def GoesOn (s : LedgerStore) : Prop :=
  ∃ c t, s.next? (.advance c) = some t ∨ s.next? (.grant c) = some t

/-- Some commit is **unanswered**: it waits for the mapping service. -/
def Unanswered (s : LedgerStore) : Prop :=
  ∃ (c : CallId) (k : CallState) (id : LedgerId) (m u : Option ServiceAnswer),
    s.calls[c]? = some k ∧ k.phase = .sends id m u ∧ (m = none ∨ u = none)

/-- **Nobody waits for a ledger while having the lock of the table**: who has that lock has been given
it for a phase in which nothing else is wanted. -/
theorem Reachable.not_hasTable (hs : Reachable s) (hk : s.calls[c]? = some k)
    (hwants : k.phase.wants = some (.ledger id)) : ¬ HasTable s c := by
  rintro (hc | hc)
  · obtain ⟨k', hk', hwants', -⟩ := hs.locked.reading c hc
    cases hk.symm.trans hk'
    cases hwants.symm.trans hwants'
  · obtain ⟨k', hk', hwants', -⟩ := hs.locked.writing c hc
    cases hk.symm.trans hk'
    cases hwants.symm.trans hwants'

/-- There is a next phase after every one but the last and those in which an answer is missing. -/
theorem exists_advance?_or (s : LedgerStore) (c : CallId) (call : LedgerCall)
    (hrunning : p.result? = none) :
    (∃ t, s.advance? c call p = some t) ∨
      ∃ (id : LedgerId) (m u : Option ServiceAnswer), p = .sends id m u ∧ (m = none ∨ u = none) := by
  rw [← Option.isSome_iff_exists]
  cases p with
  | lookUp => left; simp only [advance?]; split <;> rfl
  | opens => exact .inl rfl
  | takesOut => left; simp only [advance?]; split <;> rfl
  | enters id =>
    left
    cases call with
    | commit parent saved => simp only [advance?]; split <;> rfl
    | _ => rfl
  | rechecks id => left; simp only [advance?]; split <;> rfl
  | sends id m u =>
    cases m with
    | none => exact .inr ⟨id, none, u, rfl, .inl rfl⟩
    | some m =>
      cases u with
      | none => exact .inr ⟨id, some m, none, rfl, .inr rfl⟩
      | some u => left; simp only [advance?]; split <;> rfl
  | closes id report => exact .inl rfl
  | finished result => cases hrunning

/-- A call that need not wait for a lock goes on, or it waits for the mapping service. -/
theorem goesOn_of_ready (hk : s.calls[c]? = some k) (hready : k.Ready)
    (hrunning : k.phase.result? = none) : GoesOn s ∨ Unanswered s := by
  obtain ⟨t, ht⟩ | ⟨id, m, u, hp, hmissing⟩ := exists_advance?_or s c k.call hrunning
  · obtain ⟨p', h⟩ := advance?_eq_some_iff.1 ht
    exact .inl ⟨c, t, .inl (next?_eq_some_iff.2 (.advances hk hready h))⟩
  · exact .inr ⟨c, k, id, m, u, hk, hp, hmissing⟩

/-- A call that waits for a free lock is given it. -/
theorem goesOn_of_grant (hk : s.calls[c]? = some k) (hwants : k.phase.wants = some lock)
    (hwaits : k.granted = false) (hfree : ∃ u, s.grant? c lock = some u) : GoesOn s := by
  obtain ⟨u, hu⟩ := hfree
  exact ⟨c, _, .inr (next?_eq_some_iff.2 (.grants hk hwants hwaits hu))⟩

/-- A call that has been given a lock goes on. -/
theorem Given.goesOn (hc : Given s c lock) : GoesOn s ∨ Unanswered s := by
  obtain ⟨k, hk, hwants, hgranted⟩ := hc
  refine goesOn_of_ready hk (.inr hgranted) ?_
  cases hp : k.phase <;> first | rfl | (rw [hp] at hwants; cases hwants)

/-- **When a call waits for the table, some call can go on**: one that has the lock of the table, or
else this one, because the lock is free. -/
theorem Locked.goesOn_of_table (hs : Locked s) (hk : s.calls[c]? = some k)
    (hwants : k.phase.wants = some .tableRead ∨ k.phase.wants = some .tableWrite)
    (hwaits : k.granted = false) : GoesOn s ∨ Unanswered s := by
  cases hreaders : s.tableLock.readers with
  | cons d rest => exact (hs.reading d (by rw [hreaders]; exact List.mem_cons_self)).goesOn
  | nil =>
    cases hwriter : s.tableLock.writer with
    | some d => exact (hs.writing d hwriter).goesOn
    | none =>
      left
      obtain hwants | hwants := hwants
      · exact goesOn_of_grant hk hwants hwaits ⟨_, if_pos (by simp [TableLock.isReadable, hwriter])⟩
      · exact goesOn_of_grant hk hwants hwaits
          ⟨_, if_pos (by simp [TableLock.isWritable, hwriter, hreaders])⟩

/-- A call that waits for a lock while it has a ledger waits for the table. -/
theorem Phase.wants_of_holds (h : p.holds = some id) (hwants : p.wants = some lock) :
    p.wants = some .tableRead ∨ p.wants = some .tableWrite := by
  cases p with
  | rechecks _ => exact .inl rfl
  | closes _ _ => exact .inr rfl
  | sends _ _ _ => cases hwants
  | _ => cases h

/-- **When a call keeps a ledger, some call can go on**, or the mapping service has not answered: it
waits for nothing or for the table. -/
theorem Locked.goesOn_of_keeps (hs : Locked s) (hc : Keeps s c id) : GoesOn s ∨ Unanswered s := by
  obtain ⟨k, hk, hkeeps⟩ := hc
  have hrunning : k.phase.result? = none := by
    cases hp : k.phase <;> first | rfl | (rw [CallState.keeps, hp] at hkeeps; cases hkeeps)
  by_cases hready : k.Ready
  · exact goesOn_of_ready hk hready hrunning
  · rw [CallState.Ready, not_or, Bool.not_eq_true] at hready
    obtain ⟨hwants, hwaits⟩ := hready
    obtain ⟨lock, hwants⟩ := Option.ne_none_iff_exists'.1 hwants
    have hholds : k.phase.holds = some id := by
      obtain ⟨call, phase, granted⟩ := k
      obtain rfl : granted = false := hwaits
      rwa [CallState.keeps_waiting] at hkeeps
    exact hs.goesOn_of_table hk (Phase.wants_of_holds hholds hwants) hwaits

/-- **As long as a call has not answered, some call can go on** or the mapping service has not
answered. -/
theorem Reachable.goesOn_or_unanswered (hs : Reachable s) (hk : s.calls[c]? = some k)
    (hrunning : k.phase.result? = none) : GoesOn s ∨ Unanswered s := by
  by_cases hready : k.Ready
  · exact goesOn_of_ready hk hready hrunning
  · rw [CallState.Ready, not_or, Bool.not_eq_true] at hready
    obtain ⟨hwants, hwaits⟩ := hready
    obtain ⟨lock, hwants⟩ := Option.ne_none_iff_exists'.1 hwants
    cases lock with
    | tableRead => exact hs.locked.goesOn_of_table hk (.inl hwants) hwaits
    | tableWrite => exact hs.locked.goesOn_of_table hk (.inr hwants) hwaits
    | ledger id =>
      -- the ledger is free, or its holder keeps it
      cases hholder : s.holder? id with
      | some d => exact hs.locked.goesOn_of_keeps (hs.locked.keeping id d hholder)
      | none =>
        have hid : id < s.cells.length := by
          refine (hs.sound.calls c k hk).opened id ?_
          cases hp : k.phase <;> rw [hp] at hwants <;> cases hwants
          rfl
        exact .inl (goesOn_of_grant hk hwants hwaits (exists_grant?_of_free hid hholder))

/-! ### The guarantee -/

/-- **Shared ledgers never get stuck.** In every store that can come about nobody waits for a ledger
while having the lock of the table, and as long as a call has not answered some call can go on or be
given the lock that it wants, or the mapping service has not answered. And in every run a call looks
its ledger up again only if a commit or a discard has withdrawn from it the ledger that it awaited,
since it last found one; so it does not do so more often than there are such withdrawals. -/
theorem never_stuck :
    (∀ s, Reachable s →
      (∀ (c : CallId) (k : CallState) (id : LedgerId), s.calls[c]? = some k →
        k.phase.wants = some (.ledger id) → ¬ HasTable s c) ∧
      ∀ (c : CallId) (k : CallState), s.calls[c]? = some k → k.phase.result? = none →
        GoesOn s ∨ Unanswered s) ∧
    ∀ (events : List StoreEvent) (c : CallId),
      (∀ before x after, steps {} events = before ++ x :: after → x.Repeats c →
        ∃ id earlier look waiting, before = earlier ++ look :: waiting ∧ look.Finds c id ∧
          (∀ y ∈ waiting ++ [x], y.before.Awaits c id) ∧ ∃ y ∈ waiting, y.Withdraws c) ∧
      (steps {} events).countP (fun x => x.Repeats c) ≤
        (steps {} events).countP fun x => x.Withdraws c := by
  refine ⟨fun s hs => ⟨fun c k id hk hwants => hs.not_hasTable hk hwants,
    fun c k hk hrunning => hs.goesOn_or_unanswered hk hrunning⟩, fun events c => ⟨?_, ?_⟩⟩
  · intro before x after hsteps hx
    obtain h | ⟨id, ⟨k, hk, -⟩, -⟩ := Reachable.start.withdraws_of_repeats hsteps hx
    · exact h
    · -- in the beginning there is no call that could await a ledger
      cases hk
  · refine (Reachable.start.countP_repeats_le events c).1 ?_
    rintro ⟨k, id, hk, -⟩
    cases hk

/-- A discard takes the ledger out of the table for which a staging call waits. The call has to look it
up again, once, and goes on. -/
theorem never_stuck_beside_discard : ∃ events s,
    events.foldlM next? {} = some s ∧ (steps {} events).countP (fun x => x.Repeats 0) = 1 ∧
      1 ≤ (steps {} events).countP (fun x => x.Withdraws 0) ∧ (GoesOn s ∨ Unanswered s) := by
  let events : List StoreEvent :=
    [.start (.stage (.draft "a") [.plain 1 .snapshot] .map), .grant 0, .advance 0, .grant 0,
      .advance 0, .start (.discard (.draft "a")), .grant 1, .advance 1, .grant 0, .advance 0,
      .grant 0, .advance 0]
  have hrun : (events.foldlM next? {}).map
      (fun s => (s.calls[0]?.map fun k => k.phase.isLookUp)) = some (some true) := by
    decide +kernel
  obtain ⟨s, hs, h⟩ := Option.map_eq_some_iff.1 hrun
  obtain ⟨k, hk, hlook⟩ := Option.map_eq_some_iff.1 h
  have hcount : (steps {} events).countP (fun x => x.Repeats 0) = 1 := by decide +kernel
  obtain ⟨hreachable, hevents⟩ := never_stuck
  refine ⟨events, s, hs, hcount, hcount ▸ (hevents events 0).2, ?_⟩
  refine (hreachable s (Reachable.start.run hs)).2 0 k hk ?_
  cases hp : k.phase <;> first | rfl | (rw [hp] at hlook; cases hlook)

end LedgerStore

end ObjectMapping
