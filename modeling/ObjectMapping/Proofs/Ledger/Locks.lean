import ObjectMapping.Proofs.Ledger.Invariant

/-! # Who has which lock

A lock remembers the calls that have it, and a call shows by its phase which locks it has. Here the
first is told from the second: whoever is entered as having the lock of the table has been given it
for the phase in which it is, and whoever is entered as the holder of a ledger keeps that ledger.
A call gives the lock of the table back with the phase for which it was given, and a ledger with the
last phase in which it keeps it, so a lock that is not free is in the hands of a call that is still
at work.

* **`Locked`** — every lock that is not free is in the hands of a call that needs it.
* **`Locked.next`** — an event keeps this.
* **`Reachable.locked`** — it holds of all shared ledgers that can come about. -/

namespace ObjectMapping

/-- A lock that a call keeps while it waits it keeps when it has been given the one that it
wants. -/
theorem CallState.keeps_granted {k : CallState} {id : LedgerId} (hwaits : k.granted = false)
    (hkeeps : k.keeps = some id) : CallState.keeps { k with granted := true } = some id := by
  obtain ⟨call, phase, granted⟩ := k
  obtain rfl : granted = false := hwaits
  cases phase with
  | enters id => cases hkeeps
  | _ => exact hkeeps

namespace LedgerStore

variable {s t u : LedgerStore} {c d : CallId} {k k' : CallState} {call : LedgerCall}
  {p p' : Phase} {e : StoreEvent} {id i : LedgerId} {lock : Lock}

/-- A call **has been given a lock** for its phase. -/
def Given (s : LedgerStore) (c : CallId) (lock : Lock) : Prop :=
  ∃ k, s.calls[c]? = some k ∧ k.phase.wants = some lock ∧ k.granted = true

/-- A call **keeps a ledger**: it has the lock of the ledger. -/
def Keeps (s : LedgerStore) (c : CallId) (id : LedgerId) : Prop :=
  ∃ k, s.calls[c]? = some k ∧ k.keeps = some id

/-- Every lock that is not free is **in the hands of a call** that needs it for its phase. -/
structure Locked (s : LedgerStore) : Prop where
  /-- Those that read the table have been given its lock to read it. -/
  reading : ∀ c ∈ s.tableLock.readers, Given s c .tableRead
  /-- None of them is entered twice. -/
  once : s.tableLock.readers.Nodup
  /-- The one that writes to the table has been given its lock to write to it. -/
  writing : ∀ c, s.tableLock.writer = some c → Given s c .tableWrite
  /-- The holder of a ledger keeps it. -/
  keeping : ∀ id c, s.holder? id = some c → Keeps s c id

/-- In the beginning all locks are free. -/
theorem locked_start : Locked {} where
  reading := nofun
  once := List.nodup_nil
  writing := nofun
  keeping id c h := by simp [holder?] at h

/-! ### The lock of the table in a step -/

@[simp] theorem tableLock_leave : (s.leave id).tableLock = s.tableLock := rfl

@[simp] theorem tableLock_leaveTable :
    (s.leaveTable c).tableLock = s.tableLock.release c := rfl

@[simp] theorem tableLock_moveTo : (s.moveTo c p).tableLock = s.tableLock := by cases p <;> rfl

@[simp] theorem tableLock_editAt {f : Ledger → Ledger} :
    (s.editAt id f).tableLock = s.tableLock := rfl

@[simp] theorem tableLock_withNew {key : LedgerKey} :
    (s.withNew key).tableLock = s.tableLock := rfl

@[simp] theorem tableLock_withoutEntry {key : LedgerKey} :
    (s.withoutEntry key).tableLock = s.tableLock := rfl

/-- **A call gives the lock of the table back** with the phase for which it was given. -/
theorem Advance.tableLock_eq_or (h : Advance s c call p p' t) :
    t.tableLock = s.tableLock.release c ∨
      t.tableLock = s.tableLock ∧ p.wants ≠ some .tableRead ∧ p.wants ≠ some .tableWrite := by
  cases h <;> simp [Phase.wants]

/-- The lock of the table is given to read it, to write to it or not at all. -/
theorem tableLock_grant? (h : s.grant? c lock = some u) :
    lock = .tableRead ∧ u.tableLock = ⟨c :: s.tableLock.readers, s.tableLock.writer⟩ ∨
      lock = .tableWrite ∧ u.tableLock = ⟨s.tableLock.readers, some c⟩ ∨
      u.tableLock = s.tableLock := by
  cases lock with
  | tableRead =>
    simp only [grant?] at h
    split at h
    · cases h; exact .inl ⟨rfl, rfl⟩
    · cases h
  | tableWrite =>
    simp only [grant?] at h
    split at h
    · cases h; exact .inr (.inl ⟨rfl, rfl⟩)
    · cases h
  | ledger id =>
    simp only [grant?] at h
    split at h
    · cases h; exact .inr (.inr rfl)
    · cases h

/-! ### What an event keeps -/

/-- What a call has been given it goes on to have while others go on. -/
theorem Given.of_ne (hc : Given s c lock) (h : Happens s e t) (he : e.call? ≠ some c) :
    Given t c lock := by
  obtain ⟨k, hk, hgiven⟩ := hc
  exact ⟨k, h.calls_of_ne he hk, hgiven⟩

/-- A call keeps its ledger while others go on. -/
theorem Keeps.of_ne (hc : Keeps s c id) (h : Happens s e t) (he : e.call? ≠ some c) :
    Keeps t c id := by
  obtain ⟨k, hk, hkeeps⟩ := hc
  exact ⟨k, h.calls_of_ne he hk, hkeeps⟩

/-- A call keeps its ledger, if the one that goes on does so where it keeps it. -/
theorem Keeps.of_call (hd : Keeps s d id) (h : Happens s e t) (he : e.call? = some c)
    (hk : s.calls[c]? = some k) (hself : k.keeps = some id → Keeps t c id) : Keeps t d id := by
  by_cases hdc : d = c
  · subst hdc
    obtain ⟨k', hk', hkeeps⟩ := hd
    cases hk.symm.trans hk'
    exact hself hkeeps
  · exact hd.of_ne h fun he' => hdc (Option.some.inj (he.symm.trans he')).symm

namespace Locked

/-- A call that goes on gives back what it needs no longer. -/
theorem advance (hs : Locked s) (hk : s.calls[c]? = some k) (hready : k.Ready)
    (h : Advance s c k.call k.phase p' t) : Locked t := by
  have hn : Happens s (.advance c) t := .advances hk hready h
  -- where the call does not give the lock of the table back, it has not had it
  have given_ne : ∀ {d lock}, k.phase.wants ≠ some lock → Given s d lock → d ≠ c := by
    rintro d lock hne ⟨k', hk', hwants, -⟩ rfl
    cases hk.symm.trans hk'
    exact hne hwants
  have given_next : ∀ {d lock}, d ≠ c → Given s d lock → Given t d lock :=
    fun hne hd => hd.of_ne hn fun he => hne (Option.some.inj he).symm
  constructor
  · intro d hd
    obtain htable | ⟨htable, hread, -⟩ := h.tableLock_eq_or
    · rw [htable] at hd
      obtain ⟨hne, hd⟩ := hs.once.mem_erase_iff.1 hd
      exact given_next hne (hs.reading d hd)
    · rw [htable] at hd
      have hd := hs.reading d hd
      exact given_next (given_ne hread hd) hd
  · obtain htable | ⟨htable, -⟩ := h.tableLock_eq_or
    · rw [htable]
      exact hs.once.erase c
    · rw [htable]
      exact hs.once
  · intro d hd
    obtain htable | ⟨htable, -, hwrite⟩ := h.tableLock_eq_or
    · rw [htable, TableLock.release] at hd
      dsimp only at hd
      split at hd
      · cases hd
      · next hne => exact given_next (fun hdc => hne (hdc ▸ hd)) (hs.writing d hd)
    · rw [htable] at hd
      have hd := hs.writing d hd
      exact given_next (given_ne hwrite hd) hd
  · intro id d hd
    rw [h.holder?_eq] at hd
    split at hd
    · cases hd
    · next hkept =>
      refine (hs.keeping id d hd).of_call hn rfl hk fun hkeeps => ?_
      -- the call keeps the ledger in its new phase too
      have hholds : p'.holds = some id := by
        refine Decidable.byContradiction fun hne => hkept ⟨?_, hne⟩
        rw [← CallState.keeps_of_ready hready, hkeeps]
      refine ⟨_, by rw [h.calls_eq, getElem?_modify_self hk], ?_⟩
      exact CallState.keeps_waiting.trans hholds

/-- Ledgers are kept when a call is given the lock that it wants, be it that of a ledger. -/
theorem keeps_grant (hs : Locked s) (hk : s.calls[c]? = some k) (hwants : k.phase.wants = some lock)
    (hwaits : k.granted = false) (hu : s.grant? c lock = some u) (hd : u.holder? id = some d) :
    Keeps { u with calls := u.calls.modify c fun k => { k with granted := true } } d id := by
  have hgrants := grants_of_grant? hu
  have hcall : (u.calls.modify c fun k => { k with granted := true })[c]? =
      some { k with granted := true } := by
    rw [hgrants.calls, getElem?_modify_self hk]
  rw [hgrants.holder?] at hd
  split at hd
  · next hlock =>
    -- the ledger is the one for which the call has waited
    cases hd
    refine ⟨_, hcall, ?_⟩
    obtain ⟨call, phase, granted⟩ := k
    subst hlock
    cases phase with
    | enters j => cases hwants; rfl
    | _ => cases hwants
  · exact (hs.keeping id d hd).of_call (.grants hk hwants hwaits hu) rfl hk fun hkeeps =>
      ⟨_, hcall, CallState.keeps_granted hwaits hkeeps⟩

/-- A call that has been given the lock that it wants is entered as having it. -/
theorem grant (hs : Locked s) (hk : s.calls[c]? = some k) (hwants : k.phase.wants = some lock)
    (hwaits : k.granted = false) (hu : s.grant? c lock = some u) :
    Locked { u with calls := u.calls.modify c fun k => { k with granted := true } } := by
  have hn : Happens s (.grant c) _ := .grants hk hwants hwaits hu
  have hcall : (u.calls.modify c fun k => { k with granted := true })[c]? =
      some { k with granted := true } := by
    rw [(grants_of_grant? hu).calls, getElem?_modify_self hk]
  have hgiven : Given { u with calls := u.calls.modify c fun k => { k with granted := true } } c
      lock := ⟨_, hcall, hwants, rfl⟩
  -- the call has waited so far, and so has been given nothing
  have ne_of_given : ∀ {d lock}, Given s d lock → d ≠ c := by
    rintro d lock ⟨k', hk', -, hgranted⟩ rfl
    cases hk.symm.trans hk'
    rw [hwaits] at hgranted
    cases hgranted
  have given_next : ∀ {d lock}, Given s d lock → Given _ d lock :=
    fun hd => hd.of_ne hn fun he => ne_of_given hd (Option.some.inj he).symm
  obtain ⟨rfl, htable⟩ | ⟨rfl, htable⟩ | htable := tableLock_grant? hu
  · refine ⟨fun d hd => ?_, ?_, fun d hd => given_next (hs.writing d ?_),
      fun _ _ hd => hs.keeps_grant hk hwants hwaits hu hd⟩
    · rw [htable] at hd
      obtain rfl | hd := List.mem_cons.1 hd
      · exact hgiven
      · exact given_next (hs.reading d hd)
    · rw [htable]
      exact List.nodup_cons.2 ⟨fun hc => ne_of_given (hs.reading c hc) rfl, hs.once⟩
    · rwa [htable] at hd
  · refine ⟨fun d hd => given_next (hs.reading d ?_), ?_, fun d hd => ?_,
      fun _ _ hd => hs.keeps_grant hk hwants hwaits hu hd⟩
    · rwa [htable] at hd
    · rw [htable]
      exact hs.once
    · rw [htable] at hd
      cases hd
      exact hgiven
  · refine ⟨fun d hd => given_next (hs.reading d ?_), ?_, fun d hd => given_next (hs.writing d ?_),
      fun _ _ hd => hs.keeps_grant hk hwants hwaits hu hd⟩
    · rwa [htable] at hd
    · rw [htable]
      exact hs.once
    · rwa [htable] at hd

/-- What the mapping service answers changes no lock. -/
theorem answer {change : Change} {answer : ServiceAnswer} (hs : Locked s)
    (hk : s.calls[c]? = some k) (hp : answered? change answer k.phase = some p') :
    Locked (s.moveTo c p') := by
  have hn : Happens s (.answer c change answer) _ := .answers hk hp
  have hcall : (s.moveTo c p').calls[c]? = some { k with phase := p', granted := false } := by
    rw [calls_moveTo, getElem?_modify_self hk]
  -- the commit wants no lock, neither before nor after
  obtain ⟨id, m, u, hphase, hp'⟩ := answered?_eq_some_iff.1 hp
  have given_next : ∀ {d lock}, Given s d lock → Given (s.moveTo c p') d lock := by
    intro d lock hd
    refine hd.of_ne hn fun he => ?_
    obtain ⟨k', hk', hwants, -⟩ := hd
    cases he
    cases hk.symm.trans hk'
    rw [hphase] at hwants
    cases hwants
  refine ⟨fun d hd => given_next (hs.reading d ?_), ?_, fun d hd => given_next (hs.writing d ?_),
    fun i d hd => ?_⟩
  · rwa [tableLock_moveTo] at hd
  · rw [tableLock_moveTo]
    exact hs.once
  · rwa [tableLock_moveTo] at hd
  · rw [holder?_moveTo] at hd
    refine (hs.keeping i d hd).of_call hn rfl hk fun hkeeps => ⟨_, hcall, ?_⟩
    rw [CallState.keeps, hphase] at hkeeps
    obtain ⟨-, -, rfl⟩ | ⟨-, -, rfl⟩ := hp' <;> exact hkeeps

/-- **An event keeps every lock in the hands of a call that needs it.** -/
theorem next (hs : Locked s) (h : Happens s e t) : Locked t := by
  cases h with
  | starts call =>
    have hn : Happens s (.start call) _ := .starts call
    exact ⟨fun d hd => (hs.reading d hd).of_ne hn nofun, hs.once,
      fun d hd => (hs.writing d hd).of_ne hn nofun,
      fun id d hd => (hs.keeping id d hd).of_ne hn nofun⟩
  | grants hk hwants hwaits hu => exact hs.grant hk hwants hwaits hu
  | advances hk hready h => exact hs.advance hk hready h
  | answers hk hp => exact hs.answer hk hp

end Locked

/-- **In all shared ledgers that can come about, every lock that is not free is in the hands of a
call that needs it.** -/
theorem Reachable.locked (h : Reachable s) : Locked s := by
  induction h with
  | start => exact locked_start
  | step _ h ih =>
    obtain ⟨e, he⟩ := h
    exact ih.next (next?_eq_some_iff.1 he)

end LedgerStore

end ObjectMapping
