import ObjectMapping.Proofs.Ledger.Steps

/-! # What holds of shared ledgers at all times

Two calls never have the lock of one ledger, because a lock has one holder and a call that has a lock
is its holder (`CallSound.held`). So a ledger whose lock a call has is left alone by all others
(`Happens.leaves_alone`), and whatever the call knows of it stays true from one of its phases to the
next. The table leads from different keys to different ledgers.

* **`Sound`** — what holds at all times.
* **`Sound.next`** — an event keeps it.
* **`Reachable.sound`** — it holds of all shared ledgers that can come about. -/

namespace ObjectMapping

/-- The call that goes on in an event. -/
def StoreEvent.call? : StoreEvent → Option CallId
  | .start _ => none
  | .grant c | .advance c | .answer c _ _ => some c

/-- A call that waits has the lock that it holds all through its phase, and no other. -/
theorem CallState.keeps_waiting {call : LedgerCall} {p : Phase} :
    CallState.keeps ⟨call, p, false⟩ = p.holds := by
  cases p <;> rfl

namespace LedgerStore

variable {s t u : LedgerStore} {c d : CallId} {k k' : CallState} {e : StoreEvent}
  {id i : LedgerId} {key key' : LedgerKey}

/-- **What holds of a call** at all times. -/
structure CallSound (s : LedgerStore) (c : CallId) (k : CallState) : Prop where
  /-- It is in a phase that suits it. -/
  suits : k.phase.Suits k.call
  /-- The ledger that it has or waits for was opened. -/
  opened : ∀ id, k.phase.subject? = some id → id < s.cells.length
  /-- It is the holder of the lock that it has. -/
  held : ∀ id, k.keeps = some id → s.holder? id = some c
  /-- The ledger that it is about to close is empty. -/
  closesEmpty : ∀ id report, k.phase = .closes id report → s.ledgerAt id = .empty

/-- **What holds of shared ledgers** at all times. -/
structure Sound (s : LedgerStore) : Prop where
  /-- What holds of each call. -/
  calls : ∀ c k, s.calls[c]? = some k → CallSound s c k
  /-- The table leads to ledgers that were opened. -/
  opened : ∀ key id, s.table.get? key = some id → id < s.cells.length
  /-- The table leads to each ledger from one key at most. -/
  injective : ∀ key key' id, s.table.get? key = some id → s.table.get? key' = some id → key = key'

/-- In the beginning there is nothing of which anything could fail. -/
theorem sound_start : Sound {} where
  calls c k hk := by simp at hk
  opened key id hid := by simp at hid
  injective key key' id hid := by simp at hid

/-! ### What an event leaves alone -/

/-- A call among others of which one has changed. -/
theorem getElem?_modify_eq_some {calls : List CallState} {f : CallState → CallState} :
    (calls.modify c f)[d]? = some k' ↔
      ∃ k, calls[d]? = some k ∧ k' = if c = d then f k else k := by
  rw [List.getElem?_modify]
  cases calls[d]? with
  | none => simp
  | some k => by_cases h : c = d <;> simp [h, eq_comm]

/-- The call that has changed. -/
theorem getElem?_modify_self {calls : List CallState} {f : CallState → CallState}
    (hk : calls[c]? = some k) : (calls.modify c f)[c]? = some (f k) :=
  getElem?_modify_eq_some.2 ⟨k, hk, by rw [if_pos rfl]⟩

/-- The subject of a call that goes on is a ledger of which it is the holder. -/
theorem Sound.holder?_of_ready (hs : s.Sound) (hk : s.calls[c]? = some k) (hready : k.Ready)
    (hid : k.phase.subject? = some id) : s.holder? id = some c :=
  (hs.calls c k hk).held id ((CallState.keeps_of_ready hready).trans hid)

/-- What a call that goes on makes of each ledger. -/
theorem Sound.ledgerAt_advance {p' : Phase} (hs : s.Sound) (hk : s.calls[c]? = some k)
    (h : Advance s c k.call k.phase p' t) (i : LedgerId) :
    t.ledgerAt i = s.ledgerAfter (s.edit? k.call k.phase) i :=
  h.ledgerAt_eq (hs.calls c k hk).opened i

namespace Happens

/-- Ledgers are never forgotten. -/
theorem length_le (h : Happens s e t) : s.cells.length ≤ t.cells.length := by
  cases h with
  | starts call => exact Nat.le_refl _
  | grants hk hwants hwaits hu => exact Nat.le_of_eq (grants_of_grant? hu).length.symm
  | advances hk hready h => obtain ⟨-, h⟩ | ⟨-, -, -, h⟩ | ⟨_, -, -, h, -⟩ := h.table_eq_or <;> omega
  | answers hk hp => exact Nat.le_of_eq length_cells_moveTo.symm

/-- **A ledger whose lock a call has is left alone by the other calls**, and so is the lock. -/
theorem leaves_alone (h : Happens s e t) (hs : s.Sound) (hd : s.holder? i = some d)
    (he : e.call? ≠ some d) : t.holder? i = some d ∧ t.ledgerAt i = s.ledgerAt i := by
  cases h with
  | starts call => exact ⟨hd, rfl⟩
  | @grants c k lock u hk hwants hwaits hu =>
    have hu := grants_of_grant? hu
    refine ⟨?_, hu.ledgerAt i⟩
    -- a lock that is given away had no holder
    have hne : lock ≠ .ledger i := fun hi => by rw [hu.free i hi] at hd; cases hd
    exact (hu.holder? i).trans (by rw [if_neg hne, hd])
  | @advances c k p' _ hk hready h =>
    have hne : k.phase.subject? ≠ some i := fun hi => by
      rw [hs.holder?_of_ready hk hready hi] at hd
      exact he hd
    constructor
    · rw [h.holder?_eq, if_neg fun hi => hne hi.1, hd]
    · rw [hs.ledgerAt_advance hk h]
      cases hedit : s.edit? k.call k.phase with
      | none => rfl
      | some x =>
        refine if_neg ?_
        rintro rfl
        exact hne (subject?_of_edit? hedit)
  | answers hk hp => exact ⟨holder?_moveTo.trans hd, ledgerAt_moveTo⟩

/-- An entry that is in the table after an event was there before, or its ledger has just been opened
and no other entry has changed. -/
theorem get?_or (h : Happens s e t) (hid : t.table.get? key = some id) :
    s.table.get? key = some id ∨
      id = s.cells.length ∧ t.cells.length = s.cells.length + 1 ∧
        ∀ key', key' ≠ key → t.table.get? key' = s.table.get? key' := by
  cases h with
  | starts call => exact .inl hid
  | grants hk hwants hwaits hu =>
    have htable := (grants_of_grant? hu).table
    exact .inl (by rw [← htable]; exact hid)
  | @advances c k p' _ hk hready h =>
    obtain ⟨ht, -⟩ | ⟨-, hnone, ht, hlen⟩ | ⟨j, hj, ht, -, -⟩ := h.table_eq_or
    · exact .inl (ht ▸ hid)
    · rw [ht, SortedMap.get?_insert] at hid
      split at hid
      · next hkey =>
        cases hid
        refine .inr ⟨rfl, hlen, fun key' hne => ?_⟩
        rw [ht, SortedMap.get?_insert, if_neg (hkey ▸ hne)]
      · exact .inl hid
    · rw [ht, SortedMap.get?_erase] at hid
      split at hid
      · cases hid
      · exact .inl hid
  | answers hk hp => exact .inl (table_moveTo ▸ hid)

/-- The table leads to a ledger that has just been opened. -/
theorem exists_get?_of_new (h : Happens s e t) (hle : s.cells.length ≤ id)
    (hlt : id < t.cells.length) : ∃ key, t.table.get? key = some id := by
  cases h with
  | starts call => exact absurd hlt (Nat.not_lt_of_le hle)
  | grants hk hwants hwaits hu =>
    have hlen := (grants_of_grant? hu).length
    exact absurd (hlen ▸ hlt) (Nat.not_lt_of_le hle)
  | answers hk hp => exact absurd (length_cells_moveTo ▸ hlt) (Nat.not_lt_of_le hle)
  | @advances c k p' _ hk hready h =>
    obtain ⟨-, hlen⟩ | ⟨-, -, ht, hlen⟩ | ⟨_, -, -, hlen, -⟩ := h.table_eq_or
    · exact absurd (hlen ▸ hlt) (Nat.not_lt_of_le hle)
    · rw [hlen] at hlt
      obtain rfl : id = s.cells.length := Nat.le_antisymm (Nat.le_of_lt_succ hlt) hle
      exact ⟨k.call.key, by rw [ht, SortedMap.get?_insert, if_pos rfl]⟩
    · exact absurd (hlen ▸ hlt) (Nat.not_lt_of_le hle)

/-- An event adds a call or changes one. -/
theorem calls_eq_or (h : Happens s e t) :
    (∃ call, e = .start call ∧ t.calls = s.calls ++ [{ call := call, phase := call.firstPhase }]) ∨
      ∃ c f, e.call? = some c ∧ t.calls = s.calls.modify c f := by
  cases h with
  | starts call => exact .inl ⟨call, rfl, rfl⟩
  | grants hk hwants hwaits hu =>
    rw [(grants_of_grant? hu).calls]
    exact .inr ⟨_, _, rfl, rfl⟩
  | advances hk hready h => exact .inr ⟨_, _, rfl, h.calls_eq⟩
  | answers hk hp => exact .inr ⟨_, _, rfl, calls_moveTo⟩

/-- A call that does not go on stays as it is. -/
theorem calls_of_ne (h : Happens s e t) (he : e.call? ≠ some d) (hk : s.calls[d]? = some k) :
    t.calls[d]? = some k := by
  obtain ⟨call, -, ht⟩ | ⟨c, f, hc, ht⟩ := h.calls_eq_or
  · rw [ht, List.getElem?_append_left (List.getElem?_eq_some_iff.1 hk).1, hk]
  · have hcd : c ≠ d := fun hcd => he (hcd ▸ hc)
    rw [ht, getElem?_modify_eq_some]
    exact ⟨k, hk, by rw [if_neg hcd]⟩

/-- A call after an event is one that did not go on, one that has just begun or the one that went
on. -/
theorem call_or (h : Happens s e t) (hd : t.calls[d]? = some k') :
    (e.call? ≠ some d ∧ s.calls[d]? = some k') ∨
      (∃ call, e = .start call ∧ k' = { call := call, phase := call.firstPhase }) ∨
      e.call? = some d := by
  obtain ⟨call, rfl, ht⟩ | ⟨c, f, hc, ht⟩ := h.calls_eq_or
  · rw [ht] at hd
    obtain h | h := Nat.lt_or_ge d s.calls.length
    · exact .inl ⟨nofun, by rwa [List.getElem?_append_left h] at hd⟩
    · rw [List.getElem?_append_right h] at hd
      exact .inr (.inl ⟨call, rfl, by simpa using List.mem_of_getElem? hd⟩)
  · by_cases hcd : c = d
    · exact .inr (.inr (hcd ▸ hc))
    · rw [ht] at hd
      obtain ⟨k, hk, rfl⟩ := getElem?_modify_eq_some.1 hd
      rw [if_neg hcd]
      exact .inl ⟨fun h => hcd (Option.some.inj (hc.symm.trans h)), hk⟩

end Happens

/-! ### What an event keeps -/

namespace CallSound

/-- What holds of a call goes on to hold while others go on. -/
theorem of_leaves_alone (hk : CallSound s d k) (hs : s.Sound) (h : Happens s e t)
    (he : e.call? ≠ some d) : CallSound t d k where
  suits := hk.suits
  opened id hid := Nat.lt_of_lt_of_le (hk.opened id hid) h.length_le
  held id hid := (h.leaves_alone hs (hk.held id hid) he).1
  closesEmpty id report hp := by
    -- it has the lock of the ledger until it has closed it
    have hheld : s.holder? id = some d := hk.held id (by simp [CallState.keeps, hp, Phase.holds])
    rw [(h.leaves_alone hs hheld he).2]
    exact hk.closesEmpty id report hp

/-- It holds of a call that begins. -/
theorem start (call : LedgerCall) : CallSound s c { call := call, phase := call.firstPhase } where
  suits := by cases call <;> simp [LedgerCall.firstPhase, Phase.Suits, LedgerCall.Discards]
  opened id hid := by cases call <;> cases hid
  held id hid := by cases call <;> cases hid
  closesEmpty id report hp := by cases call <;> cases hp

/-- It holds of a call that has been given the lock that it wants. -/
theorem grant {lock : Lock} (hk : CallSound s c k) (hwants : k.phase.wants = some lock)
    (hu : Grants s c lock u) (hcells : t.cells = u.cells) :
    CallSound t c { k with granted := true } where
  suits := hk.suits
  opened id hid := by rw [hcells, hu.length]; exact hk.opened id hid
  held id hid := by
    have ht : t.holder? id = u.holder? id := by rw [LedgerStore.holder?, hcells]; rfl
    rw [ht, hu.holder?]
    split
    · rfl
    · next hlock =>
      -- the lock is that of another ledger, so it is one that the call had before
      obtain ⟨call, phase, granted⟩ := k
      cases phase with
      | enters j =>
        cases hwants
        cases hid
        exact absurd rfl hlock
      | _ => exact hk.held id hid
  closesEmpty id report hp := by
    have ht : t.ledgerAt id = u.ledgerAt id := by rw [LedgerStore.ledgerAt, hcells]; rfl
    rw [ht, hu.ledgerAt]
    exact hk.closesEmpty id report hp

/-- It holds of a call that has gone on. -/
theorem advance {p' : Phase} (hk : CallSound s c k) (hready : k.Ready) (hs : s.Sound)
    (h : Advance s c k.call k.phase p' t) (hle : s.cells.length ≤ t.cells.length)
    (hopened : ∀ key id, t.table.get? key = some id → id < t.cells.length) :
    CallSound t c { k with phase := p', granted := false } where
  suits := h.suits hk.suits
  opened id hid := by
    obtain hid | hid | hid := h.subject?_or hid
    · exact Nat.lt_of_lt_of_le (hk.opened id hid) hle
    · exact Nat.lt_of_lt_of_le (hs.opened _ id hid) hle
    · exact hopened _ id hid
  held id hid := by
    rw [CallState.keeps_waiting] at hid
    rw [h.holder?_eq, if_neg fun hi => hi.2 hid]
    exact hk.held id ((CallState.keeps_of_ready hready).trans (h.subject?_of_holds hid))
  closesEmpty id report hp := by
    subst hp
    exact h.ledgerAt_of_closes

/-- It holds of a commit that has been answered. -/
theorem answer {p' : Phase} {change : Change} {answer : ServiceAnswer} (hk : CallSound s c k)
    (hp : answered? change answer k.phase = some p') :
    CallSound (s.moveTo c p') c { k with phase := p', granted := false } := by
  obtain ⟨call, phase, granted⟩ := k
  obtain ⟨id, m, u, rfl, h⟩ := answered?_eq_some_iff.1 hp
  -- the commit stays in the phase in which it has the ledger and waits for answers
  obtain ⟨m', u', rfl⟩ : ∃ m' u', p' = .sends id m' u' := by
    obtain ⟨-, -, rfl⟩ | ⟨-, -, rfl⟩ := h
    · exact ⟨_, _, rfl⟩
    · exact ⟨_, _, rfl⟩
  exact ⟨hk.suits, hk.opened, hk.held, fun _ _ hp => by cases hp⟩

end CallSound

namespace Sound

/-- The table goes on to lead to ledgers that were opened. -/
theorem opened_next (hs : s.Sound) (h : Happens s e t) (hid : t.table.get? key = some id) :
    id < t.cells.length := by
  obtain hid | ⟨rfl, hlen, -⟩ := h.get?_or hid
  · exact Nat.lt_of_lt_of_le (hs.opened key id hid) h.length_le
  · rw [hlen]
    exact Nat.lt_succ_self _

/-- The table goes on to lead to each ledger from one key at most. -/
theorem injective_next (hs : s.Sound) (h : Happens s e t) (hid : t.table.get? key = some id)
    (hid' : t.table.get? key' = some id) : key = key' := by
  -- a ledger that has just been opened has no second entry, because no entry is as new
  have eq_of_new : ∀ {key key'}, t.table.get? key' = some s.cells.length →
      (∀ key', key' ≠ key → t.table.get? key' = s.table.get? key') → key' = key := by
    intro key key' hid' hother
    refine Decidable.byContradiction fun hne => ?_
    exact Nat.lt_irrefl _ (hs.opened key' _ (hother key' hne ▸ hid'))
  -- both entries were there before, or one of them is new
  obtain hs₁ | ⟨rfl, -, hother⟩ := h.get?_or hid
  · obtain hs₂ | ⟨rfl, -, hother⟩ := h.get?_or hid'
    · exact hs.injective key key' id hs₁ hs₂
    · exact eq_of_new hid hother
  · exact (eq_of_new hid' hother).symm

/-- **An event keeps what holds at all times.** -/
theorem next (hs : s.Sound) (h : Happens s e t) : t.Sound where
  opened _ _ hid := hs.opened_next h hid
  injective _ _ _ hid hid' := hs.injective_next h hid hid'
  calls d k' hd := by
    obtain ⟨hne, hk⟩ | ⟨call, -, rfl⟩ | he := h.call_or hd
    · exact (hs.calls d k' hk).of_leaves_alone hs h hne
    · exact .start call
    · -- the call is the one that has gone on
      cases h with
      | starts call => cases he
      | grants hk hwants hwaits hu =>
        cases he
        have hu := grants_of_grant? hu
        obtain ⟨k, hk', rfl⟩ := getElem?_modify_eq_some.1 (hu.calls ▸ hd)
        cases hk.symm.trans hk'
        rw [if_pos rfl]
        exact (hs.calls d _ hk).grant hwants hu rfl
      | advances hk hready h =>
        cases he
        obtain ⟨k, hk', rfl⟩ := getElem?_modify_eq_some.1 (h.calls_eq ▸ hd)
        cases hk.symm.trans hk'
        rw [if_pos rfl]
        have hn : Happens s (.advance d) t := .advances hk hready h
        exact (hs.calls d _ hk).advance hready hs h hn.length_le fun _ _ => hs.opened_next hn
      | answers hk hp =>
        cases he
        obtain ⟨k, hk', rfl⟩ := getElem?_modify_eq_some.1 (calls_moveTo ▸ hd)
        cases hk.symm.trans hk'
        rw [if_pos rfl]
        exact (hs.calls d _ hk).answer hp

end Sound

/-- **It holds of all shared ledgers that can come about.** -/
theorem Reachable.sound (h : Reachable s) : s.Sound := by
  induction h with
  | start => exact sound_start
  | step _ h ih =>
    obtain ⟨e, he⟩ := h
    exact ih.next (next?_eq_some_iff.1 he)

end LedgerStore

end ObjectMapping
