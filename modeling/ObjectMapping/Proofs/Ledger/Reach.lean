import ObjectMapping.Proofs.Ledger.Invariant
import Mathlib.Logic.Relation

/-! # Nothing staged gets out of reach

A call looks its ledger up, waits for its lock and uses it, and in between a commit or a discard may
take the ledger out of the table. A staging call therefore looks again once it has the lock. Here it
is shown that this is enough: what is staged goes into a ledger to which the table leads at that
step, and a ledger that has left the table is either `Spent`, empty for ever, or there is a discard
that took it out, still runs and will clear it (`WillClear`).

* **`Happens.unlists`** — a ledger leaves the table only empty or by the hand of a discard.
* **`Unlisted.spent`** — an empty ledger outside of the table stays so.
* **`staged_within_reach`** — nothing that is staged gets out of reach. -/

namespace ObjectMapping

namespace LedgerStore

variable {s s₀ t : LedgerStore} {c : CallId} {e : StoreEvent} {id : LedgerId} {key : LedgerKey}

/-- One store leads to another by any number of events. -/
def Leads (s t : LedgerStore) : Prop := Relation.ReflTransGen Step s t

/-- What comes of a store that can come about can come about. -/
theorem Reachable.leads (hs : Reachable s) (h : Leads s t) : Reachable t := by
  induction h with
  | refl => exact hs
  | tail _ hstep ih => exact ih.step hstep

/-- What comes of a store that can come about by one event after the other can come about. -/
theorem Reachable.run {events : List StoreEvent} (hs : Reachable s)
    (h : events.foldlM next? s = some t) : Reachable t := by
  induction events generalizing s with
  | nil => cases h; exact hs
  | cons e events ih =>
    obtain ⟨u, hu, h⟩ := Option.bind_eq_some_iff.1 h
    exact ih (hs.step ⟨e, hu⟩) h

/-- A ledger that was opened and to which the table does not lead. -/
structure Unlisted (s : LedgerStore) (id : LedgerId) : Prop where
  opened : id < s.cells.length
  missing : ∀ key, s.table.get? key ≠ some id

/-- A ledger that is **spent**: it is and stays empty, and the table will never lead to it. -/
def Spent (s : LedgerStore) (id : LedgerId) : Prop :=
  ∀ t, Leads s t → t.ledgerAt id = .empty ∧ ∀ key, t.table.get? key ≠ some id

/-- A discard for a key has a ledger or waits for it. -/
def Clearing (s : LedgerStore) (c : CallId) (key : LedgerKey) (id : LedgerId) : Prop :=
  ∃ parent granted, parent.key = key ∧ s.calls[c]? = some ⟨.discard parent, .enters id, granted⟩

/-- A discard for a key **will clear** a ledger. -/
structure WillClear (s : LedgerStore) (c : CallId) (key : LedgerKey) (id : LedgerId) : Prop where
  /-- It is running. -/
  running : Clearing s c key id
  /-- It goes on to run until the ledger is spent. -/
  runs : ∀ t, Leads s t → Clearing t c key id ∨ Spent t id
  /-- It can be given the lock of the ledger whenever the lock is free. -/
  enters : ∀ t parent, Leads s t → t.calls[c]? = some ⟨.discard parent, .enters id, false⟩ →
    t.holder? id = none → ∃ u, t.next? (.grant c) = some u
  /-- When it has the lock it can go on, and then the ledger is spent. -/
  clears : ∀ t parent, Leads s t → t.calls[c]? = some ⟨.discard parent, .enters id, true⟩ →
    ∃ u, t.next? (.advance c) = some u ∧ Spent u id

/-- A discard **took a ledger out** of the table between two stores. -/
def TookOut (s₀ s : LedgerStore) (c : CallId) (key : LedgerKey) (id : LedgerId) : Prop :=
  ∃ s₁ s₂ parent granted, Leads s₀ s₁ ∧ s₁.next? (.advance c) = some s₂ ∧ Leads s₂ s ∧
    parent.key = key ∧ s₁.calls[c]? = some ⟨.discard parent, .takesOut, granted⟩ ∧
    s₁.table.get? key = some id ∧ s₂.table.get? key ≠ some id

/-- A ledger is **within reach** when calls for some key find it: every commit, snapshot or discard
that looks there goes on to wait for it. -/
def WithinReach (s : LedgerStore) (id : LedgerId) : Prop :=
  ∃ key, s.table.get? key = some id ∧ ∀ c k t, s.calls[c]? = some k → k.call.key = key →
    (∀ parent, k.call ≠ .opening parent) → k.phase = .lookUp ∨ k.phase = .takesOut →
    s.next? (.advance c) = some t → ∃ k', t.calls[c]? = some k' ∧ k'.phase = .enters id

/-! ### Ledgers outside of the table -/

/-- A ledger outside of the table does not come back. -/
theorem Unlisted.next (hid : Unlisted s id) (h : Happens s e t) : Unlisted t id where
  opened := Nat.lt_of_lt_of_le hid.opened h.length_le
  missing key hkey := by
    obtain hkey | ⟨rfl, -, -⟩ := h.get?_or hkey
    · exact hid.missing key hkey
    · exact Nat.lt_irrefl _ hid.opened

/-- An empty ledger outside of the table stays empty: a staging does not edit it, and there is
nothing in it to clear or to settle. -/
theorem Unlisted.ledgerAt_next (hid : Unlisted s id) (hs : s.Sound) (h : Happens s e t)
    (hempty : s.ledgerAt id = .empty) : t.ledgerAt id = .empty := by
  cases h with
  | starts call => exact hempty
  | grants hk hwants hwaits hu => exact ((grants_of_grant? hu).ledgerAt id).trans hempty
  | @advances c k p' _ hk hready h =>
    rw [hs.ledgerAt_advance hk h]
    cases hedit : s.edit? k.call k.phase with
    | none => exact hempty
    | some x =>
      obtain ⟨j, edit⟩ := x
      by_cases hj : id = j
      · subst hj
        simp only [ledgerAfter, if_pos, hempty]
        obtain ⟨-, hkey, -⟩ | ⟨-, -, rfl⟩ | ⟨m, u, -, rfl⟩ := edit?_eq_some_iff.1 hedit
        · exact absurd hkey (hid.missing _)
        · rfl
        · exact Ledger.settle_empty
      · simp only [ledgerAfter, if_neg hj, hempty]
  | answers hk hp => exact ledgerAt_moveTo.trans hempty

/-- **An empty ledger outside of the table is spent.** -/
theorem Unlisted.spent (hid : Unlisted s id) (hs : Reachable s) (hempty : s.ledgerAt id = .empty) :
    Spent s id := by
  intro t h
  suffices Unlisted t id ∧ t.ledgerAt id = .empty from ⟨this.2, this.1.missing⟩
  -- neither is kept alone: an empty ledger in the table may be edited
  induction h with
  | refl => exact ⟨hid, hempty⟩
  | tail h hstep ih =>
    obtain ⟨e, he⟩ := hstep
    have he := next?_eq_some_iff.1 he
    exact ⟨ih.1.next he, ih.1.ledgerAt_next (hs.leads h).sound he ih.2⟩

/-- What is spent stays spent. -/
theorem Spent.leads (hid : Spent s id) (h : Leads s t) : Spent t id :=
  fun u hu => hid u (Relation.ReflTransGen.trans h hu)

/-- **A ledger leaves the table only empty or by the hand of a discard**, which then waits for it. -/
theorem Happens.unlists (h : Happens s e t) (hs : s.Sound) (hkey : s.table.get? key = some id)
    (hgone : t.table.get? key ≠ some id) :
    Unlisted t id ∧ (t.ledgerAt id = .empty ∨
      ∃ c parent granted, e = .advance c ∧ parent.key = key ∧
        s.calls[c]? = some ⟨.discard parent, .takesOut, granted⟩ ∧
        t.calls[c]? = some ⟨.discard parent, .enters id, false⟩) := by
  have hlen : id < t.cells.length := Nat.lt_of_lt_of_le (hs.opened key id hkey) h.length_le
  cases h with
  | starts call => exact absurd hkey hgone
  | grants hk hwants hwaits hu => exact absurd ((grants_of_grant? hu).table ▸ hkey) hgone
  | answers hk hp => exact absurd hkey (table_moveTo ▸ hgone)
  | @advances c k p' _ hk hready h =>
    obtain ⟨ht, -⟩ | ⟨-, hnone, ht, -⟩ | ⟨j, hj, ht, -, hp⟩ := h.table_eq_or
    · exact absurd (ht ▸ hkey) hgone
    · rw [ht, SortedMap.get?_insert] at hgone
      split at hgone
      · next hk => rw [hk, hnone] at hkey; cases hkey
      · exact absurd hkey hgone
    · -- the entry that is taken out is that of the key of the call
      have hkeys : key = k.call.key := Decidable.byContradiction fun hne => by
        rw [ht, SortedMap.get?_erase, if_neg hne] at hgone
        exact hgone hkey
      obtain rfl : id = j := Option.some.inj (hkey.symm.trans (hkeys ▸ hj))
      refine ⟨⟨hlen, fun key' hkey' => ?_⟩, ?_⟩
      · rw [ht, SortedMap.get?_erase] at hkey'
        split at hkey'
        · cases hkey'
        · next hne => exact hne ((hs.injective key' key id hkey' hkey).trans hkeys)
      · obtain ⟨hp, rfl⟩ | ⟨report, hp⟩ := hp
        · obtain ⟨call, phase, granted⟩ := k
          cases hp
          have hsuits : call.Discards := (hs.calls c _ hk).suits
          cases call with
          | discard parent =>
            refine .inr ⟨c, parent, granted, rfl, hkeys.symm, hk, ?_⟩
            rw [h.calls_eq, getElem?_modify_self hk]
          | _ => exact hsuits.elim
        · refine .inl ?_
          rw [hs.ledgerAt_advance hk h, hp]
          exact (hs.calls c k hk).closesEmpty id report hp

/-! ### The discard that clears -/

/-- A discard that has a ledger or waits for it goes on to do so, or it has cleared the ledger. -/
theorem Clearing.next (hc : Clearing s c key id) (hs : s.Sound) (h : Happens s e t) :
    Clearing t c key id ∨ t.ledgerAt id = .empty := by
  obtain ⟨parent, granted, hkey, hc⟩ := hc
  by_cases he : e.call? = some c
  · cases h with
    | starts call => cases he
    | grants hk hwants hwaits hu =>
      cases he
      refine .inl ⟨parent, true, hkey, ?_⟩
      rw [(grants_of_grant? hu).calls, getElem?_modify_self hc]
    | advances hk hready h =>
      -- it has the lock, and clears the ledger
      cases he
      cases hk.symm.trans hc
      refine .inr ?_
      rw [hs.ledgerAt_advance hk h]
      simp [edit?, ledgerAfter, LedgerEdit.apply]
    | answers hk hp =>
      -- only a commit is answered
      cases he
      cases hk.symm.trans hc
      obtain ⟨_, _, _, hp, -⟩ := answered?_eq_some_iff.1 hp
      cases hp
  · exact .inl ⟨parent, granted, hkey, h.calls_of_ne he hc⟩

/-- **A discard that has a ledger outside of the table, or waits for it, will clear it.** -/
theorem Clearing.willClear (hc : Clearing s c key id) (hid : Unlisted s id) (hs : Reachable s) :
    WillClear s c key id := by
  have unlisted : ∀ t, Leads s t → Unlisted t id := by
    intro t h
    induction h with
    | refl => exact hid
    | tail _ hstep ih =>
      obtain ⟨e, he⟩ := hstep
      exact ih.next (next?_eq_some_iff.1 he)
  refine ⟨hc, fun t h => ?_, fun t parent h hc hfree => ?_, fun t parent h hc => ?_⟩
  · -- it goes on to run, until at some step it clears the ledger, which then is spent
    induction h with
    | refl => exact .inl hc
    | @tail t u h hstep ih =>
      obtain ih | ih := ih
      · obtain ⟨e, he⟩ := hstep
        have hu : Leads s u := h.tail ⟨e, he⟩
        refine (ih.next (hs.leads h).sound (next?_eq_some_iff.1 he)).imp_right fun hempty => ?_
        exact (unlisted u hu).spent (hs.leads hu) hempty
      · exact .inr (ih.leads (.single hstep))
  · obtain ⟨u, hu⟩ := exists_grant?_of_free (c := c) (unlisted t h).opened hfree
    exact ⟨_, next?_eq_some_iff.2 (.grants hc rfl rfl hu)⟩
  · have hu := Happens.advances (s := t) hc (.inr rfl) (.clears trivial)
    have hlead : Leads s _ := h.tail ⟨_, next?_eq_some_iff.2 hu⟩
    refine ⟨_, next?_eq_some_iff.2 hu, (unlisted _ hlead).spent (hs.leads hlead) ?_⟩
    rw [(hs.leads h).sound.ledgerAt_advance hc (.clears trivial)]
    simp [edit?, ledgerAfter, LedgerEdit.apply]

/-! ### Ledgers over time -/

/-- An entry that has gone from the table has gone at some step. -/
theorem Leads.exists_step (h : Leads s₀ s) (hkey : s₀.table.get? key = some id)
    (hgone : s.table.get? key ≠ some id) :
    ∃ s₁ s₂ e, Leads s₀ s₁ ∧ s₁.next? e = some s₂ ∧ Leads s₂ s ∧
      s₁.table.get? key = some id ∧ s₂.table.get? key ≠ some id := by
  induction h with
  | refl => exact absurd hkey hgone
  | @tail s₁ s h hstep ih =>
    by_cases hs₁ : s₁.table.get? key = some id
    · obtain ⟨e, he⟩ := hstep
      exact ⟨s₁, s, e, h, he, .refl, hs₁, hgone⟩
    · obtain ⟨r₁, r₂, e, hr₁, he, hr₂, hlisted, hunlisted⟩ := ih hs₁
      exact ⟨r₁, r₂, e, hr₁, he, hr₂.tail hstep, hlisted, hunlisted⟩

/-- **A ledger to which the table has led** is still in the table, or spent, or there is a discard
that took it out and will clear it. -/
theorem Leads.listed_or (h : Leads s₀ s) (hs₀ : Reachable s₀) (hkey : s₀.table.get? key = some id) :
    s.table.get? key = some id ∨ Spent s id ∨ ∃ c, TookOut s₀ s c key id ∧ WillClear s c key id := by
  by_cases hgone : s.table.get? key = some id
  · exact .inl hgone
  · -- look at the step at which it has left the table, and at what comes after
    obtain ⟨s₁, s₂, e, h₁, he, h₂, hlisted, hunlisted⟩ := h.exists_step hkey hgone
    have hs₁ := hs₀.leads h₁
    have hs₂ : Reachable s₂ := hs₁.step ⟨e, he⟩
    obtain ⟨hid, hempty | ⟨c, parent, granted, rfl, hparent, hk, hc⟩⟩ :=
      (next?_eq_some_iff.1 he).unlists hs₁.sound hlisted hunlisted
    · exact .inr (.inl ((hid.spent hs₂ hempty).leads h₂))
    · have hclears : WillClear s₂ c key id :=
        Clearing.willClear ⟨parent, false, hparent, hc⟩ hid hs₂
      obtain hc | hspent := hclears.runs s h₂
      · refine .inr (.inr ⟨c, ⟨s₁, s₂, parent, granted, h₁, he, h₂, hparent, hk, hlisted,
          hunlisted⟩, hc, fun t h => hclears.runs t (h₂.trans h),
          fun t parent h => hclears.enters t parent (h₂.trans h),
          fun t parent h => hclears.clears t parent (h₂.trans h)⟩)
      · exact .inr (.inl hspent)

/-- The table has led to every ledger that was opened. -/
theorem Reachable.exists_listed (hs : Reachable s) (hid : id < s.cells.length) :
    ∃ key s₀, Reachable s₀ ∧ Leads s₀ s ∧ s₀.table.get? key = some id := by
  induction hs with
  | start => cases hid
  | @step s t hs hstep ih =>
    by_cases hlt : id < s.cells.length
    · obtain ⟨key, s₀, hs₀, h, hkey⟩ := ih hlt
      exact ⟨key, s₀, hs₀, h.tail hstep, hkey⟩
    · obtain ⟨e, he⟩ := hstep
      obtain ⟨key, hkey⟩ := (next?_eq_some_iff.1 he).exists_get?_of_new (Nat.le_of_not_lt hlt) hid
      exact ⟨key, t, hs.step ⟨e, he⟩, .refl, hkey⟩

/-! ### The guarantee -/

/-- A staging call edits no ledger but the one to which the table leads from its key. -/
theorem Happens.edits_listed {k : CallState} (h : Happens s e t) (hs : s.Sound)
    (he : e.call? = some c) (hk : s.calls[c]? = some k) (hstages : k.call.Stages)
    (hid : t.ledgerAt id ≠ s.ledgerAt id) :
    s.table.get? k.call.key = some id ∧ t.table.get? k.call.key = some id ∧
      t.ledgerAt id = k.call.edit (s.ledgerAt id) := by
  cases h with
  | starts call => cases he
  | grants _ _ _ hu => exact absurd ((grants_of_grant? hu).ledgerAt id) hid
  | answers _ _ => exact absurd ledgerAt_moveTo hid
  | @advances c' k' p' _ hk' hready h =>
    cases he
    cases hk.symm.trans hk'
    have ht := hs.ledgerAt_advance hk h id
    have hsuits := (hs.calls _ k hk).suits
    cases hedit : s.edit? k.call k.phase with
    | none => rw [hedit] at ht; exact absurd ht hid
    | some x =>
      obtain ⟨j, edit⟩ := x
      rw [hedit] at ht
      by_cases hj : id = j
      · subst hj
        simp only [ledgerAfter, if_pos] at ht
        obtain ⟨hp, hkey, rfl⟩ | ⟨-, hdiscards, -⟩ | ⟨m, u, hp, -⟩ := edit?_eq_some_iff.1 hedit
        · refine ⟨hkey, ?_, ht⟩
          -- looking again leaves the table as it is
          obtain ⟨htable, -⟩ | ⟨hp', -⟩ | ⟨_, -, -, -, ⟨hp', -⟩ | ⟨_, hp'⟩⟩ := h.table_eq_or
          · exact htable ▸ hkey
          · rw [hp] at hp'; cases hp'
          · rw [hp] at hp'; cases hp'
          · rw [hp] at hp'; cases hp'
        -- a staging call neither discards nor commits
        · cases hcall : k.call <;> simp_all [LedgerCall.Stages, LedgerCall.Discards]
        · rw [hp] at hsuits
          cases hcall : k.call <;> simp_all [LedgerCall.Stages, Phase.Suits, LedgerCall.Commits]
      · simp only [ledgerAfter, if_neg hj] at ht
        exact absurd ht hid

/-- A ledger to which the table leads is within reach. -/
theorem withinReach_of_get? (hkey : s.table.get? key = some id) : WithinReach s id := by
  refine ⟨key, hkey, fun c k t hk hcall hopening hp ht => ?_⟩
  subst hcall
  have found_eq : ∀ id, found k.call id = .enters id := by
    intro id
    cases hcall : k.call <;> first | rfl | exact absurd hcall (hopening _)
  obtain ⟨p', h⟩ : ∃ p', Advance s c k.call k.phase p' t := by
    cases next?_eq_some_iff.1 ht with
    | advances hk' _ h => cases hk.symm.trans hk'; exact ⟨_, h⟩
  refine ⟨_, by rw [h.calls_eq, getElem?_modify_self hk], ?_⟩
  generalize k.phase = p at h hp
  cases h with
  | finds h => cases h.symm.trans hkey; exact found_eq id
  | takesOut h => cases h.symm.trans hkey; rfl
  | doesWithout h _ | misses h _ | takesNothing h => cases h.symm.trans hkey
  | _ => obtain hp | hp := hp <;> cases hp

/-- A ledger in which something is staged is within reach, or a discard will clear it. -/
theorem Reachable.withinReach_or (hs : Reachable s) (hid : s.ledgerAt id ≠ .empty) :
    WithinReach s id ∨ ∃ c key, WillClear s c key id := by
  have hlt : id < s.cells.length := Nat.lt_of_not_le fun hle => hid (ledgerAt_of_le hle)
  obtain ⟨key, s₀, hs₀, h, hkey⟩ := hs.exists_listed hlt
  obtain hkey | hspent | ⟨c, -, hc⟩ := h.listed_or hs₀ hkey
  · exact .inl (withinReach_of_get? hkey)
  · exact absurd (hspent s .refl).1 hid
  · exact .inr ⟨c, key, hc⟩

/-- **Nothing that is staged gets out of reach.** In every store that can come about, a staging call
edits no ledger but the one to which the table leads from its key at that step; the table has led to
every ledger; a ledger to which it does not lead any more is spent, or the discard that took it out
still runs and will clear it; and so a ledger in which something is staged is within reach of later
calls or about to be cleared. -/
theorem staged_within_reach (hs : Reachable s) :
    (∀ e t c k, s.next? e = some t → e.call? = some c → s.calls[c]? = some k → k.call.Stages →
      ∀ id, t.ledgerAt id ≠ s.ledgerAt id →
        s.table.get? k.call.key = some id ∧ t.table.get? k.call.key = some id ∧
          t.ledgerAt id = k.call.edit (s.ledgerAt id)) ∧
    (∀ id, id < s.cells.length →
      ∃ key s₀, Reachable s₀ ∧ Leads s₀ s ∧ s₀.table.get? key = some id) ∧
    (∀ s₀ key id, Reachable s₀ → Leads s₀ s → s₀.table.get? key = some id →
      s.table.get? key = some id ∨ Spent s id ∨
        ∃ c, TookOut s₀ s c key id ∧ WillClear s c key id) ∧
    ∀ id, s.ledgerAt id ≠ .empty → WithinReach s id ∨ ∃ c key, WillClear s c key id := by
  refine ⟨fun e t c k h he hk hstages id hid => ?_, fun id hid => hs.exists_listed hid,
    fun s₀ key id hs₀ h hkey => h.listed_or hs₀ hkey, fun id hid => hs.withinReach_or hid⟩
  exact (next?_eq_some_iff.1 h).edits_listed hs.sound he hk hstages hid

/-- A change is staged for a draft, and then a discard takes the ledger out of the table: what is
staged is still there, and the discard will clear it. -/
theorem willClear_of_discard : ∃ s, Reachable s ∧ s.table.get? (.draft "a") = none ∧
    (s.ledgerAt 0).size = 1 ∧ ∃ c key, WillClear s c key 0 := by
  let events : List StoreEvent :=
    [.start (.stage (.draft "a") [.plain 1 .snapshot] .map), .grant 0, .advance 0, .grant 0,
      .advance 0, .grant 0, .advance 0, .grant 0, .advance 0, .start (.discard (.draft "a")),
      .grant 1, .advance 1]
  have hrun : (events.foldlM next? {}).map
      (fun s => (s.table.toList, s.table.get? (.draft "a"), (s.ledgerAt 0).size)) =
        some ([], none, 1) := by
    decide +kernel
  obtain ⟨s, hs, h⟩ := Option.map_eq_some_iff.1 hrun
  obtain ⟨hempty, hmissing, hsize⟩ : s.table.toList = [] ∧ _ ∧ _ := by simpa using h
  have hreach : Reachable s := Reachable.start.run hs
  have hstaged : s.ledgerAt 0 ≠ .empty := fun h => by rw [h] at hsize; cases hsize
  refine ⟨s, hreach, hmissing, hsize, ?_⟩
  obtain ⟨key, hkey, -⟩ | hclears := (staged_within_reach hreach).2.2.2 0 hstaged
  · rw [SortedMap.get?, hempty] at hkey
    cases hkey
  · exact hclears

end LedgerStore

end ObjectMapping
