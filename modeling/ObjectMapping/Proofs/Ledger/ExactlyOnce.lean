import ObjectMapping.Ledger.Store.Schedule
import ObjectMapping.Proofs.Ledger.History
import ObjectMapping.Proofs.Ledger.Reach
import Mathlib.Data.List.Nodup
import Mathlib.Data.List.Pairwise

/-! # Every entry leaves at most once

An entry is in one ledger from the moment at which it is staged, and it leaves once: a staging of the
opposite takes it out, a discard drops it or a commit carries it out. While a commit waits for the
mapping service it has the lock of its ledger, so what it has asked the service to do is what is in
the ledger when the service answers (`Sound.requested`), and no other commit has asked for the same.

* **`Sound`** — what holds of a history at all times.
* **`Sound.next`** — an event keeps it.
* **`exactly_once`** — every run of shared ledgers has a history that accounts for every entry. -/

namespace ObjectMapping

namespace LedgerStore

variable {s t : LedgerStore} {c : CallId} {k : CallState} {e : StoreEvent} {id i : LedgerId}

/-- A report stays as it is. -/
theorem Advance.report?_eq {call : LedgerCall} {p p' : Phase} {report : CommitReport}
    (h : Advance s c call p p' t) (hr : p.report? = some report) : p'.report? = some report := by
  cases h <;> first | exact hr | cases hr

/-- Where no ledger is edited, every ledger stays as it is. -/
theorem Happens.ledgerAt_of_quiet (h : Happens s e t) (hs : s.Sound)
    (hquiet : ∀ c k, e = .advance c → s.calls[c]? = some k → s.edit? k.call k.phase = none)
    (i : LedgerId) : t.ledgerAt i = s.ledgerAt i := by
  cases h with
  | starts call => rfl
  | grants hk hwants hwaits hu => exact (grants_of_grant? hu).ledgerAt i
  | advances hk hready h => rw [hs.ledgerAt_advance hk h, hquiet _ _ rfl hk]; rfl
  | answers hk hp => exact ledgerAt_moveTo

/-- An answer is kept for its kind of change, for which there was none, and the other is left alone. -/
theorem pick_of_answered? {change : Change} {answer : ServiceAnswer} {p p' : Phase}
    (h : answered? change answer p = some p') :
    ∃ id m u m' u', p = .sends id m u ∧ p' = .sends id m' u' ∧ change.pick m u = none ∧
      change.pick m' u' = some answer ∧
      ∀ other, other ≠ change → other.pick m' u' = other.pick m u := by
  obtain ⟨id, m, u, rfl, ⟨rfl, rfl, rfl⟩ | ⟨rfl, rfl, rfl⟩⟩ := answered?_eq_some_iff.1 h
  · refine ⟨id, none, u, some answer, u, rfl, rfl, rfl, rfl, fun other hne => ?_⟩
    cases other with
    | map => exact absurd rfl hne
    | unmap => rfl
  · refine ⟨id, m, none, m, some answer, rfl, rfl, rfl, rfl, fun other hne => ?_⟩
    cases other with
    | map => rfl
    | unmap => exact absurd rfl hne

/-- Where there is something to do, nothing is known in advance. -/
theorem foregone_eq_none {l : Ledger} {i : Intent} (hi : i ∈ l.intents) :
    i.change.pick (foregone l .map) (foregone l .unmap) = none := by
  have foregone_change : foregone l i.change = none :=
    if_neg (List.ne_nil_of_mem (List.mem_filter.2 ⟨hi, by simp⟩))
  cases hc : i.change <;> rw [hc] at foregone_change <;> exact foregone_change

/-- A commit that waits for the mapping service has the lock of its ledger. -/
theorem Sound.holder?_of_sends {m u : Option ServiceAnswer} (hs : s.Sound)
    (hk : s.calls[c]? = some k) (hp : k.phase = .sends id m u) : s.holder? id = some c :=
  (hs.calls c k hk).held id (by rw [CallState.keeps, hp]; rfl)

/-- A call stays the same call, and what it has reported stays reported. -/
theorem Happens.exists_call (h : Happens s e t) (hk : s.calls[c]? = some k) :
    ∃ k', t.calls[c]? = some k' ∧ k'.call = k.call ∧
      ∀ report, k.phase.report? = some report → k'.phase.report? = some report := by
  by_cases he : e.call? = some c
  · cases h with
    | starts call => cases he
    | grants hk' hwants hwaits hu =>
      cases he
      refine ⟨{ k with granted := true }, ?_, rfl, fun _ h => h⟩
      rw [(grants_of_grant? hu).calls, getElem?_modify_self hk]
    | advances hk' hready h =>
      cases he
      cases hk.symm.trans hk'
      exact ⟨{ k with phase := _, granted := false }, by rw [h.calls_eq, getElem?_modify_self hk],
        rfl, fun _ hr => h.report?_eq hr⟩
    | answers hk' hp =>
      cases he
      cases hk.symm.trans hk'
      obtain ⟨_, _, _, hphase, -⟩ := answered?_eq_some_iff.1 hp
      exact ⟨{ k with phase := _, granted := false }, by rw [calls_moveTo, getElem?_modify_self hk],
        rfl, fun _ hr => by rw [hphase] at hr; cases hr⟩
  · exact ⟨k, h.calls_of_ne he hk, rfl, fun _ h => h⟩

end LedgerStore

/-- The object of an intent that succeeded is in the report. -/
theorem Ledger.object_mem_report {l : Ledger} {m u : ServiceAnswer} {i : Intent}
    (hi : i ∈ l.intents) (hok : (i.change.pick m u).isOk) :
    i.object ∈ i.change.pick (l.report m u).mapped (l.report m u).unmapped := by
  have mem_half : i.object ∈ (l.half i.change).map Intent.object :=
    List.mem_map.2 ⟨i, List.mem_filter.2 ⟨hi, by simp⟩, rfl⟩
  cases hc : i.change with
  | map =>
    rw [hc] at hok mem_half
    cases m with
    | ok _ => exact mem_half
    | error _ => cases hok
  | unmap =>
    rw [hc] at hok mem_half
    cases u with
    | ok _ => exact mem_half
    | error _ => cases hok

namespace History

open LedgerStore

variable {h r : History} {t : LedgerStore} {c : CallId} {k : CallState} {e : StoreEvent}
  {id i : LedgerId} {x y : Entry} {cause : Cause} {d : LedgerDelivery}

/-! ### What an event adds -/

/-- **What an event adds to a history.** -/
inductive Records (h : History) : StoreEvent → History → Prop where
  /-- No ledger is edited, nothing is asked for and nothing is delivered. -/
  | nothing {e : StoreEvent} (hquiet : ∀ c k, e = .advance c → h.store.calls[c]? = some k →
      h.store.edit? k.call k.phase = none ∧
        ∀ id, k.phase = .enters id → ¬ k.call.Commits)
      (hfail : ∀ c change, e ≠ .answer c change (.ok ())) : Records h e h
  /-- A ledger is edited. -/
  | edits {c : CallId} {k : CallState} {id : LedgerId} {edit : LedgerEdit}
      (hk : h.store.calls[c]? = some k) (hedit : h.store.edit? k.call k.phase = some (id, edit)) :
      Records h (.advance c) (h.edited c id edit)
  /-- A commit has the lock of its ledger and asks for what is there. -/
  | asks {c : CallId} {k : CallState} {id : LedgerId} (hk : h.store.calls[c]? = some k)
      (hp : k.phase = .enters id) (hc : k.call.Commits) :
      Records h (.advance c)
        { h with requests := fun d => if d = c then h.entries id else h.requests d }
  /-- A request succeeds. -/
  | delivers {c : CallId} {change : Change} : Records h (.answer c change (.ok ()))
      { h with deliveries := h.deliveries ++
          [⟨c, change, (h.requests c).filter fun e => e.intent.change = change⟩] }

/-- The rules say what is recorded. -/
theorem records_record (h : History) (e : StoreEvent) : Records h e (h.record e) := by
  cases e with
  | start call =>
    refine .nothing ?_ ?_
    · intro c k he; cases he
    · intro c change he; cases he
  | grant c =>
    refine .nothing ?_ ?_
    · intro c k he; cases he
    · intro c change he; cases he
  | answer c change answer =>
    cases answer with
    | ok _ => exact .delivers
    | error _ =>
      refine .nothing ?_ ?_
      · intro c k he; cases he
      · intro c change he; cases he
  | advance c =>
    cases hk : h.store.calls[c]? with
    | none =>
      simp only [record, hk]
      refine .nothing ?_ ?_
      · intro c' k he hk'; cases he; cases hk.symm.trans hk'
      · intro c change he; cases he
    | some k =>
      simp only [record, hk, wentOn]
      cases hedit : h.store.edit? k.call k.phase with
      | some x => exact .edits hk hedit
      | none =>
        dsimp only
        split
        · next hp hc => exact .asks hk hp (by rw [hc]; trivial)
        · next hother =>
          refine .nothing ?_ ?_
          · intro c' k' he hk'
            cases he
            cases hk.symm.trans hk'
            refine ⟨hedit, fun id hp hc => ?_⟩
            cases hcall : k.call <;> rw [hcall] at hc <;> first | exact hc | skip
            exact hother id _ _ hp hcall
          · intro c change he; cases he

/-! ### What holds of a history -/

/-- The numbers of the entries that are in ledgers. -/
def liveSerials (h : History) : List Nat :=
  (List.range h.store.cells.length).flatMap fun id => (h.entries id).map Entry.serial

/-- The numbers of the entries that have left. -/
def goneSerials (h : History) : List Nat := h.departures.map fun x => x.1.serial

/-- What is **borne out** of the cause for which an entry has left: a call has staged the opposite
change of the same object; a call has discarded; or a commit has asked the service for it with
success, and reports its object among those of its kind of change. -/
def Justified (h : History) (x : Entry) : Cause → Prop
  | .cancelled c i => ∃ k, h.store.calls[c]? = some k ∧ i ∈ k.call.staged ∧
      x.intent.object.key = i.object.key ∧ x.intent.change = i.change.opposite
  | .discarded c => ∃ k, h.store.calls[c]? = some k ∧ k.call.Discards
  | .delivered c => ∃ k report d, h.store.calls[c]? = some k ∧ k.call.Commits ∧
      k.phase.report? = some report ∧
      x.intent.object ∈ x.intent.change.pick report.mapped report.unmapped ∧
      d ∈ h.deliveries ∧ d.commit = c ∧ d.change = x.intent.change ∧ x ∈ d.entries

/-- An entry has been delivered, and the commit is still to take it out of the ledger. -/
def Awaits (h : History) (d : LedgerDelivery) (x : Entry) : Prop :=
  ∃ k id m u, h.store.calls[d.commit]? = some k ∧ k.phase = .sends id m u ∧
    d.change.pick m u = some (.ok ()) ∧ x ∈ h.entries id

/-- What a commit **has the mapping service do** for one kind of change, by what it has asked for: it
has all objects of these entries in order mapped, with their directions, or unmapped, and nothing
where it has asked for none. -/
def ask {σ : Type} (h : History) (service : MappingService σ) (saved : ObjectRef) (c : CallId)
    (change : Change) (s : σ) : ServiceAnswer × σ :=
  let asked := (h.requests c).filter fun x => x.intent.change = change
  if asked = [] then (.ok (), s)
  else
    match change with
    | .map => service.map saved (asked.map fun x => x.intent.target) s
    | .unmap => service.unmap saved (asked.map fun x => x.intent.object) s

/-- **What holds of a history** at all times. -/
structure Sound (h : History) : Prop where
  /-- The shared ledgers can come about. -/
  reachable : Reachable h.store
  /-- The entries of a ledger are its intents, in the same order. -/
  ledger : ∀ id, (h.entries id).map Entry.intent = (h.store.ledgerAt id).intents
  /-- Every number that was given belongs to one entry in one ledger or to one that has left. -/
  numbered : (h.liveSerials ++ h.goneSerials).Perm (List.range h.count)
  /-- Every entry that has left has left for the cause that is kept. -/
  justified : ∀ x ∈ h.departures, h.Justified x.1 x.2
  /-- What a commit that waits for the service has asked for is what is in its ledger, and where the
  service has agreed the request is among those that succeeded. -/
  requested : ∀ c k id m u, h.store.calls[c]? = some k → k.phase = .sends id m u →
    h.requests c = h.entries id ∧
      ∀ x ∈ h.entries id, x.intent.change.pick m u = some (.ok ()) →
        ∃ d ∈ h.deliveries, d.commit = c ∧ d.change = x.intent.change ∧ x ∈ d.entries
  /-- What was asked for with success has left for that cause or is about to leave. -/
  delivered : ∀ d ∈ h.deliveries, ∀ x ∈ d.entries, x.intent.change = d.change ∧
    ((x, .delivered d.commit) ∈ h.departures ∨ h.Awaits d x)
  /-- No entry was asked for twice with success. -/
  carriedOnce : (h.deliveries.flatMap fun d => d.entries.map Entry.serial).Nodup

/-- In the beginning there are no entries. -/
theorem sound_start : Sound {} where
  reachable := .start
  ledger _ := rfl
  numbered := List.Perm.refl _
  justified x hx := by cases hx
  requested c k id m u hk := by simp at hk
  delivered d hd := by cases hd
  carriedOnce := List.nodup_nil

namespace Records

/-- The entries of a ledger whose lock a call has are left alone by the other calls. -/
theorem entries_of_held (hr : Records h e r) (hs : h.store.Sound) (ht : Happens h.store e t)
    (hd : h.store.holder? i = some c) (he : e.call? ≠ some c) : r.entries i = h.entries i := by
  cases hr with
  | nothing hquiet hfail => rfl
  | asks hk hp hc => rfl
  | delivers => rfl
  | edits hk hedit =>
    refine if_neg ?_
    rintro rfl
    cases ht with
    | advances hk' hready _ =>
      cases hk.symm.trans hk'
      exact he ((hs.holder?_of_ready hk hready (subject?_of_edit? hedit)).symm.trans hd)

/-- What a commit has asked for does not change when other calls go on. -/
theorem requests_of_ne (hr : Records h e r) (he : e.call? ≠ some c) :
    r.requests c = h.requests c := by
  cases hr with
  | asks hk hp hc => exact if_neg fun h => he (by rw [h]; rfl)
  | _ => rfl

/-- An entry that has left stays away. -/
theorem departures_subset (hr : Records h e r) : h.departures ⊆ r.departures := by
  cases hr with
  | edits hk hedit => exact List.subset_append_left _ _
  | _ => exact List.Subset.refl _

/-- A request that has succeeded stays so. -/
theorem deliveries_subset (hr : Records h e r) : h.deliveries ⊆ r.deliveries := by
  cases hr with
  | delivers => exact List.subset_append_left _ _
  | _ => exact List.Subset.refl _

/-- What was delivered leaves the ledger when the commit goes on. -/
theorem departed_of_awaits (hr : Records h (.advance d.commit) r)
    (ht : Happens h.store (.advance d.commit) t) (hx : h.Awaits d x)
    (hchange : x.intent.change = d.change) : (x, .delivered d.commit) ∈ r.departures := by
  obtain ⟨k, id, m, u, hk, hp, hok, hx⟩ := hx
  cases ht with
  | advances hk' hready hadvance =>
    cases hk.symm.trans hk'
    rw [hp] at hadvance
    obtain ⟨mapAnswer, unmapAnswer, rfl, rfl, -⟩ := hadvance.of_sends
    have hedit : h.store.edit? k.call k.phase = some (id, .settling mapAnswer unmapAnswer) := by
      rw [hp]
      rfl
    cases hr with
    | nothing hquiet hfail => cases hedit.symm.trans (hquiet _ k rfl hk).1
    | asks hk' hp' hc => cases hk.symm.trans hk'; cases hp.symm.trans hp'
    | edits hk' hedit' =>
      cases hk.symm.trans hk'
      cases hedit.symm.trans hedit'
      have hisOk : (x.intent.change.pick mapAnswer unmapAnswer).isOk := by
        rw [hchange]
        cases hc : d.change <;> rw [hc] at hok <;> cases hok <;> rfl
      refine List.mem_append_right _ (List.mem_append_right _ ?_)
      exact List.mem_map.2 ⟨x, List.mem_filter.2 ⟨hx, hisOk⟩, rfl⟩

end Records

/-- What was borne out stays so. -/
theorem Justified.next (hx : h.Justified x cause) (hr : Records h e r)
    (ht : Happens h.store e t) : Justified { r with store := t } x cause := by
  cases cause with
  | cancelled c i =>
    obtain ⟨k, hk, hi, hkey, hchange⟩ := hx
    obtain ⟨k', hk', hcall, -⟩ := ht.exists_call hk
    exact ⟨k', hk', hcall ▸ hi, hkey, hchange⟩
  | discarded c =>
    obtain ⟨k, hk, hc⟩ := hx
    obtain ⟨k', hk', hcall, -⟩ := ht.exists_call hk
    exact ⟨k', hk', hcall ▸ hc⟩
  | delivered c =>
    obtain ⟨k, report, d, hk, hc, hreport, hobject, hd, hrest⟩ := hx
    obtain ⟨k', hk', hcall, hreport'⟩ := ht.exists_call hk
    exact ⟨k', report, d, hk', hcall ▸ hc, hreport' _ hreport, hobject, hr.deliveries_subset hd,
      hrest⟩

namespace Sound

/-- Entries are only in ledgers that were opened. -/
theorem entries_of_le (hs : h.Sound) (hid : h.store.cells.length ≤ id) : h.entries id = [] := by
  have hledger := hs.ledger id
  rw [ledgerAt_of_le hid] at hledger
  exact List.map_eq_nil_iff.1 hledger

/-- The intent of an entry is in the ledger. -/
theorem intent_mem (hs : h.Sound) (hx : x ∈ h.entries id) :
    x.intent ∈ (h.store.ledgerAt id).intents := by
  rw [← hs.ledger id]
  exact List.mem_map.2 ⟨x, hx, rfl⟩

/-- An edit is of the kind that its call makes. -/
theorem proper (hs : h.Sound) {edit : LedgerEdit} (hk : h.store.calls[c]? = some k)
    (hedit : h.store.edit? k.call k.phase = some (id, edit)) : edit.Proper := by
  have hsuits := (hs.reachable.sound.calls c k hk).suits
  obtain ⟨hp, -, rfl⟩ | ⟨-, -, rfl⟩ | ⟨m, u, -, rfl⟩ := edit?_eq_some_iff.1 hedit
  · rw [hp] at hsuits
    exact hsuits
  · trivial
  · trivial

/-- Forgetting the numbers, the entries go on to be the intents of the ledgers. -/
theorem ledger_next (hs : h.Sound) (hr : Records h e r) (ht : Happens h.store e t)
    (i : LedgerId) : (r.entries i).map Entry.intent = (t.ledgerAt i).intents := by
  have hstore := hs.reachable.sound
  cases hr with
  | nothing hquiet hfail =>
    rw [ht.ledgerAt_of_quiet hstore fun c k he hk => (hquiet c k he hk).1]
    exact hs.ledger i
  | asks hk hp hc =>
    have hquiet := ht.ledgerAt_of_quiet hstore (fun c' k' he hk' => by
      cases he
      cases hk.symm.trans hk'
      rw [hp, edit?_enters_of_commits hc]) i
    rw [hquiet]
    exact hs.ledger i
  | delivers =>
    rw [ht.ledgerAt_of_quiet hstore fun c k he => by cases he]
    exact hs.ledger i
  | @edits c k id edit hk hedit =>
    cases ht with
    | advances hk' _ hadvance =>
      cases hk.symm.trans hk'
      rw [hstore.ledgerAt_advance hk hadvance, hedit]
      by_cases hi : i = id
      · subst hi
        -- the account of the entries of this ledger starts with none that have left
        have haccount := LedgerEdit.ledger_account (c := c)
          (a := ⟨h.entries i, h.count, []⟩) (hs.proper hk hedit)
        have hledger : (⟨(h.entries i).map Entry.intent⟩ : Ledger) = h.store.ledgerAt i :=
          congrArg Ledger.mk (hs.ledger i)
        simp only [edited, ledgerAfter, if_pos, ← hledger]
        exact congrArg Ledger.intents haccount
      · simp only [edited, ledgerAfter, if_neg hi]
        exact hs.ledger i

/-- Numbers at places that are empty do not count. -/
theorem flatMap_range_of_empty {f : Nat → List Nat} {m n : Nat} (hle : n ≤ m)
    (hf : ∀ i, n ≤ i → f i = []) : (List.range m).flatMap f = (List.range n).flatMap f := by
  induction m with
  | zero => rw [Nat.le_zero.1 hle]
  | succ m ih =>
    by_cases hn : n = m + 1
    · rw [hn]
    · have hle : n ≤ m := by omega
      rw [List.range_succ, List.flatMap_append, ih hle, List.flatMap_singleton, hf m hle,
        List.append_nil]

/-- The numbers at one place can be set apart from those at the others. -/
theorem exists_rest {n : Nat} (hid : id < n) (f : Nat → List Nat) :
    ∃ rest, ∀ numbers, ((List.range n).flatMap fun i => if i = id then numbers else f i).Perm
      (numbers ++ rest) := by
  obtain ⟨before, after, hrange⟩ := List.append_of_mem (List.mem_range.2 hid)
  have hnodup := List.nodup_range (n := n)
  rw [hrange] at hnodup
  -- the place occurs once in the range
  have hother : ∀ i ∈ before ++ after, i ≠ id := by grind
  refine ⟨before.flatMap f ++ after.flatMap f, fun numbers => ?_⟩
  have flatMap_eq : ∀ l : List Nat, (∀ i ∈ l, i ≠ id) →
      (l.flatMap fun i => if i = id then numbers else f i) = l.flatMap f :=
    fun l hl => List.flatMap_congr fun i hi => if_neg (hl i hi)
  rw [hrange, List.flatMap_append, List.flatMap_cons, if_pos rfl,
    flatMap_eq before fun i hi => hother i (List.mem_append_left _ hi),
    flatMap_eq after fun i hi => hother i (List.mem_append_right _ hi)]
  grind

/-- An event puts no entries into ledgers that were not opened before. -/
theorem entries_next_of_le (hs : h.Sound) (hr : Records h e r) (hi : h.store.cells.length ≤ i) :
    r.entries i = [] := by
  cases hr with
  | edits hk hedit =>
    have hid := (hs.reachable.sound.calls _ _ hk).opened _ (subject?_of_edit? hedit)
    refine Eq.trans (if_neg ?_) (hs.entries_of_le hi)
    rintro rfl
    exact Nat.not_lt_of_le hi hid
  | _ => exact hs.entries_of_le hi

/-- Where a ledger is edited no number is lost and none is given twice. -/
theorem numbered_edited (hs : h.Sound) {edit : LedgerEdit} (hid : id < h.store.cells.length) :
    ((h.edited c id edit).liveSerials ++ (h.edited c id edit).goneSerials).Perm
      (List.range (h.edited c id edit).count) := by
  obtain ⟨rest, hrest⟩ := exists_rest hid fun i => (h.entries i).map Entry.serial
  -- the entries of the ledger that is edited, before and after, set apart from the others
  have hbefore : h.liveSerials.Perm ((h.entries id).map Entry.serial ++ rest) := by
    refine List.Perm.trans (List.Perm.of_eq ?_) (hrest _)
    refine List.flatMap_congr fun i _ => ?_
    split
    · next hi => rw [hi]
    · rfl
  have hafter : (h.edited c id edit).liveSerials.Perm
      ((edit.account c ⟨h.entries id, h.count, []⟩).entries.map Entry.serial ++ rest) := by
    refine List.Perm.trans (List.Perm.of_eq ?_) (hrest _)
    refine List.flatMap_congr fun i _ => ?_
    simp only [edited]
    split <;> rfl
  have hnumbered : Account.Numbered ⟨h.entries id, h.count, []⟩ (rest ++ h.goneSerials) := by
    refine List.Perm.trans ?_ hs.numbered
    refine List.Perm.trans ?_ (hbefore.symm.append_right _)
    simp [Account.serials]
  have hnumbered' : (edit.account c ⟨h.entries id, h.count, []⟩).Numbered
      (rest ++ h.goneSerials) := LedgerEdit.numbered_account hnumbered
  refine List.Perm.trans ?_ hnumbered'
  refine List.Perm.trans (hafter.append_right _) ?_
  simp only [goneSerials, edited, Account.serials, List.map_append]
  grind

/-- No number is lost and none is given twice. -/
theorem numbered_next (hs : h.Sound) (hr : Records h e r) (ht : Happens h.store e t) :
    (liveSerials { r with store := t } ++ goneSerials { r with store := t }).Perm
      (List.range r.count) := by
  -- ledgers that have just been opened are empty
  have hlive : liveSerials { r with store := t } =
      (List.range h.store.cells.length).flatMap fun i => (r.entries i).map Entry.serial := by
    refine flatMap_range_of_empty ht.length_le fun i hi => ?_
    rw [hs.entries_next_of_le hr hi]
    rfl
  rw [hlive]
  cases hr with
  | edits hk hedit =>
    exact hs.numbered_edited ((hs.reachable.sound.calls _ _ hk).opened _ (subject?_of_edit? hedit))
  | _ => exact hs.numbered

/-- An entry is in a ledger that was opened. -/
theorem mem_range_of_mem (hs : h.Sound) (hx : x ∈ h.entries id) :
    id ∈ List.range h.store.cells.length := by
  refine List.mem_range.2 (Nat.lt_of_not_le fun hle => ?_)
  rw [hs.entries_of_le hle] at hx
  cases hx

/-- No number is given twice in one ledger. -/
theorem nodup_serials (hs : h.Sound) (id : LedgerId) :
    ((h.entries id).map Entry.serial).Nodup := by
  by_cases hid : id < h.store.cells.length
  · have hnodup := (List.nodup_append.1 (hs.numbered.nodup_iff.2 List.nodup_range)).1
    exact (List.nodup_flatMap.1 hnodup).1 id (List.mem_range.2 hid)
  · rw [hs.entries_of_le (Nat.le_of_not_lt hid)]
    exact List.nodup_nil

/-- A number belongs to one entry in one ledger at most. -/
theorem eq_of_serial_eq (hs : h.Sound) (hx : x ∈ h.entries id) (hy : y ∈ h.entries i)
    (hserial : x.serial = y.serial) : id = i ∧ x = y := by
  have hnodup := (List.nodup_append.1 (hs.numbered.nodup_iff.2 List.nodup_range)).1
  have hdisjoint := (List.nodup_flatMap.1 hnodup).2
  have hid : id = i := Decidable.byContradiction fun hne => by
    have : Std.Symm (Function.onFun List.Disjoint fun id => (h.entries id).map Entry.serial) :=
      ⟨fun _ _ h _ hx hy => h hy hx⟩
    exact hdisjoint.forall (hs.mem_range_of_mem hx) (hs.mem_range_of_mem hy) hne
      (List.mem_map.2 ⟨x, hx, hserial⟩) (List.mem_map.2 ⟨y, hy, rfl⟩)
  subst hid
  exact ⟨rfl, List.inj_on_of_nodup_map (hs.nodup_serials id) hx hy hserial⟩

/-- An entry that is in a ledger has not left. -/
theorem serial_ne_of_departed (hs : h.Sound) (hx : x ∈ h.entries id)
    (hy : (y, cause) ∈ h.departures) : x.serial ≠ y.serial := by
  have hnodup := hs.numbered.nodup_iff.2 List.nodup_range
  refine (List.nodup_append.1 hnodup).2.2 _ ?_ _ (List.mem_map.2 ⟨_, hy, rfl⟩)
  exact List.mem_flatMap.2 ⟨id, hs.mem_range_of_mem hx, List.mem_map.2 ⟨x, hx, rfl⟩⟩

/-- What a commit that begins to wait for the service asks for is what is in its ledger, and the
service has agreed to nothing yet. -/
theorem requested_of_enters (hs : h.Sound) (hr : Records h (.advance c) r)
    {m u : Option ServiceAnswer} (hk : h.store.calls[c]? = some k)
    (hadvance : Advance h.store c k.call k.phase (.sends id m u) t) :
    r.requests c = r.entries id ∧
      ∀ x ∈ r.entries id, x.intent.change.pick m u ≠ some (.ok ()) := by
  obtain ⟨henters, hc, rfl, rfl⟩ := hadvance.sends_inv
  cases hr with
  | nothing hquiet hfail => exact absurd hc ((hquiet c k rfl hk).2 id henters)
  | edits hk' hedit =>
    cases hk.symm.trans hk'
    rw [henters, edit?_enters_of_commits hc] at hedit
    cases hedit
  | asks hk' hp hc' =>
    cases hk.symm.trans hk'
    cases henters.symm.trans hp
    refine ⟨if_pos rfl, fun x hx hok => ?_⟩
    rw [foregone_eq_none (hs.intent_mem hx)] at hok
    cases hok

/-- What a commit that has been answered has asked for is what is in its ledger, and an answer that
agrees is kept with its request. -/
theorem requested_of_answered (hs : h.Sound) {change : Change} {answer : ServiceAnswer}
    (hr : Records h (.answer c change answer) r) {m u m' u' : Option ServiceAnswer}
    (hk : h.store.calls[c]? = some k) (hp : k.phase = .sends id m u)
    (hpick : change.pick m' u' = some answer)
    (hother : ∀ other, other ≠ change → other.pick m' u' = other.pick m u) :
    r.requests c = r.entries id ∧
      ∀ x ∈ r.entries id, x.intent.change.pick m' u' = some (.ok ()) →
        ∃ d ∈ r.deliveries, d.commit = c ∧ d.change = x.intent.change ∧ x ∈ d.entries := by
  obtain ⟨hrequests, hdelivered⟩ := hs.requested c k id m u hk hp
  cases hr with
  | nothing hquiet hfail =>
    -- the answer is a failure, so what the service has agreed to it had agreed to before
    refine ⟨hrequests, fun x hx hok => hdelivered x hx ?_⟩
    rwa [← hother]
    intro hchange
    rw [hchange, hpick] at hok
    cases hok
    exact hfail c _ rfl
  | delivers =>
    refine ⟨hrequests, fun x hx hok => ?_⟩
    by_cases hchange : x.intent.change = change
    · refine ⟨_, List.mem_append_right _ List.mem_cons_self, rfl, hchange.symm, ?_⟩
      exact List.mem_filter.2 ⟨hrequests ▸ hx, decide_eq_true hchange⟩
    · obtain ⟨d, hd, hrest⟩ := hdelivered x hx (hother _ hchange ▸ hok)
      exact ⟨d, List.mem_append_left _ hd, hrest⟩

/-- What a commit has asked for goes on to be what is in its ledger. -/
theorem requested_next (hs : h.Sound) (hr : Records h e r) (ht : Happens h.store e t)
    {m u : Option ServiceAnswer} (hk : t.calls[c]? = some k) (hp : k.phase = .sends id m u) :
    r.requests c = r.entries id ∧
      ∀ x ∈ r.entries id, x.intent.change.pick m u = some (.ok ()) →
        ∃ d ∈ r.deliveries, d.commit = c ∧ d.change = x.intent.change ∧ x ∈ d.entries := by
  obtain ⟨hne, hk'⟩ | ⟨call, -, rfl⟩ | he := ht.call_or hk
  · -- another call goes on, and it leaves the ledger of the commit alone
    obtain ⟨hrequests, hdelivered⟩ := hs.requested c k id m u hk' hp
    have hheld := hs.reachable.sound.holder?_of_sends hk' hp
    rw [hr.requests_of_ne hne, hr.entries_of_held hs.reachable.sound ht hheld hne]
    refine ⟨hrequests, fun x hx hok => ?_⟩
    obtain ⟨d, hd, hrest⟩ := hdelivered x hx hok
    exact ⟨d, hr.deliveries_subset hd, hrest⟩
  · cases call <;> cases hp
  · cases ht with
    | starts call => cases he
    | grants hk' hwants hwaits hu =>
      -- a commit that waits for the service waits for no lock
      cases he
      rw [(grants_of_grant? hu).calls, getElem?_modify_self hk'] at hk
      cases hk
      simp only at hp
      rw [hp] at hwants
      cases hwants
    | @advances _ k' p' _ hk' hready hadvance =>
      cases he
      rw [hadvance.calls_eq, getElem?_modify_self hk'] at hk
      cases hk
      obtain rfl : p' = .sends id m u := hp
      obtain ⟨hrequests, hno⟩ := hs.requested_of_enters hr hk' hadvance
      exact ⟨hrequests, fun x hx hok => absurd hok (hno x hx)⟩
    | answers hk' hanswered =>
      cases he
      rw [calls_moveTo, getElem?_modify_self hk'] at hk
      cases hk
      obtain ⟨j, m₀, u₀, m', u', hp₀, rfl, -, hpick, hother⟩ := pick_of_answered? hanswered
      cases hp
      exact hs.requested_of_answered hr hk' hp₀ hpick hother

/-- What a commit that goes on takes out of its ledger it reports, and it has asked for it with
success. -/
theorem justified_of_settling (hs : h.Sound) {m u : ServiceAnswer}
    (ht : Happens h.store (.advance c) t) (hk : h.store.calls[c]? = some k)
    (hp : k.phase = .sends id (some m) (some u)) (hx : x ∈ h.entries id)
    (hok : (x.intent.change.pick m u).isOk) : Justified { h with store := t } x (.delivered c) := by
  have hpick : x.intent.change.pick (some m) (some u) = some (.ok ()) := by
    cases hchange : x.intent.change <;> rw [hchange] at hok
    · cases m <;> first | rfl | cases hok
    · cases u <;> first | rfl | cases hok
  obtain ⟨d, hd, hrest⟩ := (hs.requested c k id _ _ hk hp).2 x hx hpick
  have hsuits := (hs.reachable.sound.calls c k hk).suits
  rw [hp] at hsuits
  cases ht with
  | @advances _ k₀ p' _ hk₀ hready hadvance =>
    cases hk.symm.trans hk₀
    rw [hp] at hadvance
    obtain ⟨_, _, hm, hu, hreport⟩ := hadvance.of_sends
    cases hm
    cases hu
    refine ⟨{ k with phase := p', granted := false }, _, d, ?_, hsuits, hreport,
      Ledger.object_mem_report (hs.intent_mem hx) hok, hd, hrest⟩
    show t.calls[c]? = _
    rw [hadvance.calls_eq, getElem?_modify_self hk]

/-- Every entry that has left goes on to have left for the cause that is kept. -/
theorem justified_next (hs : h.Sound) (hr : Records h e r) (ht : Happens h.store e t)
    (hx : (x, cause) ∈ r.departures) : Justified { r with store := t } x cause := by
  have hold : (x, cause) ∈ h.departures → Justified { r with store := t } x cause :=
    fun hx => (hs.justified _ hx).next hr ht
  cases hr with
  | nothing hquiet hfail => exact hold hx
  | asks hk hp hc => exact hold hx
  | delivers => exact hold hx
  | @edits c k id edit hk hedit =>
    obtain hx | hx := List.mem_append.1 hx
    · exact hold hx
    · obtain hx | hexplains := LedgerEdit.explains_of_mem_left hx
      · cases hx
      · -- the entry leaves in this event, by one of the three kinds of edits
        obtain ⟨k', hk', hcall, -⟩ := ht.exists_call hk
        obtain ⟨-, -, rfl⟩ | ⟨-, hdiscards, rfl⟩ | ⟨m, u, hp, rfl⟩ := edit?_eq_some_iff.1 hedit
        · obtain ⟨i, hi, hfor, hcause⟩ := hexplains
          obtain rfl : cause = .cancelled c i := hcause
          simp only [Entry.isFor, Intent.isFor, Bool.and_eq_true, beq_iff_eq] at hfor
          exact ⟨k', hk', hcall ▸ hi, hfor.2, hfor.1⟩
        · obtain rfl : cause = .discarded c := hexplains
          exact ⟨k', hk', hcall ▸ hdiscards⟩
        · obtain ⟨hx, hok, hcause⟩ := hexplains
          obtain rfl : cause = .delivered c := hcause
          exact hs.justified_of_settling ht hk hp hx hok

/-- What was delivered and is still in the ledger goes on to be there until the commit takes it
out. -/
theorem awaits_next (hs : h.Sound) (hr : Records h e r) (ht : Happens h.store e t)
    (hx : h.Awaits d x) (hchange : x.intent.change = d.change) :
    (x, .delivered d.commit) ∈ r.departures ∨ Awaits { r with store := t } d x := by
  obtain ⟨k, id, m, u, hk, hp, hok, hmem⟩ := id hx
  by_cases he : e.call? = some d.commit
  · cases ht with
    | starts call => cases he
    | grants hk' hwants hwaits hu =>
      -- a commit that waits for the service waits for no lock
      cases he
      cases hk.symm.trans hk'
      rw [hp] at hwants
      cases hwants
    | advances hk' hready hadvance =>
      cases he
      exact .inl (hr.departed_of_awaits (.advances hk' hready hadvance) hx hchange)
    | @answers _ _ p' change answer hk' hanswered =>
      -- the answer is to the other kind of change
      cases he
      cases hk.symm.trans hk'
      obtain ⟨j, m₀, u₀, m', u', hp₀, rfl, hnone, -, hother⟩ := pick_of_answered? hanswered
      cases hp.symm.trans hp₀
      have hne : d.change ≠ change := fun h => by
        rw [h, hnone] at hok
        cases hok
      have hentries : r.entries id = h.entries id := by cases hr <;> rfl
      refine .inr ⟨{ k with phase := .sends id m' u', granted := false }, id, m', u', ?_, rfl,
        (hother _ hne).trans hok, hentries ▸ hmem⟩
      exact (congrArg (fun calls : List CallState => calls[d.commit]?) calls_moveTo).trans
        (getElem?_modify_self hk)
  · have hheld := hs.reachable.sound.holder?_of_sends hk hp
    refine .inr ⟨k, id, m, u, ht.calls_of_ne he hk, hp, hok, ?_⟩
    show x ∈ r.entries id
    rw [hr.entries_of_held hs.reachable.sound ht hheld he]
    exact hmem

/-- What is delivered in an event is in the ledger of the commit, and has not been delivered
before. -/
theorem new_delivery (hs : h.Sound) {change : Change}
    (ht : Happens h.store (.answer c change (.ok ())) t)
    (hx : x ∈ (h.requests c).filter fun e => e.intent.change = change) :
    x.intent.change = change ∧ ∃ k id m u m' u', h.store.calls[c]? = some k ∧
      k.phase = .sends id m u ∧ change.pick m u = none ∧ x ∈ h.entries id ∧
      t.calls[c]? = some { k with phase := .sends id m' u', granted := false } ∧
      change.pick m' u' = some (.ok ()) := by
  obtain ⟨hx, hchange⟩ := List.mem_filter.1 hx
  cases ht with
  | @answers _ k p' _ _ hk hanswered =>
    obtain ⟨id, m, u, m', u', hp, rfl, hnone, hok, -⟩ := pick_of_answered? hanswered
    rw [(hs.requested c k id m u hk hp).1] at hx
    refine ⟨of_decide_eq_true hchange, k, id, m, u, m', u', hk, hp, hnone, hx, ?_, hok⟩
    rw [calls_moveTo, getElem?_modify_self hk]

/-- What was asked for with success goes on to have left or to be about to leave. -/
theorem delivered_next (hs : h.Sound) (hr : Records h e r) (ht : Happens h.store e t)
    (hd : d ∈ r.deliveries) (hx : x ∈ d.entries) : x.intent.change = d.change ∧
      ((x, .delivered d.commit) ∈ r.departures ∨ Awaits { r with store := t } d x) := by
  have hold : d ∈ h.deliveries → x.intent.change = d.change ∧
      ((x, .delivered d.commit) ∈ r.departures ∨ Awaits { r with store := t } d x) := by
    intro hd
    obtain ⟨hchange, hgone | hawaits⟩ := hs.delivered d hd x hx
    · exact ⟨hchange, .inl (hr.departures_subset hgone)⟩
    · exact ⟨hchange, hs.awaits_next hr ht hawaits hchange⟩
  cases hr with
  | nothing hquiet hfail => exact hold hd
  | asks hk hp hc => exact hold hd
  | edits hk hedit => exact hold hd
  | delivers =>
    obtain hd | hd := List.mem_append.1 hd
    · exact hold hd
    · obtain rfl := List.mem_singleton.1 hd
      obtain ⟨hchange, k, id, m, u, m', u', -, -, -, hx, hk, hok⟩ := hs.new_delivery ht hx
      exact ⟨hchange, .inr ⟨_, id, m', u', hk, rfl, hok, hx⟩⟩

/-- No entry goes on to be asked for twice with success. -/
theorem carriedOnce_next (hs : h.Sound) (hr : Records h e r) (ht : Happens h.store e t) :
    (r.deliveries.flatMap fun d => d.entries.map Entry.serial).Nodup := by
  cases hr with
  | nothing hquiet hfail => exact hs.carriedOnce
  | asks hk hp hc => exact hs.carriedOnce
  | edits hk hedit => exact hs.carriedOnce
  | @delivers c change =>
    rw [List.flatMap_append, List.flatMap_singleton]
    refine List.nodup_append.2 ⟨hs.carriedOnce, ?_, ?_⟩
    · cases ht with
      | answers hk hanswered =>
        obtain ⟨id, m, u, -, -, hp, -⟩ := pick_of_answered? hanswered
        rw [(hs.requested c _ id m u hk hp).1]
        exact (hs.nodup_serials id).sublist (List.filter_sublist.map Entry.serial)
    · -- an entry that was delivered before has left, or its commit has this answer already
      rintro n hn n' hn' rfl
      obtain ⟨d, hd, hn⟩ := List.mem_flatMap.1 hn
      obtain ⟨y, hy, rfl⟩ := List.mem_map.1 hn
      obtain ⟨x, hx, hserial⟩ := List.mem_map.1 hn'
      obtain ⟨hchange, k, id, m, u, -, -, hk, hp, hnone, hx, -, -⟩ := hs.new_delivery ht hx
      obtain ⟨hchange', hgone | ⟨k', i, m₀, u₀, hk', hp', hok, hy⟩⟩ := hs.delivered d hd y hy
      · exact hs.serial_ne_of_departed hx hgone hserial
      · -- both entries are one, so both commits have the lock of one ledger
        obtain ⟨rfl, rfl⟩ := hs.eq_of_serial_eq hx hy hserial
        have hholder := hs.reachable.sound.holder?_of_sends hk hp
        have hholder' := hs.reachable.sound.holder?_of_sends hk' hp'
        obtain rfl : c = d.commit := Option.some.inj (hholder.symm.trans hholder')
        cases hk.symm.trans hk'
        cases hp.symm.trans hp'
        rw [← hchange', hchange, hnone] at hok
        cases hok

/-- **An event keeps what holds at all times.** -/
theorem next (hs : h.Sound) (hr : Records h e r) (ht : Happens h.store e t) :
    Sound { r with store := t } where
  reachable := hs.reachable.step ⟨e, next?_eq_some_iff.2 ht⟩
  ledger := hs.ledger_next (r := r) hr ht
  numbered := hs.numbered_next (r := r) hr ht
  justified _ hx := hs.justified_next (r := r) hr ht hx
  requested _ _ _ _ _ hk hp := hs.requested_next (r := r) hr ht hk hp
  delivered _ hd _ hx := hs.delivered_next (r := r) hr ht hd hx
  carriedOnce := hs.carriedOnce_next (r := r) hr ht

/-- **Every run keeps it.** -/
theorem run (hs : h.Sound) {events : List StoreEvent} {h' : History}
    (hrun : events.foldlM next? h = some h') : h'.Sound := by
  induction events generalizing h with
  | nil => cases hrun; exact hs
  | cons e events ih =>
    obtain ⟨r, hr, hrun⟩ := Option.bind_eq_some_iff.1 hrun
    obtain ⟨t, ht, rfl⟩ := Option.map_eq_some_iff.1 hr
    exact ih (hs.next (h.records_record e) (next?_eq_some_iff.1 ht)) hrun

/-- What a commit that waits for the service has asked for is what is pending in its ledger. -/
theorem half_eq_requests (hs : h.Sound) {m u : Option ServiceAnswer}
    (hk : h.store.calls[c]? = some k) (hp : k.phase = .sends id m u) (change : Change) :
    (h.store.ledgerAt id).half change =
      ((h.requests c).filter fun x => x.intent.change = change).map Entry.intent := by
  rw [(hs.requested c k id m u hk hp).1, Ledger.half, ← hs.ledger id, List.filter_map]
  rfl

/-- The targets of a request are those that the ledger gives for its kind of change. -/
theorem asked (hs : h.Sound) {m u : Option ServiceAnswer} (hk : h.store.calls[c]? = some k)
    (hp : k.phase = .sends id m u) (change : Change) :
    ((h.requests c).filter fun x => x.intent.change = change).map (fun x => x.intent.target) =
      ((h.store.ledgerAt id).half change).map Intent.target := by
  rw [hs.half_eq_requests hk hp, List.map_map]
  rfl

/-- **What is sent for a ledger is what its commit has asked for.** -/
theorem send_eq_ask (hs : h.Sound) {m u : Option ServiceAnswer} (hk : h.store.calls[c]? = some k)
    (hp : k.phase = .sends id m u) {σ : Type} (service : MappingService σ) (saved : ObjectRef)
    (change : Change) (s : σ) :
    (h.store.ledgerAt id).send service saved change s = h.ask service saved c change s := by
  unfold Ledger.send Ledger.pendingMaps Ledger.pendingUnmaps ask
  cases change <;>
    simp only [hs.half_eq_requests hk hp, List.map_eq_nil_iff, List.map_map] <;>
    rfl

/-- A commit that has been answered leaves the entries of the kinds of change that failed. -/
theorem entries_of_answered (hs : h.Sound) {m u : ServiceAnswer} {h' : History}
    (hk : h.store.calls[c]? = some k) (hp : k.phase = .sends id (some m) (some u))
    (hnext : h.next? (.advance c) = some h') :
    h'.entries id = (h.entries id).filter (fun x => !(x.intent.change.pick m u).isOk) ∧
      (h'.store.ledgerAt id).intents =
        (h.store.ledgerAt id).intents.filter fun i => !(i.change.pick m u).isOk := by
  obtain ⟨t, ht, rfl⟩ := Option.map_eq_some_iff.1 hnext
  have hedit : h.store.edit? k.call k.phase = some (id, .settling m u) := by
    rw [hp]
    rfl
  constructor
  · simp only [record, hk, wentOn, hedit, edited, if_pos, LedgerEdit.account]
  · cases next?_eq_some_iff.1 ht with
    | advances hk' hready hadvance =>
      cases hk.symm.trans hk'
      rw [hs.reachable.sound.ledgerAt_advance hk hadvance, hedit]
      simp only [ledgerAfter, if_pos, LedgerEdit.apply]
      exact Ledger.intents_settle _ m u

end Sound

/-- A history that **accounts for every entry**. -/
structure ExactlyOnce (h : History) : Prop extends Sound h where
  /-- What a commit asks the mapping service to do is what is in its ledger while it waits. -/
  asked : ∀ c k id m u change, h.store.calls[c]? = some k → k.phase = .sends id m u →
    ((h.requests c).filter fun x => x.intent.change = change).map (fun x => x.intent.target) =
      ((h.store.ledgerAt id).half change).map Intent.target
  /-- These targets are the ones that are pending there to be mapped, and their objects are the ones
  that are pending to be unmapped. -/
  pending : ∀ c k id m u, h.store.calls[c]? = some k → k.phase = .sends id m u →
    ((h.requests c).filter fun x => x.intent.change = .map).map (fun x => x.intent.target) =
        (h.store.ledgerAt id).pendingMaps ∧
      ((h.requests c).filter fun x => x.intent.change = .unmap).map (fun x => x.intent.object) =
        (h.store.ledgerAt id).pendingUnmaps
  /-- What is sent to the service for either kind of change is what the commit has asked for: so the
  ledger sends it, and so it is sent on any schedule. -/
  sent : ∀ c k id m u, h.store.calls[c]? = some k → k.phase = .sends id m u →
    ∀ (σ : Type) (service : MappingService σ) (saved : ObjectRef) (change : Change),
      (∀ s, (h.store.ledgerAt id).send service saved change s = h.ask service saved c change s) ∧
      ∀ r : Schedule σ, r.store = h.store → r.gateOpen = true →
        r.send? service c saved id change =
          let sent := h.ask service saved c change r.service
          { r with service := sent.2 }.happen? (.answer c change sent.1)
  /-- A kind of change that fails leaves its entries in the ledger as they are and in their order,
  and one that succeeds leaves none. -/
  keepsFailed : ∀ c k id m u h', h.store.calls[c]? = some k →
    k.phase = .sends id (some m) (some u) → h.next? (.advance c) = some h' →
    h'.entries id = (h.entries id).filter (fun x => !(x.intent.change.pick m u).isOk) ∧
      (h'.store.ledgerAt id).intents =
        (h.store.ledgerAt id).intents.filter fun i => !(i.change.pick m u).isOk
  /-- An entry that is in a ledger is within reach of later calls, or a discard will drop it. -/
  withinReach : ∀ id, h.entries id ≠ [] →
    WithinReach h.store id ∨ ∃ c key, WillClear h.store c key id

/-- **Every run of shared ledgers accounts for every entry.** Beside any run there is a history in
which each entry is in one ledger or has left once, for a cause that is borne out, and in which none
is asked for twice with success. -/
theorem exactly_once {events : List StoreEvent} {s : LedgerStore}
    (hs : events.foldlM LedgerStore.next? {} = some s) :
    ∃ h : History, events.foldlM History.next? {} = some h ∧ h.store = s ∧ h.ExactlyOnce := by
  obtain ⟨h, hrun, hstore⟩ := History.exists_run {} hs
  have hsound : h.Sound := sound_start.run hrun
  refine ⟨h, hrun, hstore, { hsound with
    asked := ?_, pending := ?_, sent := ?_, keepsFailed := ?_, withinReach := ?_ }⟩
  · exact fun c k id m u change hk hp => hsound.asked hk hp change
  · intro c k id m u hk hp
    rw [Ledger.pendingMaps, Ledger.pendingUnmaps, hsound.half_eq_requests hk hp,
      hsound.half_eq_requests hk hp, List.map_map, List.map_map]
    exact ⟨rfl, rfl⟩
  · intro c k id m u hk hp σ service saved change
    have hsend := hsound.send_eq_ask hk hp service saved change
    refine ⟨hsend, fun r hstore hopen => ?_⟩
    rw [Schedule.send?, if_pos hopen, hstore]
    simp only [hsend]
  · exact fun c k id m u h' hk hp hnext => hsound.entries_of_answered hk hp hnext
  · intro id hid
    refine hsound.reachable.withinReach_or fun hempty => hid ?_
    have hledger := hsound.ledger id
    rw [hempty] at hledger
    exact List.map_eq_nil_iff.1 hledger

/-- A change is staged for a draft and committed with success: its entry has left once, because it
was delivered. -/
theorem exactly_once_of_commit : ∃ h : History, h.ExactlyOnce ∧ h.liveSerials = [] ∧
    h.departures.map (fun x => x.1.serial) = [0] ∧
    h.deliveries.map (fun d => (d.commit, d.entries.map Entry.serial)) = [(1, [0])] := by
  let events : List StoreEvent :=
    [.start (.stage (.draft "a") [.plain 1 .snapshot] .map), .grant 0, .advance 0, .grant 0,
      .advance 0, .grant 0, .advance 0, .grant 0, .advance 0,
      .start (.commit (.draft "a") (.plain 2 .snapshot)), .grant 1, .advance 1, .grant 1, .advance 1,
      .answer 1 .map (.ok ()), .advance 1, .grant 1, .advance 1]
  have hrun : (events.foldlM LedgerStore.next? {}).isSome = true := by decide +kernel
  obtain ⟨s, hs⟩ := Option.isSome_iff_exists.1 hrun
  obtain ⟨h, hh, -, honce⟩ := exactly_once hs
  have hend : (events.foldlM History.next? {}).map (fun h => (h.liveSerials,
      h.departures.map (fun x => x.1.serial),
      h.deliveries.map fun d => (d.commit, d.entries.map Entry.serial))) =
        some ([], [0], [(1, [0])]) := by
    decide +kernel
  rw [hh] at hend
  simp only [Option.map_some, Option.some.injEq, Prod.mk.injEq] at hend
  exact ⟨h, honce, hend⟩

end History

end ObjectMapping
