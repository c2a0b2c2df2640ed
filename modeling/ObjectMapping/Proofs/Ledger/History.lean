import ObjectMapping.Proofs.Ledger.Steps

/-! # What becomes of each entry

To follow what becomes of staged changes, the entries of ledgers are given numbers in the order in
which they are put there (`Entry`), and beside the shared ledgers a `History` keeps which entries are
in which ledger, which have left and why, what each commit has asked the mapping service to do and
which of these requests succeeded. A history looks on and never interferes: whatever can happen to
the shared ledgers can happen to a history of them, in one way (`History.exists_run`).

* **`LedgerEdit.account`** — what an edit makes of the entries of a ledger.
* **`LedgerEdit.ledger_account`** — forgetting the numbers, it makes of them what it makes of the
  ledger.
* **`LedgerEdit.numbered_account`** — no number is lost and none is given twice. -/

namespace ObjectMapping

/-- An **entry**: an intent in a ledger, with its number among all that were ever put into ledgers. -/
structure Entry where
  /-- The number. -/
  serial : Nat
  /-- The intent. -/
  intent : Intent

/-- **Why an entry has left** its ledger. -/
inductive Cause where
  /-- A call has staged the opposite change. -/
  | cancelled (call : CallId) (staged : Intent)
  /-- A call has discarded the ledger. -/
  | discarded (call : CallId)
  /-- A commit has carried it out. -/
  | delivered (call : CallId)

/-- A request of a commit to the mapping service that **succeeded**. -/
structure LedgerDelivery where
  /-- The commit. -/
  commit : CallId
  /-- The kind of change. -/
  change : Change
  /-- The entries that the service was asked to carry out. -/
  entries : List Entry

/-- What stands for a kind of change among two. -/
def Change.pick {α : Type} (forMap forUnmap : α) : Change → α
  | .map => forMap
  | .unmap => forUnmap

/-- What a call stages, one after the other. -/
def LedgerCall.staged : LedgerCall → List Intent
  | .stage _ objects change => objects.map fun r => ⟨r, change, none⟩
  | .stageTargets _ targets => targets.map fun t => ⟨t.object, .map, t.direction⟩
  | _ => []

/-- A staging call stages one intent after the other. -/
theorem LedgerCall.edit_eq_foldl {call : LedgerCall} (h : call.Stages) (l : Ledger) :
    call.edit l = call.staged.foldl (fun l i => l.stageOne i.object i.change i.direction) l := by
  cases call with
  | stage parent objects change => simp only [edit, staged, Ledger.stage, List.foldl_map]
  | stageTargets parent targets => simp only [edit, staged, Ledger.stageTargets, List.foldl_map]
  | _ => exact h.elim

/-- **A commit leaves what failed**, in its order. -/
theorem Ledger.intents_settle (l : Ledger) (m u : ServiceAnswer) :
    (l.settle m u).intents = l.intents.filter fun i => !(i.change.pick m u).isOk := by
  have filter_filter_congr : ∀ {p q r : Intent → Bool}, (∀ i, (q i && p i) = r i) →
      (l.intents.filter p).filter q = l.intents.filter r := by
    intro p q r h
    rw [List.filter_filter]
    exact List.filter_congr fun i _ => h i
  obtain m | m := m <;> obtain u | u := u
  · exact (List.filter_eq_self.2 fun i _ => by cases i.change <;> rfl).symm
  · exact List.filter_congr fun i _ => by cases i.change <;> rfl
  · exact List.filter_congr fun i _ => by cases i.change <;> rfl
  · exact filter_filter_congr fun i => by cases i.change <;> rfl

/-- A kind of change has no failure to report exactly when the answer for it is none. -/
theorem Ledger.failure?_eq_none_iff {answer : ServiceAnswer} :
    failure? answer = none ↔ answer.isOk = true := by
  cases answer with
  | ok _ => exact iff_of_true rfl rfl
  | error _ => exact ⟨nofun, nofun⟩

/-! ### The entries of one ledger -/

/-- Whether an entry is for a change of an object. -/
def Entry.isFor (key : ObjectKey) (change : Change) (e : Entry) : Bool := e.intent.isFor key change

/-- Entries with their intents replaced, one by one. -/
def Entry.rewrite (entries : List Entry) (intents : List Intent) : List Entry :=
  List.zipWith (fun e i => ⟨e.serial, i⟩) entries intents

/-- An **account** of the entries of a ledger: those that are in it, the number of the next one and
those that have left, each with its cause. -/
structure Account where
  /-- The entries of the ledger. -/
  entries : List Entry
  /-- The number of the next entry. -/
  count : Nat
  /-- The entries that have left. -/
  left : List (Entry × Cause) := []

namespace Account

variable {a : Account} {c : CallId} {i : Intent} {others : List Nat}

/-- The ledger that is accounted for. -/
def ledger (a : Account) : Ledger := ⟨a.entries.map Entry.intent⟩

/-- The numbers of the entries that are in the ledger and of those that have left. -/
def serials (a : Account) : List Nat :=
  a.entries.map Entry.serial ++ a.left.map fun x => x.1.serial

/-- Together with the numbers of all other entries, those of an account are all numbers that were
given, each of them once. -/
def Numbered (a : Account) (others : List Nat) : Prop :=
  (a.serials ++ others).Perm (List.range a.count)

/-- The account after a call has staged an intent. -/
def stageOne (c : CallId) (a : Account) (i : Intent) : Account :=
  match a.entries.find? (Entry.isFor i.object.key i.change.opposite) with
  | some e =>
    { a with
      entries := a.entries.eraseP (Entry.isFor i.object.key i.change.opposite)
      left := a.left ++ [(e, .cancelled c i)] }
  | none =>
    if a.entries.any (Entry.isFor i.object.key i.change) then
      { a with
        entries := Entry.rewrite a.entries
          (Ledger.redirect i.object.key i.change i.direction (a.entries.map Entry.intent)) }
    else { a with entries := a.entries ++ [⟨a.count, i⟩], count := a.count + 1 }

/-- Redirecting replaces intents one by one. -/
theorem length_redirect (key : ObjectKey) (change : Change) (direction : Option Direction)
    (intents : List Intent) :
    (Ledger.redirect key change direction intents).length = intents.length := by
  induction intents with
  | nil => rfl
  | cons i rest ih =>
    unfold Ledger.redirect
    split
    · rfl
    · rw [List.length_cons, List.length_cons, ih]

/-- Rewriting puts the given intents in place of the old ones. -/
theorem map_intent_rewrite {entries : List Entry} {intents : List Intent}
    (h : intents.length = entries.length) :
    (Entry.rewrite entries intents).map Entry.intent = intents := by
  induction entries generalizing intents with
  | nil => cases List.length_eq_zero_iff.1 h; rfl
  | cons e rest ih =>
    cases intents with
    | nil => cases h
    | cons i intents =>
      have ih := ih (Nat.succ.inj h)
      simp only [Entry.rewrite] at ih ⊢
      rw [List.zipWith_cons_cons, List.map_cons, ih]

/-- Rewriting keeps the numbers. -/
theorem map_serial_rewrite {entries : List Entry} {intents : List Intent}
    (h : intents.length = entries.length) :
    (Entry.rewrite entries intents).map Entry.serial = entries.map Entry.serial := by
  induction entries generalizing intents with
  | nil => rfl
  | cons e rest ih =>
    cases intents with
    | nil => cases h
    | cons i intents =>
      have ih := ih (Nat.succ.inj h)
      simp only [Entry.rewrite] at ih ⊢
      rw [List.zipWith_cons_cons, List.map_cons, List.map_cons, ih]

/-- Whether a change is pending shows in the entries. -/
theorem isPending_ledger {key : ObjectKey} {change : Change} :
    a.ledger.isPending key change = a.entries.any (Entry.isFor key change) := by
  unfold ledger Ledger.isPending
  rw [List.any_map]
  rfl

/-- **The ways in which staging an intent can go**: the opposite is taken out, an entry is rewritten
or a new one is added. -/
theorem stageOne_cases (c : CallId) (a : Account) (i : Intent) :
    (∃ e before after, a.entries = before ++ e :: after ∧
      e.isFor i.object.key i.change.opposite ∧
      a.stageOne c i = ⟨before ++ after, a.count, a.left ++ [(e, .cancelled c i)]⟩ ∧
      a.ledger.stageOne i.object i.change i.direction = ⟨(before ++ after).map Entry.intent⟩) ∨
    (∃ intents, intents.length = a.entries.length ∧
      a.stageOne c i = ⟨Entry.rewrite a.entries intents, a.count, a.left⟩ ∧
      a.ledger.stageOne i.object i.change i.direction = ⟨intents⟩) ∨
    a.stageOne c i = ⟨a.entries ++ [⟨a.count, i⟩], a.count + 1, a.left⟩ ∧
      a.ledger.stageOne i.object i.change i.direction = ⟨a.entries.map Entry.intent ++ [i]⟩ := by
  unfold stageOne Ledger.stageOne
  rw [isPending_ledger, isPending_ledger]
  cases hfind : a.entries.find? (Entry.isFor i.object.key i.change.opposite) with
  | some e =>
    -- the opposite is pending, and its first entry is taken out
    obtain ⟨he, before, after, hentries, hbefore⟩ := List.find?_eq_some_iff_append.1 hfind
    have hany : a.entries.any (Entry.isFor i.object.key i.change.opposite) = true :=
      List.any_eq_true.2 ⟨e, List.mem_of_find?_eq_some hfind, he⟩
    have herase : a.entries.eraseP (Entry.isFor i.object.key i.change.opposite) =
        before ++ after := by
      rw [hentries, List.eraseP_append_right _ fun b hb => by simpa using hbefore b hb,
        List.eraseP_cons_of_pos he]
    refine .inl ⟨e, before, after, hentries, he, by rw [herase], ?_⟩
    rw [if_pos hany, ← herase]
    unfold ledger
    rw [List.eraseP_map]
    rfl
  | none =>
    have hany : a.entries.any (Entry.isFor i.object.key i.change.opposite) = false := by
      rw [List.any_eq_false]
      exact List.find?_eq_none.1 hfind
    rw [hany]
    cases a.entries.any (Entry.isFor i.object.key i.change) with
    | true =>
      -- the change is pending already, and may be given another direction
      refine .inr (.inl ⟨Ledger.redirect i.object.key i.change i.direction
        (a.entries.map Entry.intent), ?_, rfl, rfl⟩)
      rw [length_redirect, List.length_map]
    | false => exact .inr (.inr ⟨rfl, rfl⟩)

/-- Forgetting the numbers, an intent is staged in the ledger. -/
theorem ledger_stageOne :
    (a.stageOne c i).ledger = a.ledger.stageOne i.object i.change i.direction := by
  obtain ⟨e, before, after, -, -, h, hl⟩ | ⟨intents, hlen, h, hl⟩ | ⟨h, hl⟩ :=
    stageOne_cases c a i
  · rw [h, hl]; rfl
  · rw [h, hl]; exact congrArg Ledger.mk (map_intent_rewrite hlen)
  · rw [h, hl]; exact congrArg Ledger.mk List.map_append

/-- The numbers of entries that leave for one cause. -/
theorem map_serial_left (entries : List Entry) (cause : Cause) :
    (entries.map fun e => (e, cause)).map (fun x => x.1.serial) = entries.map Entry.serial := by
  rw [List.map_map]
  rfl

/-- Staging an intent loses no number and gives none twice. -/
theorem Numbered.stageOne (h : a.Numbered others) : (a.stageOne c i).Numbered others := by
  unfold Numbered serials at h ⊢
  obtain ⟨e, before, after, hentries, -, hs, -⟩ | ⟨intents, hlen, hs, -⟩ | ⟨hs, -⟩ :=
    stageOne_cases c a i
  · -- the number of the entry goes over to those that have left
    rw [hs]
    refine List.Perm.trans ?_ h
    rw [hentries]
    grind
  · rw [hs, map_serial_rewrite hlen]
    exact h
  · -- the new entry has the number that comes next
    rw [hs, List.range_succ]
    refine List.Perm.trans ?_ (h.append_right [a.count])
    grind

/-- What leaves when an intent is staged is an entry for the opposite change of the same object. -/
theorem cancels_of_mem_left_stageOne {x : Entry × Cause} (hx : x ∈ (a.stageOne c i).left) :
    x ∈ a.left ∨ x.1.isFor i.object.key i.change.opposite ∧ x.2 = .cancelled c i := by
  obtain ⟨e, before, after, -, he, hs, -⟩ | ⟨intents, -, hs, -⟩ | ⟨hs, -⟩ := stageOne_cases c a i
  · rw [hs] at hx
    obtain hx | hx := List.mem_append.1 hx
    · exact .inl hx
    · obtain rfl := List.mem_singleton.1 hx
      exact .inr ⟨he, rfl⟩
  · rw [hs] at hx
    exact .inl hx
  · rw [hs] at hx
    exact .inl hx

end Account

/-- **What an edit by a call makes of an account.** -/
def LedgerEdit.account (c : CallId) (a : Account) : LedgerEdit → Account
  | .staging call => call.staged.foldl (Account.stageOne c) a
  | .clearing =>
    { a with entries := [], left := a.left ++ a.entries.map fun e => (e, .discarded c) }
  | .settling m u =>
    { a with
      entries := a.entries.filter fun e => !(e.intent.change.pick m u).isOk
      left := a.left ++ (a.entries.filter fun e => (e.intent.change.pick m u).isOk).map
        fun e => (e, .delivered c) }

namespace LedgerEdit

variable {a : Account} {c : CallId} {edit : LedgerEdit} {others : List Nat}

/-- What is put into a ledger comes from a staging call. -/
def Proper : LedgerEdit → Prop
  | .staging call => call.Stages
  | _ => True

/-- **Why an entry leaves** with an edit by a call. -/
def Explains (c : CallId) (entries : List Entry) (edit : LedgerEdit) (x : Entry × Cause) : Prop :=
  match edit with
  | .staging call =>
    ∃ i ∈ call.staged, x.1.isFor i.object.key i.change.opposite ∧ x.2 = .cancelled c i
  | .clearing => x.2 = .discarded c
  | .settling m u => x.1 ∈ entries ∧ (x.1.intent.change.pick m u).isOk ∧ x.2 = .delivered c

/-- **Forgetting the numbers, the ledger is edited.** -/
theorem ledger_account (h : edit.Proper) : (edit.account c a).ledger = edit.apply a.ledger := by
  cases edit with
  | staging call =>
    have foldl_ledger : ∀ (staged : List Intent) (a : Account),
        (staged.foldl (Account.stageOne c) a).ledger =
          staged.foldl (fun l i => l.stageOne i.object i.change i.direction) a.ledger := by
      intro staged
      induction staged with
      | nil => intro a; rfl
      | cons i staged ih =>
        intro a
        rw [List.foldl_cons, List.foldl_cons, ih, Account.ledger_stageOne]
    exact (foldl_ledger call.staged a).trans (call.edit_eq_foldl h a.ledger).symm
  | clearing => rfl
  | settling m u =>
    have hsettle := Ledger.intents_settle a.ledger m u
    unfold Account.ledger at hsettle
    rw [List.filter_map] at hsettle
    exact congrArg Ledger.mk hsettle.symm

/-- **No number is lost and none is given twice.** -/
theorem numbered_account (h : a.Numbered others) : (edit.account c a).Numbered others := by
  cases edit with
  | staging call =>
    have foldl_numbered : ∀ (staged : List Intent) (a : Account), a.Numbered others →
        (staged.foldl (Account.stageOne c) a).Numbered others := by
      intro staged
      induction staged with
      | nil => intro a h; exact h
      | cons i staged ih => intro a h; exact ih _ h.stageOne
    exact foldl_numbered call.staged a h
  | clearing =>
    refine List.Perm.trans ?_ h
    simp only [account, Account.serials, List.map_append, Account.map_serial_left]
    grind
  | settling m u =>
    refine List.Perm.trans ?_ h
    -- the entries that stay and those that leave are all entries
    have hsplit := List.filter_append_perm (fun e => (e.intent.change.pick m u).isOk) a.entries
    have hserials := hsplit.map Entry.serial
    simp only [account, Account.serials, List.map_append, Account.map_serial_left] at hserials ⊢
    grind

/-- **Every entry that leaves is explained.** -/
theorem explains_of_mem_left {x : Entry × Cause} (hx : x ∈ (edit.account c a).left) :
    x ∈ a.left ∨ edit.Explains c a.entries x := by
  cases edit with
  | staging call =>
    have foldl_explains : ∀ (staged : List Intent) (a : Account),
        x ∈ (staged.foldl (Account.stageOne c) a).left → x ∈ a.left ∨
          ∃ i ∈ staged, x.1.isFor i.object.key i.change.opposite ∧ x.2 = .cancelled c i := by
      intro staged
      induction staged with
      | nil => intro a hx; exact .inl hx
      | cons i staged ih =>
        intro a hx
        obtain hx | ⟨j, hj, hx⟩ := ih _ hx
        · refine (Account.cancels_of_mem_left_stageOne hx).imp_right fun hx => ?_
          exact ⟨i, List.mem_cons_self, hx⟩
        · exact .inr ⟨j, List.mem_cons_of_mem i hj, hx⟩
    exact foldl_explains call.staged a hx
  | clearing =>
    obtain hx | hx := List.mem_append.1 hx
    · exact .inl hx
    · obtain ⟨e, -, rfl⟩ := List.mem_map.1 hx
      exact .inr rfl
  | settling m u =>
    obtain hx | hx := List.mem_append.1 hx
    · exact .inl hx
    · obtain ⟨e, he, rfl⟩ := List.mem_map.1 hx
      obtain ⟨he, hok⟩ := List.mem_filter.1 he
      exact .inr ⟨he, hok, rfl⟩

end LedgerEdit

/-! ### Histories -/

/-- A **history** of shared ledgers. -/
structure History where
  /-- The shared ledgers. -/
  store : LedgerStore := {}
  /-- The entries of each ledger. -/
  entries : LedgerId → List Entry := fun _ => []
  /-- The number of the next entry. -/
  count : Nat := 0
  /-- The entries that have left their ledgers, each with its cause. -/
  departures : List (Entry × Cause) := []
  /-- What each commit has found in its ledger and asked the mapping service to carry out. -/
  requests : CallId → List Entry := fun _ => []
  /-- The requests that succeeded. -/
  deliveries : List LedgerDelivery := []

namespace History

/-- The history after a call has edited a ledger. -/
def edited (h : History) (c : CallId) (id : LedgerId) (edit : LedgerEdit) : History :=
  let a := edit.account c ⟨h.entries id, h.count, []⟩
  { h with
    entries := fun i => if i = id then a.entries else h.entries i
    count := a.count
    departures := h.departures ++ a.left }

/-- The history after a call has gone on. A commit that has the lock of its ledger asks the mapping
service to carry out what it finds there. -/
def wentOn (h : History) (c : CallId) (k : CallState) : History :=
  match h.store.edit? k.call k.phase with
  | some (id, edit) => h.edited c id edit
  | none =>
    match k.phase, k.call with
    | .enters id, .commit _ _ =>
      { h with requests := fun d => if d = c then h.entries id else h.requests d }
    | _, _ => h

/-- What an event adds to a history. -/
def record (h : History) : StoreEvent → History
  | .start _ | .grant _ => h
  | .advance c =>
    match h.store.calls[c]? with
    | some k => h.wentOn c k
    | none => h
  | .answer c change (.ok ()) =>
    { h with deliveries := h.deliveries ++
        [⟨c, change, (h.requests c).filter fun e => e.intent.change = change⟩] }
  | .answer _ _ (.error _) => h

/-- **The history after an event**, if the event can happen to the shared ledgers. -/
def next? (h : History) (e : StoreEvent) : Option History :=
  (h.store.next? e).map fun s => { h.record e with store := s }

/-- **Whatever can happen to shared ledgers can happen to a history of them.** -/
theorem exists_run (h : History) {events : List StoreEvent} {s : LedgerStore}
    (hs : events.foldlM LedgerStore.next? h.store = some s) :
    ∃ h', events.foldlM next? h = some h' ∧ h'.store = s := by
  induction events generalizing h with
  | nil => exact ⟨h, rfl, Option.some.inj hs⟩
  | cons e events ih =>
    obtain ⟨t, ht, hs⟩ := Option.bind_eq_some_iff.1 hs
    obtain ⟨h', hrun, hstore⟩ := ih { h.record e with store := t } hs
    refine ⟨h', ?_, hstore⟩
    rw [List.foldlM_cons]
    exact Option.bind_eq_some_iff.2 ⟨_, by rw [next?, ht]; rfl, hrun⟩

end History

end ObjectMapping
