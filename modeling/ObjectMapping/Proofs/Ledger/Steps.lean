import ObjectMapping.Proofs.Ledger.Parts

/-! # The steps of shared ledgers

It is said once what can happen to shared ledgers. A call that goes on follows one of the rules of
`Advance`, and an event is one of the four kinds of `Happens`. From the rules follow the laws that
the later proofs use:

* **`Advance.holder?_eq`** — a call gives back the one lock that it kept and keeps no longer.
* **`Advance.ledgerAt_eq`** — it edits no ledger but the one whose lock it keeps.
* **`Advance.table_eq_or`** — it leaves the table alone, opens a ledger with a new number or takes
  its own entry out. -/

namespace ObjectMapping

namespace LedgerStore

variable {s t u : LedgerStore} {c d : CallId} {call : LedgerCall} {p p' : Phase} {id i : LedgerId}

/-! ### Going on -/

/-- **How a call goes on** from one phase to the next, and to which store. -/
inductive Advance (s : LedgerStore) (c : CallId) (call : LedgerCall) :
    Phase → Phase → LedgerStore → Prop where
  /-- The table has a ledger for the call. -/
  | finds {id : LedgerId} (h : s.table.get? call.key = some id) :
      Advance s c call .lookUp (found call id) ((s.leaveTable c).moveTo c (found call id))
  /-- The call has an answer where there is no ledger. -/
  | doesWithout {r : CallResult} (h : s.table.get? call.key = none)
      (hr : call.withoutLedger? = some r) :
      Advance s c call .lookUp (.finished r) ((s.leaveTable c).moveTo c (.finished r))
  /-- The call has to open a ledger. -/
  | misses (h : s.table.get? call.key = none) (hr : call.withoutLedger? = none) :
      Advance s c call .lookUp .opens ((s.leaveTable c).moveTo c .opens)
  /-- Another call has opened the ledger in the meantime. -/
  | findsOpened {id : LedgerId} (h : s.table.get? call.key = some id) :
      Advance s c call .opens (found call id) ((s.leaveTable c).moveTo c (found call id))
  /-- A ledger is opened. -/
  | opens (h : s.table.get? call.key = none) :
      Advance s c call .opens (found call s.cells.length)
        (((s.leaveTable c).withNew call.key).moveTo c (found call s.cells.length))
  /-- The ledger is taken out of the table. -/
  | takesOut {id : LedgerId} (h : s.table.get? call.key = some id) :
      Advance s c call .takesOut (.enters id)
        (((s.leaveTable c).withoutEntry call.key).moveTo c (.enters id))
  /-- There is no ledger to take out. -/
  | takesNothing (h : s.table.get? call.key = none) :
      Advance s c call .takesOut (.finished .done) ((s.leaveTable c).moveTo c (.finished .done))
  /-- The ledger is copied. -/
  | copies {id : LedgerId} {parent : LedgerParent} (h : call = .snapshot parent) :
      Advance s c call (.enters id) (.finished (.copy (s.ledgerAt id)))
        ((s.leave id).moveTo c (.finished (.copy (s.ledgerAt id))))
  /-- There is nothing to carry out. -/
  | findsEmpty {id : LedgerId} (hc : call.Commits) (h : s.ledgerAt id = .empty) :
      Advance s c call (.enters id) (.closes id {}) (s.moveTo c (.closes id {}))
  /-- What is staged is sent to the mapping service. -/
  | sends {id : LedgerId} (hc : call.Commits) (h : s.ledgerAt id ≠ .empty) :
      Advance s c call (.enters id)
        (.sends id (foregone (s.ledgerAt id) .map) (foregone (s.ledgerAt id) .unmap))
        (s.moveTo c
          (.sends id (foregone (s.ledgerAt id) .map) (foregone (s.ledgerAt id) .unmap)))
  /-- The ledger is cleared. -/
  | clears {id : LedgerId} (hc : call.Discards) :
      Advance s c call (.enters id) (.finished .done)
        (((s.editAt id fun _ => .empty).leave id).moveTo c (.finished .done))
  /-- The call has its ledger and looks again. -/
  | enters {id : LedgerId} (hs : call.Stages ∨ ∃ parent, call = .opening parent) :
      Advance s c call (.enters id) (.rechecks id) (s.moveTo c (.rechecks id))
  /-- The table still leads to the ledger, which is edited. -/
  | stages {id : LedgerId} (h : s.table.get? call.key = some id) :
      Advance s c call (.rechecks id) (.finished .done)
        ((((s.leaveTable c).editAt id call.edit).leave id).moveTo c (.finished .done))
  /-- The table does not lead to the ledger any more. -/
  | retries {id : LedgerId} (h : s.table.get? call.key ≠ some id) :
      Advance s c call (.rechecks id) .lookUp (((s.leaveTable c).leave id).moveTo c .lookUp)
  /-- The service has answered and nothing is left. -/
  | settlesAll {id : LedgerId} {m u : ServiceAnswer} (h : (s.ledgerAt id).settle m u = .empty) :
      Advance s c call (.sends id (some m) (some u)) (.closes id ((s.ledgerAt id).report m u))
        ((s.editAt id fun _ => (s.ledgerAt id).settle m u).moveTo c
          (.closes id ((s.ledgerAt id).report m u)))
  /-- The service has answered and something is left. -/
  | settles {id : LedgerId} {m u : ServiceAnswer} (h : (s.ledgerAt id).settle m u ≠ .empty) :
      Advance s c call (.sends id (some m) (some u))
        (.finished (.report ((s.ledgerAt id).report m u)))
        (((s.editAt id fun _ => (s.ledgerAt id).settle m u).leave id).moveTo c
          (.finished (.report ((s.ledgerAt id).report m u))))
  /-- The ledger is closed. -/
  | closes {id : LedgerId} {report : CommitReport} (h : s.table.get? call.key = some id) :
      Advance s c call (.closes id report) (.finished (.report report))
        ((((s.leaveTable c).withoutEntry call.key).leave id).moveTo c (.finished (.report report)))
  /-- The ledger is not in the table any more. -/
  | closesNothing {id : LedgerId} {report : CommitReport} (h : s.table.get? call.key ≠ some id) :
      Advance s c call (.closes id report) (.finished (.report report))
        (((s.leaveTable c).leave id).moveTo c (.finished (.report report)))

/-- **The rules say all**: a call goes on as one of them says, and in no other way. -/
theorem advance?_eq_some_iff : s.advance? c call p = some t ↔ ∃ p', Advance s c call p p' t := by
  constructor
  · -- a phase looks at the table, the ledger or the answers, and what it finds chooses the rule
    intro h
    cases p with
    | lookUp =>
      simp only [advance?, table_leaveTable] at h
      split at h
      · cases h; exact ⟨_, .finds ‹_›⟩
      · cases h; exact ⟨_, .doesWithout ‹_› ‹_›⟩
      · cases h; exact ⟨_, .misses ‹_› ‹_›⟩
    | opens =>
      simp only [advance?, openFor, table_leaveTable] at h
      cases hid : s.table.get? call.key with
      | some id =>
        rw [hid] at h
        cases h; exact ⟨_, .findsOpened hid⟩
      | none =>
        rw [hid] at h
        cases h; exact ⟨_, .opens hid⟩
    | takesOut =>
      simp only [advance?, table_leaveTable] at h
      split at h
      · cases h; exact ⟨_, .takesOut ‹_›⟩
      · cases h; exact ⟨_, .takesNothing ‹_›⟩
    | enters id =>
      cases call with
      | snapshot parent => cases h; exact ⟨_, .copies rfl⟩
      | commit parent saved =>
        simp only [advance?] at h
        split at h
        · cases h; exact ⟨_, .findsEmpty trivial (Ledger.isEmpty_iff.1 ‹_›)⟩
        · cases h; exact ⟨_, .sends trivial fun h => ‹¬ _› (Ledger.isEmpty_iff.2 h)⟩
      | discard parent => cases h; exact ⟨_, .clears trivial⟩
      | opening parent => cases h; exact ⟨_, .enters (.inr ⟨parent, rfl⟩)⟩
      | stage _ _ _ => cases h; exact ⟨_, .enters (.inl trivial)⟩
      | stageTargets _ _ => cases h; exact ⟨_, .enters (.inl trivial)⟩
    | rechecks id =>
      simp only [advance?] at h
      split at h
      · cases h; exact ⟨_, .stages (leadsTo_iff.1 ‹_›)⟩
      · cases h; exact ⟨_, .retries fun h => ‹¬ _› (leadsTo_iff.2 h)⟩
    | sends id mapAnswer unmapAnswer =>
      cases mapAnswer with
      | none => cases h
      | some m =>
        cases unmapAnswer with
        | none => cases h
        | some u =>
          simp only [advance?] at h
          split at h
          · cases h; exact ⟨_, .settlesAll (Ledger.isEmpty_iff.1 ‹_›)⟩
          · cases h; exact ⟨_, .settles fun h => ‹¬ _› (Ledger.isEmpty_iff.2 h)⟩
    | closes id report =>
      simp only [advance?] at h
      split at h
      · cases h; exact ⟨_, .closes (leadsTo_iff.1 ‹_›)⟩
      · cases h; exact ⟨_, .closesNothing fun h => ‹¬ _› (leadsTo_iff.2 h)⟩
    | finished r => cases h
  · rintro ⟨p', h⟩
    cases h with
    | finds h | doesWithout h hr | misses h hr => simp [advance?, *]
    | findsOpened h => simp [advance?, openFor, h]
    | opens h => simp [advance?, openFor, h]; rfl
    | takesOut h => simp [advance?, h]; rfl
    | takesNothing h => simp [advance?, h]
    | copies h => subst h; rfl
    | findsEmpty hc h | sends hc h =>
      cases call <;> first | exact hc.elim | simp [advance?, Ledger.isEmpty_iff, h]
    | clears hc => cases call <;> first | exact hc.elim | rfl
    | enters hs =>
      obtain hs | ⟨parent, rfl⟩ := hs
      · cases call <;> first | exact hs.elim | rfl
      · rfl
    | stages h | closes h => simp [advance?, leadsTo_iff, h]; rfl
    | retries h | closesNothing h => simp [advance?, leadsTo_iff, h]
    | settlesAll h | settles h => simp [advance?, Ledger.isEmpty_iff, h]; rfl

/-- What a call **does to a ledger** when it goes on from a phase, and to which ledger. -/
def edit? (s : LedgerStore) (call : LedgerCall) : Phase → Option (LedgerId × LedgerEdit)
  | .rechecks id => if s.leadsTo call.key id then some (id, .staging call) else none
  | .enters id =>
    match call with
    | .discard _ => some (id, .clearing)
    | _ => none
  | .sends id (some mapAnswer) (some unmapAnswer) => some (id, .settling mapAnswer unmapAnswer)
  | _ => none

/-- A ledger is edited by a staging that the table still leads to it, by a discard or by a commit
that has been answered. -/
theorem edit?_eq_some_iff {edit : LedgerEdit} : s.edit? call p = some (id, edit) ↔
    p = .rechecks id ∧ s.table.get? call.key = some id ∧ edit = .staging call ∨
    p = .enters id ∧ call.Discards ∧ edit = .clearing ∨
    ∃ m u, p = .sends id (some m) (some u) ∧ edit = .settling m u := by
  constructor
  · intro h
    cases p with
    | rechecks j =>
      simp only [edit?, leadsTo_iff] at h
      split at h
      · cases h; exact .inl ⟨rfl, ‹_›, rfl⟩
      · cases h
    | enters j =>
      cases call with
      | discard _ => cases h; exact .inr (.inl ⟨rfl, trivial, rfl⟩)
      | _ => cases h
    | sends j m u =>
      cases m with
      | none => cases h
      | some m =>
        cases u with
        | none => cases h
        | some u => cases h; exact .inr (.inr ⟨m, u, rfl, rfl⟩)
    | _ => cases h
  · rintro (⟨rfl, h, rfl⟩ | ⟨rfl, h, rfl⟩ | ⟨m, u, rfl, rfl⟩)
    · simp [edit?, leadsTo_iff, h]
    · cases call <;> first | exact h.elim | rfl
    · rfl

/-- A commit that has just got the lock of its ledger edits nothing yet. -/
theorem edit?_enters_of_commits (hc : call.Commits) : s.edit? call (.enters id) = none := by
  cases call <;> first | exact hc.elim | rfl

/-- A call edits its subject. -/
theorem subject?_of_edit? {edit : LedgerEdit} (h : s.edit? call p = some (id, edit)) :
    p.subject? = some id := by
  obtain ⟨rfl, -, -⟩ | ⟨rfl, -, -⟩ | ⟨m, u, rfl, -⟩ := edit?_eq_some_iff.1 h <;> rfl

/-- A ledger after an edit of some ledger. -/
def ledgerAfter (s : LedgerStore) : Option (LedgerId × LedgerEdit) → LedgerId → Ledger
  | some (id, edit), i => if i = id then edit.apply (s.ledgerAt i) else s.ledgerAt i
  | none, i => s.ledgerAt i

namespace Advance

/-- **A call that goes on is in its new phase** and has to wait for the lock that it wants there. -/
theorem calls_eq (h : Advance s c call p p' t) :
    t.calls = s.calls.modify c fun k => { k with phase := p', granted := false } := by
  cases h <;> simp [withNew, withoutEntry]

/-- **It edits one ledger at most**, and only its subject. -/
theorem ledgerAt_eq (h : Advance s c call p p' t)
    (hid : ∀ id, p.subject? = some id → id < s.cells.length) (i : LedgerId) :
    t.ledgerAt i = s.ledgerAfter (s.edit? call p) i := by
  cases h with
  -- the rules that edit a ledger
  | clears hc =>
    rw [edit?_eq_some_iff.2 (.inr (.inl ⟨rfl, hc, rfl⟩)), ledgerAt_moveTo, ledgerAt_leave,
      ledgerAt_editAt (hid _ rfl)]
    rfl
  | stages h =>
    rw [edit?_eq_some_iff.2 (.inl ⟨rfl, h, rfl⟩), ledgerAt_moveTo, ledgerAt_leave,
      ledgerAt_editAt (s := s.leaveTable c) (hid _ rfl)]
    rfl
  | settles h | settlesAll h =>
    simp only [ledgerAt_moveTo, ledgerAt_leave, ledgerAt_editAt (hid _ rfl), edit?, ledgerAfter]
    split
    · subst i; rfl
    · rfl
  -- the others, which do not
  | copies hc => subst hc; simp [edit?, ledgerAfter]
  | findsEmpty hc h | sends hc h =>
    cases call <;> first | exact hc.elim | simp [edit?, ledgerAfter]
  | enters hs =>
    cases call <;> simp_all [edit?, ledgerAfter, LedgerCall.Stages]
  | retries h => simp [edit?, leadsTo_iff, h, ledgerAfter]
  | _ => simp [edit?, ledgerAfter]

/-- A call that has found its ledger does not have its lock yet. -/
theorem holds_found : (found call id).holds = none := by
  cases call <;> rfl

/-- **It gives back** the lock that it kept and keeps no longer, and takes none. -/
theorem holder?_eq (h : Advance s c call p p' t) (i : LedgerId) :
    t.holder? i = if p.subject? = some i ∧ p'.holds ≠ some i then none else s.holder? i := by
  cases h <;> simp [Phase.subject?, Phase.holds]

/-- A lock that it keeps it had before. -/
theorem subject?_of_holds (h : Advance s c call p p' t) (hi : p'.holds = some i) :
    p.subject? = some i := by
  cases h with
  | finds _ | findsOpened _ | opens _ => rw [holds_found] at hi; cases hi
  | findsEmpty _ _ | sends _ _ | enters _ | settlesAll _ => exact hi
  | _ => cases hi

/-- **It leaves the table alone**, opens a ledger with a new number or takes its own entry out. -/
theorem table_eq_or (h : Advance s c call p p' t) :
    t.table = s.table ∧ t.cells.length = s.cells.length ∨
    (p = .opens ∧ s.table.get? call.key = none ∧
      t.table = s.table.insert call.key s.cells.length ∧ t.cells.length = s.cells.length + 1) ∨
    ∃ id, s.table.get? call.key = some id ∧ t.table = s.table.erase call.key ∧
      t.cells.length = s.cells.length ∧
      (p = .takesOut ∧ p' = .enters id ∨ ∃ report, p = .closes id report) := by
  cases h with
  | opens h => exact .inr (.inl ⟨rfl, h, by simp [withNew], by simp [withNew]⟩)
  | takesOut h =>
    exact .inr (.inr ⟨_, h, by simp [withoutEntry], by simp [withoutEntry], .inl ⟨rfl, rfl⟩⟩)
  | closes h =>
    exact .inr (.inr ⟨_, h, by simp [withoutEntry], by simp [withoutEntry], .inr ⟨_, rfl⟩⟩)
  | _ => exact .inl ⟨by simp, by simp⟩

/-- A ledger that it has or waits for it had or waited for before, or the table led it there. -/
theorem subject?_or (h : Advance s c call p p' t) (hi : p'.subject? = some i) :
    p.subject? = some i ∨ s.table.get? call.key = some i ∨ t.table.get? call.key = some i := by
  have subject?_found : ∀ {id}, (found call id).subject? = some i → id = i := by
    intro id h
    cases call <;> cases h <;> rfl
  cases h with
  | finds h | findsOpened h => obtain rfl := subject?_found hi; exact .inr (.inl h)
  | opens _ => obtain rfl := subject?_found hi; exact .inr (.inr (by simp [withNew]))
  | takesOut h => cases hi; exact .inr (.inl h)
  | findsEmpty _ _ | sends _ _ | enters _ | settlesAll _ => exact .inl hi
  | _ => cases hi

/-- A ledger that it is about to close is empty. -/
theorem ledgerAt_of_closes {report : CommitReport}
    (h : Advance s c call p (.closes id report) t) : t.ledgerAt id = .empty := by
  generalize hp : Phase.closes id report = p' at h
  cases h with
  | findsEmpty hc h => cases hp; rw [ledgerAt_moveTo]; exact h
  | settlesAll h =>
    cases hp
    -- a ledger that was never opened is empty whatever is done to it
    by_cases hid : id < s.cells.length
    · rw [ledgerAt_moveTo, ledgerAt_editAt hid, if_pos rfl]; exact h
    · exact ledgerAt_of_le (by simpa using hid)
  | finds _ | findsOpened _ | opens _ => cases call <;> cases hp
  | _ => cases hp

/-- A commit waits for the service once it has got the lock of its ledger. -/
theorem sends_inv {m u : Option ServiceAnswer} (h : Advance s c call p (.sends id m u) t) :
    p = .enters id ∧ call.Commits ∧ m = foregone (s.ledgerAt id) .map ∧
      u = foregone (s.ledgerAt id) .unmap := by
  generalize hp : Phase.sends id m u = p' at h
  cases h with
  | sends hc _ => cases hp; exact ⟨rfl, hc, rfl, rfl⟩
  | finds _ | findsOpened _ | opens _ => cases call <;> cases hp
  | _ => cases hp

/-- A commit goes on when both kinds of change have been answered. -/
theorem of_sends {m u : Option ServiceAnswer} (h : Advance s c call (.sends id m u) p' t) :
    ∃ mapAnswer unmapAnswer, m = some mapAnswer ∧ u = some unmapAnswer ∧
      p'.report? = some ((s.ledgerAt id).report mapAnswer unmapAnswer) := by
  cases h with
  | settlesAll _ => exact ⟨_, _, rfl, rfl, rfl⟩
  | settles _ => exact ⟨_, _, rfl, rfl, rfl⟩

/-- **It goes on to a phase that suits it.** -/
theorem suits (h : Advance s c call p p' t) (hp : p.Suits call) : p'.Suits call := by
  have suits_found : ∀ id, (found call id).Suits call := by
    intro id
    cases call <;> simp [found, Phase.Suits]
  cases h with
  | finds _ | findsOpened _ | opens _ => exact suits_found _
  | misses _ hr => exact hr
  | takesOut _ => cases call <;> first | exact hp.elim | simp [Phase.Suits]
  | findsEmpty hc _ | sends hc _ => exact hc
  | enters hs => exact hs.resolve_right fun ⟨parent, h⟩ => hp parent h
  | retries _ => cases call <;> first | exact hp.elim | exact id
  | settlesAll _ => exact hp
  | _ => trivial

end Advance

/-! ### Being given a lock -/

/-- A lock was free and has been given to a call, and nothing else is new. -/
structure Grants (s : LedgerStore) (c : CallId) (lock : Lock) (u : LedgerStore) : Prop where
  table : u.table = s.table
  calls : u.calls = s.calls
  length : u.cells.length = s.cells.length
  ledgerAt : ∀ i, u.ledgerAt i = s.ledgerAt i
  holder? : ∀ i, u.holder? i = if lock = .ledger i then some c else s.holder? i
  free : ∀ i, lock = .ledger i → s.holder? i = none

/-- **Only a free lock is given away.** -/
theorem grants_of_grant? {lock : Lock} (h : s.grant? c lock = some u) : Grants s c lock u := by
  cases lock with
  | tableRead =>
    simp only [grant?] at h
    split at h
    · cases h; exact ⟨rfl, rfl, rfl, fun _ => rfl, fun _ => rfl, nofun⟩
    · cases h
  | tableWrite =>
    simp only [grant?] at h
    split at h
    · cases h; exact ⟨rfl, rfl, rfl, fun _ => rfl, fun _ => rfl, nofun⟩
    · cases h
  | ledger id =>
    simp only [grant?] at h
    split at h
    · next l w hcell =>
      -- the cell had no holder, and now it has the call
      cases h
      refine ⟨rfl, rfl, length_cells_modifyCell, fun i => ?_, fun i => ?_, ?_⟩
      · exact ledgerAt_modifyCell_of_ledger fun _ => rfl
      · by_cases hi : id = i
        · subst hi; simp [LedgerStore.holder?, modifyCell, hcell]
        · simp [LedgerStore.holder?, modifyCell, hi]
      · rintro i ⟨⟩
        simp [LedgerStore.holder?, hcell]
    · cases h

/-- A free lock of a ledger can be given to any call. -/
theorem exists_grant?_of_free (hid : id < s.cells.length) (hfree : s.holder? id = none) :
    ∃ u, s.grant? c (.ledger id) = some u := by
  obtain ⟨⟨l, holder, waiting⟩, hcell⟩ : ∃ cell, s.cells[id]? = some cell :=
    ⟨_, List.getElem?_eq_getElem hid⟩
  rw [LedgerStore.holder?, hcell] at hfree
  obtain rfl : holder = none := hfree
  simp only [grant?, hcell]
  exact ⟨_, rfl⟩

/-! ### Being answered -/

/-- **The service answers a commit that waits for it**, and each kind of change only once. -/
theorem answered?_eq_some_iff {change : Change} {answer : ServiceAnswer} :
    answered? change answer p = some p' ↔ ∃ id m u, p = .sends id m u ∧
      (change = .map ∧ m = none ∧ p' = .sends id (some answer) u ∨
        change = .unmap ∧ u = none ∧ p' = .sends id m (some answer)) := by
  constructor
  · intro h
    unfold answered? at h
    split at h
    · next id u =>
      split at h
      · cases h; exact ⟨id, none, u, rfl, .inl ⟨rfl, rfl, rfl⟩⟩
      · cases h; exact ⟨id, none, none, rfl, .inr ⟨rfl, rfl, rfl⟩⟩
      · cases h
    · next id m =>
      split at h
      · cases h
      · cases h; exact ⟨id, some m, none, rfl, .inr ⟨rfl, rfl, rfl⟩⟩
    · cases h
  · rintro ⟨id, m, u, rfl, ⟨rfl, rfl, rfl⟩ | ⟨rfl, rfl, rfl⟩⟩
    · rfl
    · cases m <;> rfl

/-! ### What can happen -/

/-- **What can happen**, and to which store it leads. -/
inductive Happens (s : LedgerStore) : StoreEvent → LedgerStore → Prop where
  /-- A call begins. -/
  | starts (call : LedgerCall) : Happens s (.start call)
      { s with calls := s.calls ++ [{ call := call, phase := call.firstPhase }] }
  /-- A free lock is given to a call that waits for it. -/
  | grants {c : CallId} {k : CallState} {lock : Lock} {u : LedgerStore}
      (hk : s.calls[c]? = some k) (hwants : k.phase.wants = some lock) (hwaits : k.granted = false)
      (hu : s.grant? c lock = some u) : Happens s (.grant c)
      { u with calls := u.calls.modify c fun k => { k with granted := true } }
  /-- A call that need not wait goes on. -/
  | advances {c : CallId} {k : CallState} {p' : Phase} {t : LedgerStore}
      (hk : s.calls[c]? = some k) (hready : k.Ready) (h : Advance s c k.call k.phase p' t) :
      Happens s (.advance c) t
  /-- The mapping service answers. -/
  | answers {c : CallId} {k : CallState} {p' : Phase} {change : Change} {answer : ServiceAnswer}
      (hk : s.calls[c]? = some k) (hp : answered? change answer k.phase = some p') :
      Happens s (.answer c change answer) (s.moveTo c p')

/-- **An event leads to a store just when one of the rules says so.** -/
theorem next?_eq_some_iff {e : StoreEvent} : s.next? e = some t ↔ Happens s e t := by
  constructor
  · intro h
    cases e with
    | start call => cases h; exact .starts call
    | grant c =>
      obtain ⟨k, hk, h⟩ := Option.bind_eq_some_iff.1 h
      obtain ⟨lock, hwants, h⟩ := Option.bind_eq_some_iff.1 h
      split at h
      · cases h
      · obtain ⟨u, hu, h⟩ := Option.bind_eq_some_iff.1 h
        cases h
        exact .grants hk hwants (Bool.eq_false_iff.2 ‹_›) hu
    | advance c =>
      obtain ⟨k, hk, h⟩ := Option.bind_eq_some_iff.1 h
      split at h
      · next hready =>
        obtain ⟨p', h⟩ := advance?_eq_some_iff.1 h
        exact .advances hk (by simpa [CallState.Ready] using hready) h
      · cases h
    | answer c change answer =>
      obtain ⟨k, hk, h⟩ := Option.bind_eq_some_iff.1 h
      obtain ⟨p', hp, h⟩ := Option.bind_eq_some_iff.1 h
      cases h
      exact .answers hk hp
  · intro h
    cases h with
    | starts call => rfl
    | grants hk hwants hwaits hu => simp [next?, hk, hwants, hwaits, hu]
    | advances hk hready h =>
      simp only [next?, hk, Option.bind_eq_bind, Option.bind_some]
      rw [if_pos (by simpa [CallState.Ready] using hready)]
      exact advance?_eq_some_iff.2 ⟨_, h⟩
    | answers hk hp => simp [next?, hk, hp]

end LedgerStore

end ObjectMapping
