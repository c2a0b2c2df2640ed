import ObjectMapping.Ledger.Store

/-! # What can be seen of shared ledgers

What can be seen of shared ledgers is their table, what each ledger holds (`LedgerStore.ledgerAt`),
which call has its lock (`LedgerStore.holder?`) and in which phase each call is. Every part of a step
comes here with what it does to each of these, so that no later proof looks into the cells. -/

namespace ObjectMapping

/-- A ledger in which nothing is staged is the empty one. -/
theorem Ledger.isEmpty_iff {l : Ledger} : l.isEmpty = true ↔ l = .empty := by
  obtain ⟨intents⟩ := l
  simp [isEmpty, empty]

/-- A commit leaves nothing of nothing. -/
theorem Ledger.settle_empty {mapAnswer unmapAnswer : ServiceAnswer} :
    Ledger.empty.settle mapAnswer unmapAnswer = .empty := by
  cases mapAnswer <;> cases unmapAnswer <;> rfl

namespace LedgerCall

/-- Whether a call stages changes. -/
def Stages : LedgerCall → Prop
  | .stage _ _ _ | .stageTargets _ _ => True
  | _ => False

/-- Whether a call discards. -/
def Discards : LedgerCall → Prop
  | .discard _ => True
  | _ => False

/-- Whether a call commits. -/
def Commits : LedgerCall → Prop
  | .commit _ _ => True
  | _ => False

end LedgerCall

/-- What is done to a **ledger**. -/
inductive LedgerEdit where
  /-- What a call stages is put into it. -/
  | staging (call : LedgerCall)
  /-- It is emptied. -/
  | clearing
  /-- What the mapping service has carried out is taken out. -/
  | settling (mapAnswer unmapAnswer : ServiceAnswer)

/-- A ledger after an edit. -/
def LedgerEdit.apply : LedgerEdit → Ledger → Ledger
  | .staging call, l => call.edit l
  | .clearing, _ => .empty
  | .settling mapAnswer unmapAnswer, l => l.settle mapAnswer unmapAnswer

namespace Phase

/-- The ledger that a call has or waits for. -/
def subject? : Phase → Option LedgerId
  | .enters id => some id
  | p => p.holds

/-- What a commit that has been answered reports. -/
def report? : Phase → Option CommitReport
  | .closes _ report => some report
  | .finished (.report report) => some report
  | _ => none

/-- The phases in which a call can be. -/
def Suits (call : LedgerCall) : Phase → Prop
  | .lookUp => ¬ call.Discards
  | .opens => call.withoutLedger? = none
  | .takesOut => call.Discards
  | .enters _ => ∀ parent, call ≠ .opening parent
  | .rechecks _ => call.Stages
  | .sends _ _ _ | .closes _ _ => call.Commits
  | .finished _ => True

end Phase

namespace CallState

/-- The ledger whose lock a call has. -/
def keeps (k : CallState) : Option LedgerId :=
  match k.phase with
  | .enters id => if k.granted then some id else none
  | p => p.holds

/-- Whether a call need not wait. -/
def Ready (k : CallState) : Prop := k.phase.wants = none ∨ k.granted = true

/-- A call that need not wait has the lock of its subject. -/
theorem keeps_of_ready {k : CallState} (h : k.Ready) : k.keeps = k.phase.subject? := by
  obtain ⟨call, phase, granted⟩ := k
  cases phase with
  | enters id =>
    obtain h | rfl := h
    · cases h
    · rfl
  | _ => rfl

end CallState

namespace LedgerStore

variable {s t : LedgerStore} {c d : CallId} {call : LedgerCall} {p p' : Phase} {id i : LedgerId}

/-- The call that holds the lock of a ledger. -/
def holder? (s : LedgerStore) (id : LedgerId) : Option CallId := s.cells[id]?.bind LedgerCell.holder

/-- A ledger that was never opened is empty. -/
theorem ledgerAt_of_le (h : s.cells.length ≤ id) : s.ledgerAt id = .empty := by
  unfold ledgerAt
  rw [List.getElem?_eq_none h]
  rfl

/-- Whether the table leads to a ledger, as a proposition. -/
theorem leadsTo_iff {key : LedgerKey} : s.leadsTo key id = true ↔ s.table.get? key = some id := by
  simp [leadsTo]

/-! ### Parts of a step -/

section Parts

variable {f : LedgerCell → LedgerCell}

@[simp] theorem table_modifyCell : (s.modifyCell id f).table = s.table := rfl

@[simp] theorem calls_modifyCell : (s.modifyCell id f).calls = s.calls := rfl

@[simp] theorem length_cells_modifyCell :
    (s.modifyCell id f).cells.length = s.cells.length := by
  simp [modifyCell]

/-- Where contents are kept, every ledger stays as it is. -/
theorem ledgerAt_modifyCell_of_ledger (hf : ∀ cell, (f cell).ledger = cell.ledger) :
    (s.modifyCell id f).ledgerAt i = s.ledgerAt i := by
  unfold ledgerAt modifyCell
  by_cases h : id = i
  · subst h
    cases hcell : s.cells[id]? <;> simp [hf, hcell]
  · simp [h]

/-- Editing a ledger leaves the others as they are. -/
theorem ledgerAt_modifyCell_of_ne (h : i ≠ id) :
    (s.modifyCell id f).ledgerAt i = s.ledgerAt i := by
  simp [ledgerAt, modifyCell, h.symm]

/-- A ledger after it has been edited. -/
theorem ledgerAt_modifyCell_self {g : Ledger → Ledger} (hid : id < s.cells.length)
    (hf : ∀ cell, (f cell).ledger = g cell.ledger) :
    (s.modifyCell id f).ledgerAt id = g (s.ledgerAt id) := by
  simp [ledgerAt, modifyCell, hid, hf]

/-- Where holders are kept, every lock stays with the call that holds it. -/
theorem holder?_modifyCell_of_holder (hf : ∀ cell, (f cell).holder = cell.holder) :
    (s.modifyCell id f).holder? i = s.holder? i := by
  unfold holder? modifyCell
  by_cases h : id = i
  · subst h
    cases hcell : s.cells[id]? <;> simp [hf, hcell]
  · simp [h]

@[simp] theorem table_leave : (s.leave id).table = s.table := rfl

@[simp] theorem calls_leave : (s.leave id).calls = s.calls := rfl

@[simp] theorem length_cells_leave : (s.leave id).cells.length = s.cells.length :=
  length_cells_modifyCell

@[simp] theorem ledgerAt_leave : (s.leave id).ledgerAt i = s.ledgerAt i :=
  ledgerAt_modifyCell_of_ledger fun _ => rfl

/-- Leaving a ledger frees its lock and no other. -/
@[simp] theorem holder?_leave :
    (s.leave id).holder? i = if id = i then none else s.holder? i := by
  unfold holder? leave modifyCell
  by_cases h : id = i
  · subst h
    cases hcell : s.cells[id]? <;> simp [hcell]
  · simp [h]

@[simp] theorem table_leaveTable : (s.leaveTable c).table = s.table := rfl

@[simp] theorem calls_leaveTable : (s.leaveTable c).calls = s.calls := rfl

@[simp] theorem cells_leaveTable : (s.leaveTable c).cells = s.cells := rfl

@[simp] theorem ledgerAt_leaveTable : (s.leaveTable c).ledgerAt i = s.ledgerAt i := rfl

@[simp] theorem holder?_leaveTable : (s.leaveTable c).holder? i = s.holder? i := rfl

@[simp] theorem table_moveTo : (s.moveTo c p).table = s.table := by cases p <;> rfl

@[simp] theorem length_cells_moveTo : (s.moveTo c p).cells.length = s.cells.length := by
  cases p <;> simp [moveTo]

@[simp] theorem ledgerAt_moveTo : (s.moveTo c p).ledgerAt i = s.ledgerAt i := by
  cases p with
  | enters id => exact ledgerAt_modifyCell_of_ledger fun _ => rfl
  | _ => rfl

@[simp] theorem holder?_moveTo : (s.moveTo c p).holder? i = s.holder? i := by
  cases p with
  | enters id => exact holder?_modifyCell_of_holder fun _ => rfl
  | _ => rfl

@[simp] theorem calls_moveTo :
    (s.moveTo c p).calls = s.calls.modify c fun k => { k with phase := p, granted := false } := by
  cases p <;> rfl

/-- The store with a ledger for a key that has none. -/
def withNew (s : LedgerStore) (key : LedgerKey) : LedgerStore :=
  { s with table := s.table.insert key s.cells.length, cells := s.cells ++ [{}] }

/-- The store with the entry of a key taken out of the table. -/
def withoutEntry (s : LedgerStore) (key : LedgerKey) : LedgerStore :=
  { s with table := s.table.erase key }

/-- The store with a ledger edited. -/
def editAt (s : LedgerStore) (id : LedgerId) (f : Ledger → Ledger) : LedgerStore :=
  s.modifyCell id fun cell => { cell with ledger := f cell.ledger }

/-- A ledger after it has been edited. -/
theorem ledgerAt_editAt {f : Ledger → Ledger} (hid : id < s.cells.length) :
    (s.editAt id f).ledgerAt i = if i = id then f (s.ledgerAt i) else s.ledgerAt i := by
  unfold editAt
  by_cases h : i = id
  · subst h
    rw [if_pos rfl, ledgerAt_modifyCell_self hid fun _ => rfl]
  · rw [if_neg h, ledgerAt_modifyCell_of_ne h]

@[simp] theorem holder?_editAt {f : Ledger → Ledger} :
    (s.editAt id f).holder? i = s.holder? i :=
  holder?_modifyCell_of_holder fun _ => rfl

@[simp] theorem table_editAt {f : Ledger → Ledger} : (s.editAt id f).table = s.table := rfl

@[simp] theorem calls_editAt {f : Ledger → Ledger} : (s.editAt id f).calls = s.calls := rfl

@[simp] theorem length_cells_editAt {f : Ledger → Ledger} :
    (s.editAt id f).cells.length = s.cells.length :=
  length_cells_modifyCell

/-- A ledger that is opened is empty, as it was before. -/
@[simp] theorem ledgerAt_withNew {key : LedgerKey} : (s.withNew key).ledgerAt i = s.ledgerAt i := by
  unfold ledgerAt withNew
  by_cases h : i < s.cells.length
  · simp [List.getElem?_append_left h]
  · rw [List.getElem?_append_right (Nat.le_of_not_lt h), List.getElem?_eq_none (Nat.le_of_not_lt h)]
    cases i - s.cells.length <;> rfl

/-- Nobody holds the lock of a ledger that is opened. -/
@[simp] theorem holder?_withNew {key : LedgerKey} : (s.withNew key).holder? i = s.holder? i := by
  unfold holder? withNew
  by_cases h : i < s.cells.length
  · simp [List.getElem?_append_left h]
  · rw [List.getElem?_append_right (Nat.le_of_not_lt h), List.getElem?_eq_none (Nat.le_of_not_lt h)]
    cases i - s.cells.length <;> rfl

@[simp] theorem ledgerAt_withoutEntry {key : LedgerKey} :
    (s.withoutEntry key).ledgerAt i = s.ledgerAt i := rfl

@[simp] theorem holder?_withoutEntry {key : LedgerKey} :
    (s.withoutEntry key).holder? i = s.holder? i := rfl

end Parts

end LedgerStore

end ObjectMapping
