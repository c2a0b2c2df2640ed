import ObjectMapping.Ledger
import ObjectMapping.Ledger.Parent
import ObjectMapping.SortedMap

/-! # Shared ledgers

Several callers may stage, commit and discard at the same time. They share a table that leads from
parents to ledgers. The table is guarded by a lock that many may hold for reading or one for
writing; each ledger has a lock of its own. A ledger that is taken out of the table lives on as long
as some call has a hand on it.

A call goes through phases (`Phase`). In each it wants at most one lock (`Phase.wants`) and may hold
that of a ledger (`Phase.holds`); the lock of the table is given back before the next phase begins.
`LedgerStore.advance?` says what a call does from one phase to the next, and `LedgerStore.next?`
what can happen to all of them together. -/

namespace ObjectMapping

/-- The number of a ledger, in the order in which ledgers were opened. -/
abbrev LedgerId := Nat

/-- The number of a call, in the order in which calls were made. -/
abbrev CallId := Nat

/-- A **call** on shared ledgers. -/
inductive LedgerCall where
  /-- Opens the ledger of a parent unless it is open. -/
  | opening (parent : LedgerParent)
  /-- Stages a change of objects. -/
  | stage (parent : LedgerParent) (objects : List ObjectRef) (change : Change)
  /-- Stages the mapping of targets. -/
  | stageTargets (parent : LedgerParent) (targets : List MappingTarget)
  /-- Asks for a copy of the ledger. -/
  | snapshot (parent : LedgerParent)
  /-- Carries out what is staged for a parent, whose saved object is given. -/
  | commit (parent : LedgerParent) (saved : ObjectRef)
  /-- Drops the ledger and all that is staged in it. -/
  | discard (parent : LedgerParent)

/-- What a call **answers**. -/
inductive CallResult where
  /-- That it is done. -/
  | done
  /-- A copy of the ledger. -/
  | copy (ledger : Ledger)
  /-- What came of the commit. -/
  | report (report : CommitReport)

namespace LedgerCall

/-- What decides which ledger a call is for. -/
def key : LedgerCall → LedgerKey
  | .opening p | .stage p _ _ | .stageTargets p _ | .snapshot p | .commit p _ | .discard p => p.key

/-- What a call does to the ledger that it has found. -/
def edit : LedgerCall → Ledger → Ledger
  | .stage _ objects change, l => l.stage objects change
  | .stageTargets _ targets, l => l.stageTargets targets
  | .discard _, _ => .empty
  | _, l => l

/-- What a call answers when there is no ledger and none is opened for it, or nothing if one is
opened. -/
def withoutLedger? : LedgerCall → Option CallResult
  | .snapshot _ => some (.copy .empty)
  | .commit _ _ => some (.report {})
  | .discard _ => some .done
  | _ => none

end LedgerCall

/-- A **lock** that a call may want. -/
inductive Lock where
  /-- That of the table, to read it. -/
  | tableRead
  /-- That of the table, to write to it. -/
  | tableWrite
  /-- That of a ledger. -/
  | ledger (id : LedgerId)
deriving DecidableEq

/-- The **phase** of a call. -/
inductive Phase where
  /-- It looks for the ledger in the table. -/
  | lookUp
  /-- It found no ledger and opens one. -/
  | opens
  /-- It takes the ledger out of the table. -/
  | takesOut
  /-- It waits for the ledger. -/
  | enters (id : LedgerId)
  /-- It has the ledger and sees whether the table still leads there. -/
  | rechecks (id : LedgerId)
  /-- It has the ledger and waits for the answers of the mapping service. -/
  | sends (id : LedgerId) (mapAnswer unmapAnswer : Option ServiceAnswer)
  /-- It has left the ledger empty and closes it. -/
  | closes (id : LedgerId) (report : CommitReport)
  /-- It has answered. -/
  | finished (result : CallResult)

namespace Phase

/-- The lock that a call wants before it goes on. -/
def wants : Phase → Option Lock
  | .lookUp | .rechecks _ => some .tableRead
  | .opens | .takesOut | .closes _ _ => some .tableWrite
  | .enters id => some (.ledger id)
  | .sends _ _ _ | .finished _ => none

/-- The ledger whose lock a call holds all through a phase. -/
def holds : Phase → Option LedgerId
  | .rechecks id | .sends id _ _ | .closes id _ => some id
  | _ => none

/-- What a call has answered. -/
def result? : Phase → Option CallResult
  | .finished result => some result
  | _ => none

end Phase

/-- The **state of a call**. -/
structure CallState where
  /-- The call. -/
  call : LedgerCall
  /-- Its phase. -/
  phase : Phase
  /-- Whether it has been given the lock that it wants. -/
  granted : Bool := false

/-- The first phase of a call. -/
def LedgerCall.firstPhase : LedgerCall → Phase
  | .discard _ => .takesOut
  | _ => .lookUp

/-- A **ledger with its lock**. -/
structure LedgerCell where
  /-- The ledger. -/
  ledger : Ledger := .empty
  /-- The call that holds the lock. -/
  holder : Option CallId := none
  /-- The calls that wait for the lock, the longest waiting first. -/
  waiting : List CallId := []

/-- The **lock of the table**. -/
structure TableLock where
  /-- The calls that hold it for reading. -/
  readers : List CallId := []
  /-- The call that holds it for writing. -/
  writer : Option CallId := none

namespace TableLock

/-- Whether the lock can be given for reading. -/
def isReadable (l : TableLock) : Bool := l.writer.isNone

/-- Whether the lock can be given for writing. -/
def isWritable (l : TableLock) : Bool := l.writer.isNone && l.readers.isEmpty

/-- The lock after a call has given it back. -/
def release (l : TableLock) (c : CallId) : TableLock :=
  ⟨l.readers.erase c, if l.writer = some c then none else l.writer⟩

end TableLock

/-- **Shared ledgers.** -/
structure LedgerStore where
  /-- The open ledgers. -/
  table : SortedMap LedgerKey LedgerId := ∅
  /-- All ledgers that were ever opened, by number. -/
  cells : List LedgerCell := []
  /-- All calls that were ever made, by number. -/
  calls : List CallState := []
  /-- The lock of the table. -/
  tableLock : TableLock := {}

namespace LedgerStore

/-! ### Parts of a step -/

/-- The store with a ledger or its lock changed. -/
def modifyCell (s : LedgerStore) (id : LedgerId) (f : LedgerCell → LedgerCell) : LedgerStore :=
  { s with cells := s.cells.modify id f }

/-- The ledger with a number. -/
def ledgerAt (s : LedgerStore) (id : LedgerId) : Ledger :=
  (s.cells[id]?.map LedgerCell.ledger).getD .empty

/-- The store after a call has given back the lock of a ledger. -/
def leave (s : LedgerStore) (id : LedgerId) : LedgerStore :=
  s.modifyCell id fun cell => { cell with holder := none }

/-- The store after a call has given back the lock of the table. -/
def leaveTable (s : LedgerStore) (c : CallId) : LedgerStore :=
  { s with tableLock := s.tableLock.release c }

/-- The store with a call in a new phase. A call that is to wait for a ledger takes its place behind
those that wait already. -/
def moveTo (s : LedgerStore) (c : CallId) (phase : Phase) : LedgerStore :=
  let s := { s with calls := s.calls.modify c fun k => { k with phase := phase, granted := false } }
  match phase with
  | .enters id => s.modifyCell id fun cell => { cell with waiting := cell.waiting ++ [c] }
  | _ => s

/-- The store with a ledger for a key, which is opened if the table has none, and its number. -/
def openFor (s : LedgerStore) (key : LedgerKey) : LedgerStore × LedgerId :=
  match s.table.get? key with
  | some id => (s, id)
  | none =>
    let id := s.cells.length
    ({ s with table := s.table.insert key id, cells := s.cells ++ [{}] }, id)

/-- Whether the table leads from a key to a ledger. -/
def leadsTo (s : LedgerStore) (key : LedgerKey) (id : LedgerId) : Bool :=
  s.table.get? key == some id

/-- The phase after a call has found its ledger in the table or opened it. -/
def found (call : LedgerCall) (id : LedgerId) : Phase :=
  match call with
  | .opening _ => .finished .done
  | _ => .enters id

/-- The answer that is known in advance to a call for one kind of change: where there is nothing to
do, it has succeeded. -/
def foregone (l : Ledger) (change : Change) : Option ServiceAnswer :=
  if l.half change = [] then some (.ok ()) else none

/-! ### Steps -/

/-- The store after a call has gone on from a phase in which it wants no lock or has been given the
one that it wants. -/
def advance? (s : LedgerStore) (c : CallId) (call : LedgerCall) : Phase → Option LedgerStore
  | .lookUp =>
    let s := s.leaveTable c
    match s.table.get? call.key, call.withoutLedger? with
    | some id, _ => some (s.moveTo c (found call id))
    | none, some result => some (s.moveTo c (.finished result))
    | none, none => some (s.moveTo c .opens)
  | .opens =>
    let (s, id) := (s.leaveTable c).openFor call.key
    some (s.moveTo c (found call id))
  | .takesOut =>
    let s := s.leaveTable c
    match s.table.get? call.key with
    | some id => some ({ s with table := s.table.erase call.key }.moveTo c (.enters id))
    | none => some (s.moveTo c (.finished .done))
  | .enters id =>
    let l := s.ledgerAt id
    match call with
    | .snapshot _ => some ((s.leave id).moveTo c (.finished (.copy l)))
    | .commit _ _ =>
      if l.isEmpty then some (s.moveTo c (.closes id {}))
      else some (s.moveTo c (.sends id (foregone l .map) (foregone l .unmap)))
    | .discard _ =>
      let s := s.modifyCell id fun cell => { cell with ledger := call.edit cell.ledger }
      some ((s.leave id).moveTo c (.finished .done))
    | _ => some (s.moveTo c (.rechecks id))
  | .rechecks id =>
    let s := s.leaveTable c
    if s.leadsTo call.key id then
      let s := s.modifyCell id fun cell => { cell with ledger := call.edit cell.ledger }
      some ((s.leave id).moveTo c (.finished .done))
    else some ((s.leave id).moveTo c .lookUp)
  | .sends id (some mapAnswer) (some unmapAnswer) =>
    let l := s.ledgerAt id
    let report := l.report mapAnswer unmapAnswer
    let l := l.settle mapAnswer unmapAnswer
    let s := s.modifyCell id fun cell => { cell with ledger := l }
    if l.isEmpty then some (s.moveTo c (.closes id report))
    else some ((s.leave id).moveTo c (.finished (.report report)))
  | .sends _ _ _ => none
  | .closes id report =>
    let s := s.leaveTable c
    let s := if s.leadsTo call.key id then { s with table := s.table.erase call.key } else s
    some ((s.leave id).moveTo c (.finished (.report report)))
  | .finished _ => none

/-- The store after a call has been given a lock, if the lock is free. -/
def grant? (s : LedgerStore) (c : CallId) : Lock → Option LedgerStore
  | .tableRead =>
    if s.tableLock.isReadable then
      some { s with tableLock := { s.tableLock with readers := c :: s.tableLock.readers } }
    else none
  | .tableWrite =>
    if s.tableLock.isWritable then
      some { s with tableLock := { s.tableLock with writer := some c } }
    else none
  | .ledger id =>
    match s.cells[id]? with
    | some ⟨_, none, _⟩ =>
      some (s.modifyCell id fun cell =>
        { cell with holder := some c, waiting := cell.waiting.erase c })
    | _ => none

/-- The phase after the mapping service has answered the call for one kind of change. -/
def answered? (change : Change) (answer : ServiceAnswer) : Phase → Option Phase
  | .sends id none unmapAnswer =>
    match change, unmapAnswer with
    | .map, _ => some (.sends id (some answer) unmapAnswer)
    | .unmap, none => some (.sends id none (some answer))
    | .unmap, some _ => none
  | .sends id (some mapAnswer) none =>
    match change with
    | .map => none
    | .unmap => some (.sends id (some mapAnswer) (some answer))
  | _ => none

end LedgerStore

/-- What can **happen** to shared ledgers. -/
inductive StoreEvent where
  /-- A call is made. -/
  | start (call : LedgerCall)
  /-- A call is given the lock that it wants. -/
  | grant (call : CallId)
  /-- A call goes on to its next phase. -/
  | advance (call : CallId)
  /-- The mapping service answers a commit for one kind of change. -/
  | answer (call : CallId) (change : Change) (answer : ServiceAnswer)

namespace LedgerStore

/-- **The store after an event**, if the event can happen. -/
def next? (s : LedgerStore) : StoreEvent → Option LedgerStore
  | .start call => some { s with calls := s.calls ++ [{ call := call, phase := call.firstPhase }] }
  | .grant c => do
    let k ← s.calls[c]?
    let lock ← k.phase.wants
    if k.granted then none
    else
      let s ← s.grant? c lock
      some { s with calls := s.calls.modify c fun k => { k with granted := true } }
  | .advance c => do
    let k ← s.calls[c]?
    if k.phase.wants.isNone || k.granted then s.advance? c k.call k.phase else none
  | .answer c change answer => do
    let k ← s.calls[c]?
    let phase ← answered? change answer k.phase
    some (s.moveTo c phase)

/-- One store leads to another by an event. -/
def Step (s t : LedgerStore) : Prop := ∃ e, s.next? e = some t

/-- The stores that can come about. -/
inductive Reachable : LedgerStore → Prop where
  /-- In the beginning there are no ledgers and no calls. -/
  | start : Reachable {}
  /-- What can happen, happens. -/
  | step {s t : LedgerStore} : Reachable s → Step s t → Reachable t

end LedgerStore

end ObjectMapping
