import ObjectMapping.Ledger.Store

/-! # A schedule for shared ledgers

The order in which calls on shared ledgers go on is open. Here is one such order: the calls are
visited from the oldest to the youngest, each goes on as far as it can, and this is repeated until a
round goes by in which no call comes to its end. The lock of a ledger is given to the call that has
waited longest. The mapping service stands behind a gate; while the gate is closed, a call to the
service waits in front of it. -/

namespace ObjectMapping

/-- Shared ledgers and a mapping service behind a gate. -/
structure Schedule (σ : Type) where
  /-- The shared ledgers. -/
  store : LedgerStore := {}
  /-- The state of the service. -/
  service : σ
  /-- Whether calls reach the service. -/
  gateOpen : Bool := true

namespace Schedule

variable {σ : Type}

/-- The schedule after an event on the ledgers, if it can happen. -/
def happen? (r : Schedule σ) (e : StoreEvent) : Option (Schedule σ) :=
  (r.store.next? e).map fun store => { r with store := store }

/-- Whether a call is the next to be given a lock. -/
def isNext (r : Schedule σ) (c : CallId) : Lock → Bool
  | .ledger id => (r.store.cells[id]?.bind fun cell => cell.waiting.head?) == some c
  | _ => true

/-- The schedule after the service has answered a commit for one kind of change. -/
def send? (r : Schedule σ) (service : MappingService σ) (c : CallId) (saved : ObjectRef)
    (id : LedgerId) (change : Change) : Option (Schedule σ) :=
  if r.gateOpen then
    let (answer, state) := (r.store.ledgerAt id).send service saved change r.service
    { r with service := state }.happen? (.answer c change answer)
  else none

/-- The schedule after a call has moved once, if it can move. -/
def move? (r : Schedule σ) (service : MappingService σ) (c : CallId) : Option (Schedule σ) := do
  let k ← r.store.calls[c]?
  match k.phase, k.call with
  | .sends id none _, .commit _ saved => r.send? service c saved id .map
  | .sends id _ none, .commit _ saved => r.send? service c saved id .unmap
  | phase, _ =>
    match phase.wants with
    | some lock =>
      if k.granted then r.happen? (.advance c)
      else if r.isNext c lock then r.happen? (.grant c)
      else none
    | none => r.happen? (.advance c)

/-- The schedule after a call has moved as far as it can, but no more often than given. -/
def run (service : MappingService σ) (c : CallId) : (moves : Nat) → Schedule σ → Schedule σ
  | 0, r => r
  | moves + 1, r =>
    match r.move? service c with
    | some r => run service c moves r
    | none => r

/-- A bound above the number of moves that a call can make without waiting: it goes back to look its
ledger up again at most once, because the ledger that it then finds is open and stays so. -/
def moveLimit : Nat := 16

/-- The calls that have not come to their end, from the oldest to the youngest. -/
def unfinished (r : Schedule σ) : List CallId :=
  (List.range r.store.calls.length).filter fun c =>
    (r.store.calls[c]?.bind fun k => k.phase.result?).isNone

/-- What a call has answered. -/
def result? (r : Schedule σ) (c : CallId) : Option CallResult :=
  r.store.calls[c]?.bind fun k => k.phase.result?

/-- The schedule after a visit to each of the given calls, with what was answered, in order. -/
def visit (service : MappingService σ) (r : Schedule σ) :
    List CallId → Schedule σ × List (CallId × CallResult)
  | [] => (r, [])
  | c :: rest =>
    let r := run service c moveLimit r
    let (after, more) := visit service r rest
    match r.result? c with
    | some result => (after, (c, result) :: more)
    | none => (after, more)

/-- The schedule after rounds of visits, until a round brings no answer. -/
def rounds (service : MappingService σ) :
    (limit : Nat) → Schedule σ → Schedule σ × List (CallId × CallResult)
  | 0, r => (r, [])
  | limit + 1, r =>
    let (r, answers) := visit service r r.unfinished
    if answers.isEmpty then (r, [])
    else
      let (r, more) := rounds service limit r
      (r, answers ++ more)

/-- **The schedule after all calls have gone on as far as they can**, with what was answered. Every
round but the last brings an answer, so there are no more rounds than calls and one. -/
def settle (service : MappingService σ) (r : Schedule σ) :
    Schedule σ × List (CallId × CallResult) :=
  rounds service (r.unfinished.length + 1) r

/-- The schedule with one more call. -/
def start (r : Schedule σ) (call : LedgerCall) : Schedule σ := (r.happen? (.start call)).getD r

/-- The open ledger of a parent, if its lock is free. -/
def peek? (r : Schedule σ) (parent : LedgerParent) : Option Ledger :=
  match (r.store.table.get? parent.key).bind fun id => r.store.cells[id]? with
  | some ⟨ledger, none, []⟩ => some ledger
  | some _ => none
  | none => some .empty

end Schedule

end ObjectMapping
