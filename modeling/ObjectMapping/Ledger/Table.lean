import ObjectMapping.Ledger
import ObjectMapping.Ledger.Parent
import ObjectMapping.SortedMap

/-! # Tables of ledgers

The ledgers of all parents that are being edited. A ledger is opened when something is staged for
its parent, and closed when a commit leaves it empty or it is discarded. -/

namespace ObjectMapping

/-- The **ledgers by parent**. -/
abbrev LedgerTable := SortedMap LedgerKey Ledger

namespace LedgerTable

/-- The ledger of a parent, empty if there is none. -/
def ledger (t : LedgerTable) (parent : LedgerParent) : Ledger :=
  (t.get? parent.key).getD .empty

/-- The table after staging a change of objects for a parent. -/
def stage (t : LedgerTable) (parent : LedgerParent) (objects : List ObjectRef) (change : Change) :
    LedgerTable :=
  t.insert parent.key ((t.ledger parent).stage objects change)

/-- The table after staging the mapping of targets for a parent. -/
def stageTargets (t : LedgerTable) (parent : LedgerParent) (targets : List MappingTarget) :
    LedgerTable :=
  t.insert parent.key ((t.ledger parent).stageTargets targets)

/-- A commit of the ledger of a parent, whose saved object is given. -/
def commit {σ : Type} (t : LedgerTable) (service : MappingService σ) (parent : LedgerParent)
    (saved : ObjectRef) (s : σ) : CommitReport × LedgerTable × σ :=
  match t.get? parent.key with
  | none => ({}, t, s)
  | some l =>
    let (report, l, s) := l.commit service .map saved s
    (report, if l.isEmpty then t.erase parent.key else t.insert parent.key l, s)

/-- The table without the ledger of a parent. -/
def discard (t : LedgerTable) (parent : LedgerParent) : LedgerTable := t.erase parent.key

end LedgerTable

end ObjectMapping
