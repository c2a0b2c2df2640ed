import ObjectMapping.ObjectRef

/-! # Parents of ledgers

A ledger belongs to the object whose relationships it is about to change: a saved object, or a draft
that is known by a name. Two references to one object mean the same ledger (`LedgerParent.key`). -/

namespace ObjectMapping

/-- The **parent** of a ledger. -/
inductive LedgerParent where
  /-- A saved object. -/
  | saved (ref : ObjectRef)
  /-- An object that has not been saved, known by a name. -/
  | draft (name : String)
deriving DecidableEq

/-- What decides whether two parents have one ledger. -/
inductive LedgerKey where
  /-- The number and type of a saved object. -/
  | saved (key : ObjectKey)
  /-- The name of a draft. -/
  | draft (name : String)
deriving DecidableEq

namespace LedgerParent

/-- The parent in a JSON value: an object whose member tells what kind of parent it is. -/
def ofJson? (j : Json) : Option LedgerParent :=
  match j.get? "draft", j.get? "object" with
  | some name, _ => name.text?.map .draft
  | _, some ref => (ObjectRef.ofJson? ref).map .saved
  | _, _ => none

/-- What decides which ledger belongs to a parent. -/
def key : LedgerParent → LedgerKey
  | .saved ref => .saved ref.key
  | .draft name => .draft name

/-- A parent as messages show it. -/
def text : LedgerParent → String
  | .saved ref => ref.text
  | .draft name => "draft " ++ name

end LedgerParent

namespace LedgerKey

/-- Saved objects come before drafts, objects by number and type, drafts by name. -/
def lt : LedgerKey → LedgerKey → Prop
  | .saved a, .saved b => a.1 < b.1 ∨ a.1 = b.1 ∧ a.2 < b.2
  | .saved _, .draft _ => True
  | .draft _, .saved _ => False
  | .draft a, .draft b => a < b

instance (a b : LedgerKey) : Decidable (lt a b) := by
  cases a <;> cases b <;> unfold lt <;> infer_instance

/-- Keys are ordered, saved objects before drafts. -/
instance : LinearlyOrdered LedgerKey where
  lt := lt
  decLt a b := inferInstanceAs (Decidable (lt a b))
  irrefl a := by
    cases a with
    | saved a =>
      rintro (h | ⟨-, h⟩)
      · exact LinearlyOrdered.irrefl a.1 h
      · exact LinearlyOrdered.irrefl a.2 h
    | draft a => exact LinearlyOrdered.irrefl a
  trans {a b c} hab hbc := by
    cases a with
    | saved a =>
      cases b with
      | saved b =>
        cases c with
        | saved c =>
          rcases hab with h | ⟨h, h'⟩
          · rcases hbc with k | ⟨k, -⟩
            · exact .inl (LinearlyOrdered.trans h k)
            · exact .inl (k ▸ h)
          · rcases hbc with k | ⟨k, k'⟩
            · exact .inl (h ▸ k)
            · exact .inr ⟨h.trans k, LinearlyOrdered.trans h' k'⟩
        | draft c => trivial
      | draft b =>
        cases c with
        | saved c => exact hbc.elim
        | draft c => trivial
    | draft a =>
      cases b with
      | saved b => exact hab.elim
      | draft b =>
        cases c with
        | saved c => exact hbc.elim
        | draft c => exact LinearlyOrdered.trans hab hbc
  connected a b := by
    cases a with
    | saved a =>
      cases b with
      | saved b =>
        rcases LinearlyOrdered.connected a.1 b.1 with h | h | h
        · exact .inl (.inl h)
        · rcases LinearlyOrdered.connected a.2 b.2 with k | k | k
          · exact .inl (.inr ⟨h, k⟩)
          · exact .inr (.inl (congrArg LedgerKey.saved (Prod.ext h k)))
          · exact .inr (.inr (.inr ⟨h.symm, k⟩))
        · exact .inr (.inr (.inl h))
      | draft b => exact .inl trivial
    | draft a =>
      cases b with
      | saved b => exact .inr (.inr trivial)
      | draft b =>
        rcases LinearlyOrdered.connected a b with h | h | h
        · exact .inl h
        · exact .inr (.inl (congrArg LedgerKey.draft h))
        · exact .inr (.inr h)

end LedgerKey

end ObjectMapping
