import ObjectMapping.Json
import ObjectMapping.Text.AsciiCase
import ObjectMapping.Text.Blank
import ObjectMapping.Text.Quoted

/-! # Type names

Objects are sorted into types, and a type is known by its name. A name that a person writes into a
file is checked (`TypeName.read`): it is not empty and holds no blank. Names are compared exactly,
except in forbidden pairs, and ordered by code points. -/

namespace ObjectMapping

/-- The **name of a type** of objects. -/
structure TypeName where
  /-- The name as text. -/
  text : String
deriving DecidableEq, Inhabited

/-- A text that is not the name of a type. -/
structure InvalidTypeName where
  /-- The refused text. -/
  text : String
deriving DecidableEq

/-- What the refusal of a name says. -/
def InvalidTypeName.message (e : InvalidTypeName) : String :=
  "invalid type name: " ++ Text.quoted e.text

/-- The refusal of a name as JSON. -/
def InvalidTypeName.toJson (e : InvalidTypeName) : Json :=
  .failure "InvalidTypeName" (some e.message)

namespace TypeName

/-- Names are ordered as their texts. -/
instance : LinearlyOrdered TypeName where
  lt a b := a.text < b.text
  decLt a b := inferInstanceAs (Decidable (a.text < b.text))
  irrefl a := String.lt_irrefl a.text
  trans := String.lt_trans
  connected a b := (LinearlyOrdered.connected a.text b.text).imp id (Or.imp (fun h => by
    cases a; cases b; cases h; rfl) id)

/-- A text that may stand for a type: it is not empty and holds no blank. -/
def WellFormed (s : String) : Prop := s.toList ≠ [] ∧ ∀ c ∈ s.toList, Text.isBlank c = false

/-- Only the characters of the text are looked at, not all characters that there are. -/
instance (s : String) : Decidable (WellFormed s) :=
  @instDecidableAnd _ _ _ (List.decidableBAll (fun c => Text.isBlank c = false) s.toList)

/-- The type name in a text, which has to be well formed. -/
def read (s : String) : Except InvalidTypeName TypeName :=
  if WellFormed s then .ok ⟨s⟩ else .error ⟨s⟩

/-- A text is read exactly when it is well formed, and then as itself. -/
theorem read_eq_ok_iff {s : String} {n : TypeName} : read s = .ok n ↔ WellFormed s ∧ n = ⟨s⟩ := by
  unfold read
  split
  · next h => simp [h, eq_comm]
  · next h => simp [h]

/-- A text is refused when it is not well formed, and the refusal tells which one it was. -/
theorem read_eq_error_iff {s : String} {cause : InvalidTypeName} :
    read s = .error cause ↔ ¬ WellFormed s ∧ cause = ⟨s⟩ := by
  unfold read
  split
  · next h => simp [h]
  · next h => simp [h, eq_comm]

/-- The type of snapshots, the frozen copies of objects. -/
def snapshot : TypeName := ⟨"Snapshot"⟩

/-- Whether two names agree up to the case of ASCII letters. -/
def eqIgnoringCase (a b : TypeName) : Bool := Text.eqIgnoringCase a.text b.text

/-- A name as JSON. -/
def toJson (n : TypeName) : Json := .str n.text

/-- The name in a JSON value, which is not checked further. -/
def ofJson? (j : Json) : Option TypeName := j.text?.map TypeName.mk

end TypeName

end ObjectMapping
