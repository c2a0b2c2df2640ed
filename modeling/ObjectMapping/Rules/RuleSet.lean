import ObjectMapping.TypeName

/-! # Rule sets

The mapping rules of a type: six sets of types, one per field, and whether relationships between
two objects of the type have a direction. While the rules of a type are being put together the last
part may still be undecided (`PartialRules`). -/

namespace ObjectMapping

/-- One of the **set-valued fields** of the rules of a type. -/
inductive RuleField where
  /-- The types of which new objects may be created for an object of the type. -/
  | create
  /-- The types to which an object of the type may be mapped. -/
  | map
  /-- The types from which an object of the type may be unmapped. -/
  | unmap
  /-- The types to which another system maps objects of the type. -/
  | externalMap
  /-- The types from which another system unmaps objects of the type. -/
  | externalUnmap
  /-- The types to which an object of the type is related only through other objects. -/
  | indirect
deriving DecidableEq

namespace RuleField

/-- The fields in their written order. -/
def all : List RuleField := [create, map, unmap, externalMap, externalUnmap, indirect]

/-- Every field is listed. -/
theorem mem_all (f : RuleField) : f ∈ all := by cases f <;> decide

/-- The name of a field. -/
def text : RuleField → String
  | .create => "create"
  | .map => "map"
  | .unmap => "unmap"
  | .externalMap => "external_map"
  | .externalUnmap => "external_unmap"
  | .indirect => "indirect"

/-- The field that a name stands for. -/
def ofText? (s : String) : Option RuleField := all.find? fun f => f.text = s

end RuleField

/-- A **set of types for each field**. -/
structure FieldSets where
  /-- The set of the field `create`. -/
  create : SortedSet TypeName := ∅
  /-- The set of the field `map`. -/
  map : SortedSet TypeName := ∅
  /-- The set of the field `unmap`. -/
  unmap : SortedSet TypeName := ∅
  /-- The set of the field `externalMap`. -/
  externalMap : SortedSet TypeName := ∅
  /-- The set of the field `externalUnmap`. -/
  externalUnmap : SortedSet TypeName := ∅
  /-- The set of the field `indirect`. -/
  indirect : SortedSet TypeName := ∅
deriving DecidableEq

namespace FieldSets

/-- The set of a field. -/
def get (s : FieldSets) : RuleField → SortedSet TypeName
  | .create => s.create
  | .map => s.map
  | .unmap => s.unmap
  | .externalMap => s.externalMap
  | .externalUnmap => s.externalUnmap
  | .indirect => s.indirect

/-- The sets given field by field. -/
def build (sets : RuleField → SortedSet TypeName) : FieldSets where
  create := sets .create
  map := sets .map
  unmap := sets .unmap
  externalMap := sets .externalMap
  externalUnmap := sets .externalUnmap
  indirect := sets .indirect

/-- The set of a field of sets given field by field. -/
@[simp] theorem get_build (sets : RuleField → SortedSet TypeName) (f : RuleField) :
    (build sets).get f = sets f := by cases f <;> rfl

/-- Field sets that agree in every field are equal. -/
theorem ext {s t : FieldSets} (h : ∀ f, s.get f = t.get f) : s = t := by
  cases s; cases t
  simp only [mk.injEq]
  exact ⟨h .create, h .map, h .unmap, h .externalMap, h .externalUnmap, h .indirect⟩

/-- The sets without members. -/
def empty : FieldSets := {}

instance : EmptyCollection FieldSets := ⟨empty⟩

/-- No field of the empty sets has a member. -/
@[simp] theorem get_empty (f : RuleField) : (∅ : FieldSets).get f = ∅ := by cases f <;> rfl

/-- The sets with one field changed. -/
def modify (s : FieldSets) (field : RuleField) (change : SortedSet TypeName → SortedSet TypeName) :
    FieldSets :=
  build fun f => if f = field then change (s.get f) else s.get f

/-- The set of a field after a change. -/
@[simp] theorem get_modify (s : FieldSets) (field f : RuleField)
    (change : SortedSet TypeName → SortedSet TypeName) :
    (s.modify field change).get f = if f = field then change (s.get f) else s.get f := by
  simp [modify]

/-- The sets with types added to one field. -/
def adding (s : FieldSets) (field : RuleField) (types : List TypeName) : FieldSets :=
  s.modify field (·.insertAll types)

/-- The unions of two families of sets, field by field. -/
def union (s t : FieldSets) : FieldSets := build fun f => s.get f ∪ t.get f

instance : Union FieldSets := ⟨union⟩

/-- The set of a field of a union. -/
@[simp] theorem get_union (s t : FieldSets) (f : RuleField) :
    (s ∪ t).get f = s.get f ∪ t.get f := get_build _ _

/-- Whether no field has a member. -/
def isEmpty (s : FieldSets) : Bool := RuleField.all.all fun f => (s.get f).isEmpty

end FieldSets

/-- The **rules of a type**. -/
structure RuleSet where
  /-- The sets of the six fields. -/
  sets : FieldSets := ∅
  /-- Whether relationships within the type have a direction. -/
  mega : Bool := false
deriving DecidableEq

namespace RuleSet

/-- The rules that allow nothing. -/
def empty : RuleSet := {}

/-- The set of a field. -/
def get (r : RuleSet) (f : RuleField) : SortedSet TypeName := r.sets.get f

/-- Whether a type is in the set of a field. -/
def allows (r : RuleSet) (f : RuleField) (target : TypeName) : Bool := decide (target ∈ r.get f)

/-- A type is allowed exactly when it is a member. -/
@[simp] theorem allows_iff {r : RuleSet} {f : RuleField} {target : TypeName} :
    r.allows f target = true ↔ target ∈ r.get f := by simp [allows]

/-- Whether the rules allow nothing and give no direction. -/
def isEmpty (r : RuleSet) : Bool := r.sets.isEmpty && !r.mega

/-- The rules of a type as JSON. -/
def toJson (r : RuleSet) : Json :=
  .object (RuleField.all.map (fun f => (f.text, .arr ((r.get f).toList.map TypeName.toJson))) ++
    [("mega", .bool r.mega)])

end RuleSet

/-- The **rules put together so far** for a declaration, where the direction may be undecided. -/
structure PartialRules where
  /-- The sets of the six fields. -/
  sets : FieldSets := ∅
  /-- Whether relationships within the type have a direction, if decided. -/
  mega : Option Bool := none
deriving DecidableEq

namespace PartialRules

/-- The rules before anything has been added. -/
def empty : PartialRules := {}

/-- The set of a field. -/
def get (p : PartialRules) (f : RuleField) : SortedSet TypeName := p.sets.get f

/-- The rules with others merged in: sets are united, and a decided direction of the others
replaces the present one. -/
def merge (p q : PartialRules) : PartialRules := ⟨p.sets ∪ q.sets, q.mega.or p.mega⟩

/-- The set of a field after a merge. -/
@[simp] theorem get_merge (p q : PartialRules) (f : RuleField) :
    (p.merge q).get f = p.get f ∪ q.get f := FieldSets.get_union _ _ _

/-- The rules of the type, where an undecided direction means none. -/
def finish (p : PartialRules) : RuleSet := ⟨p.sets, p.mega.getD false⟩

end PartialRules

end ObjectMapping
