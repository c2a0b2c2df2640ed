import ObjectMapping.Rules.RuleSet
import ObjectMapping.SortedMap

/-! # Declarations of rules

The rules of a type are declared by what the declaration lists itself, its *literal* part, and by
mixins: other declarations named, declarations written in place, and edits of what has been put
together so far. -/

namespace ObjectMapping

/-- One **edit** of the rules put together so far. -/
inductive Edit where
  /-- Adds a type to a field. -/
  | insert (field : RuleField) (type : TypeName)
  /-- Takes a type out of a field. -/
  | remove (field : RuleField) (type : TypeName)
  /-- Decides whether relationships within the type have a direction. -/
  | setMega (mega : Bool)
  /-- Runs edits if a field contains a type. -/
  | ifContains (field : RuleField) (type : TypeName) (edits : List Edit)

mutual

/-- The rules after an edit. -/
def Edit.run : Edit → PartialRules → PartialRules
  | .insert field type, p => { p with sets := p.sets.modify field (·.insert type) }
  | .remove field type, p => { p with sets := p.sets.modify field (·.erase type) }
  | .setMega mega, p => { p with mega := some mega }
  | .ifContains field type edits, p => if type ∈ p.get field then Edit.runAll edits p else p

/-- The rules after edits in turn. -/
def Edit.runAll : List Edit → PartialRules → PartialRules
  | [], p => p
  | e :: rest, p => Edit.runAll rest (e.run p)

end

/-- A **transform**: a function on the rules put together so far, known by a name. -/
structure Transform where
  /-- The name of the transform. -/
  name : String
  /-- What the transform does to the rules. -/
  apply : PartialRules → PartialRules

/-- The transform that runs edits in turn. -/
def Transform.ofEdits (name : String) (edits : List Edit) : Transform := ⟨name, Edit.runAll edits⟩

/-- How a report shows a transform among the mixins: by its name alone. -/
def Transform.shown (t : Transform) : String :=
  "Transform(RuleTransform \x7b name: " ++ Text.quoted t.name ++ ", .. \x7d)"

mutual

/-- The **declaration** of the rules of a type or of a mixin. -/
inductive Declaration where
  /-- Mixins in order, the literal sets and the literal direction. -/
  | mk (mixins : List Mixin) (sets : FieldSets) (mega : Option Bool)

/-- One entry of the list of **mixins** of a declaration. -/
inductive Mixin where
  /-- Another declaration, by name. -/
  | named (name : TypeName)
  /-- A declaration written in place. -/
  | inline (declaration : Declaration)
  /-- A transform of the rules put together so far. -/
  | transform (transform : Transform)

end

namespace Declaration

/-- The mixins of a declaration, in order. -/
def mixins : Declaration → List Mixin
  | .mk mixins _ _ => mixins

/-- The sets that the declaration lists itself. -/
def sets : Declaration → FieldSets
  | .mk _ sets _ => sets

/-- The direction that the declaration gives itself, if any. -/
def mega : Declaration → Option Bool
  | .mk _ _ mega => mega

/-- The types that the declaration lists itself in a field. -/
def literal (d : Declaration) (f : RuleField) : SortedSet TypeName := d.sets.get f

/-- The declaration that says nothing. -/
def empty : Declaration := .mk [] ∅ none

instance : Inhabited Declaration := ⟨empty⟩

/-- The declaration with one more mixin at the end. -/
def mixin (d : Declaration) (m : Mixin) : Declaration := .mk (d.mixins ++ [m]) d.sets d.mega

/-- The declaration with types listed in a field. -/
def listing (d : Declaration) (f : RuleField) (types : List TypeName) : Declaration :=
  .mk d.mixins (d.sets.adding f types) d.mega

/-- The declaration with types listed in both fields for another system. -/
def external (d : Declaration) (types : List TypeName) : Declaration :=
  (d.listing .externalMap types).listing .externalUnmap types

/-- The declaration with a literal direction. -/
def withMega (d : Declaration) (mega : Bool) : Declaration := .mk d.mixins d.sets (some mega)

end Declaration

/-- A **table of declarations** by name. -/
abbrev RuleTable := SortedMap TypeName Declaration

end ObjectMapping
