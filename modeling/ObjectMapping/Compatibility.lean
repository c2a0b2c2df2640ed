import ObjectMapping.Permissions
import ObjectMapping.Rules.RuleBook

/-! # Compatibility

Whether one end may be mapped to, or unmapped from, another. The forbidden pairs are asked first,
then the rules of both types, then the permissions. Rules are asked in both directions, since
either type may list the other. -/

namespace ObjectMapping

/-- What decides compatibility: the **rules and the permissions**. -/
structure Policy where
  /-- The mapping rules. -/
  book : RuleBook
  /-- The rights of the user. -/
  permissions : Permissions

/-- The circumstances of a mapping. -/
structure MapOptions where
  /-- Whether the mapping is considered in order to take it back. -/
  unmapContext : Bool := false
  /-- Whether the parent is a snapshot. -/
  parentIsSnapshot : Bool := false
deriving DecidableEq

namespace Policy

/-- The type of the records that hold relationships. -/
def relationshipType : TypeName := ⟨"Relationship"⟩

/-- Whether a field of the rules of either type lists the other. -/
def ruleAllows (p : Policy) (f : RuleField) (a b : TypeName) : Bool :=
  p.book.allows a f b || p.book.allows b f a

/-- Whether the rights suffice: a saved source has to be open to updates; a saved target too, or
relationships may be created in the context of the target. -/
def permits (p : Policy) (source target : Endpoint) : Bool :=
  (match source with
    | .object _ => p.permissions .update source none
    | _ => true) &&
  (match target.ref? with
    | some r =>
      p.permissions .update target none ||
        r.context.any fun c => p.permissions .create (.type relationshipType) (some c)
    | none => true)

/-- **Whether a source may be mapped to a target.** -/
def canMap (p : Policy) (source target : Endpoint) (options : MapOptions) : Bool :=
  let a := source.effectiveType
  let b := target.effectiveType
  (options.unmapContext || !p.book.forbidden.isOneWay a b) &&
    !p.book.forbidden.isTwoWay a b && !options.parentIsSnapshot &&
    p.ruleAllows .map a b && p.permits source target

/-- **Whether a source may be unmapped from a target.** -/
def canUnmap (p : Policy) (source target : Endpoint) : Bool :=
  let a := source.effectiveType
  let b := target.effectiveType
  !p.book.forbidden.isTwoWay a b && p.ruleAllows .unmap a b && p.permits source target

/-- Whether mappings from a source to a target are made by another system. -/
def isExternallyMapped (p : Policy) (source target : TypeName) : Bool :=
  p.book.allows source .externalMap target

/-- Whether mappings from a source to a target are taken away by another system. -/
def isExternallyUnmapped (p : Policy) (source target : TypeName) : Bool :=
  p.book.allows source .externalUnmap target

/-- Whether another system makes or takes away mappings from a source to a target. -/
def isExternallyManaged (p : Policy) (source target : TypeName) : Bool :=
  p.isExternallyMapped source target || p.isExternallyUnmapped source target

/-- The types to which a source may be mapped, in order, among those that its own rules list. -/
def mappableTargets (p : Policy) (source : Endpoint) (options : MapOptions) : List TypeName :=
  (p.book.listed source.effectiveType .map).filter fun t => p.canMap source (.type t) options

/-- Whether relationships between two ends have a direction: both have one type, and its rules say
so. -/
def isMega (p : Policy) (source target : Endpoint) : Bool :=
  source.effectiveType == target.effectiveType && (p.book.resolve source.effectiveType).mega

end Policy

end ObjectMapping
