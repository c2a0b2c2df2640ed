import ObjectMapping.Rules.Forbidden
import ObjectMapping.Rules.Resolution

/-! # Rule books

A rule book holds the resolved rules of every declared name, the forbidden pairs and the problems
found on the way. A name that was never declared has the rules that allow nothing. -/

namespace ObjectMapping

/-- **The mapping rules of all types**, resolved. -/
structure RuleBook where
  /-- The rules by declared name. -/
  rules : SortedMap TypeName PartialRules
  /-- The forbidden pairs. -/
  forbidden : Forbidden
  /-- The problems found while resolving, each once, in order. -/
  diagnostics : List Diagnostic

namespace RuleBook

/-- The rule book of a table of declarations. -/
def ofTable (table : RuleTable) (forbidden : Forbidden) : RuleBook :=
  let final := Resolver.run table
  ⟨final.done, forbidden, final.diagnostics⟩

/-- The rule book of a list of declarations; of two with one name the last counts. -/
def ofDeclarations (declarations : List (TypeName × Declaration)) (forbidden : Forbidden) :
    RuleBook :=
  ofTable (.ofList declarations) forbidden

/-- The rules of a name. -/
def resolve (b : RuleBook) (name : TypeName) : RuleSet :=
  match b.rules.get? name with
  | some rules => rules.finish
  | none => .empty

/-- Whether a name was declared. -/
def contains (b : RuleBook) (name : TypeName) : Bool := b.rules.contains name

/-- The number of declared names. -/
def size (b : RuleBook) : Nat := b.rules.size

/-- Whether nothing was declared. -/
def isEmpty (b : RuleBook) : Bool := b.rules.isEmpty

/-- Whether a target is in a field of the rules of a source. -/
def allows (b : RuleBook) (source : TypeName) (f : RuleField) (target : TypeName) : Bool :=
  (b.resolve source).allows f target

/-- The types listed in a field of the rules of a source, in order. -/
def listed (b : RuleBook) (source : TypeName) (f : RuleField) : List TypeName :=
  ((b.resolve source).get f).toList

end RuleBook

end ObjectMapping
