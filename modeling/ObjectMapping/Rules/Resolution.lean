import ObjectMapping.Rules.Declaration
import ObjectMapping.Rules.Diagnostic

/-! # Resolution of declarations

A table of declarations is resolved name by name, in the order of the names. What a declaration
inherits is merged first, mixin by mixin; its literal part comes on top; and in the end the type
itself is dropped from the types it maps to or is unmapped from, unless the declaration lists it
literally.

A resolved name is kept and not resolved again (`Resolver.done`). A name that is met while its own
declaration is being resolved (`Resolver.stack`) closes a cycle: the cycle is reported, and that
mixin adds nothing. Every name on the stack is declared and none is there twice, so the recursion
through names is never deeper than the table is long; this is the `room` of `Resolver.resolve`. -/

namespace ObjectMapping

/-- The **state of a resolution**. -/
structure Resolver where
  /-- The names resolved so far, with their rules. -/
  done : SortedMap TypeName PartialRules := ∅
  /-- The names whose declarations are being resolved, outermost first. -/
  stack : List TypeName := []
  /-- The names whose declarations have been taken up so far, in order. -/
  entered : List TypeName := []
  /-- The problems found so far, each once, in order. -/
  diagnostics : List Diagnostic := []

namespace Resolver

/-- The state with a problem reported, unless it has been reported before. -/
def report (r : Resolver) (d : Diagnostic) : Resolver :=
  if d ∈ r.diagnostics then r else { r with diagnostics := r.diagnostics ++ [d] }

/-- The path from a name on the stack back to itself. -/
def cycleThrough (r : Resolver) (name : TypeName) : List TypeName :=
  r.stack.dropWhile (· ≠ name) ++ [name]

/-- The state when the declaration of a name is taken up. -/
def enter (r : Resolver) (name : TypeName) : Resolver :=
  { r with stack := r.stack ++ [name], entered := r.entered ++ [name] }

/-- The state when the declaration of a name has been resolved. -/
def leave (r : Resolver) (name : TypeName) (rules : PartialRules) : Resolver :=
  { r with stack := r.stack.dropLast, done := r.done.insert name rules }

end Resolver

/-- The rules of a declaration from those it inherits: the literal sets are united with them, a
literal direction replaces theirs, and the owner is dropped from the fields `map` and `unmap` where
the declaration does not list it literally. -/
def PartialRules.complete (inherited : PartialRules) (owner : TypeName) (d : Declaration) :
    PartialRules where
  sets := .build fun f =>
    let all := inherited.get f ∪ d.literal f
    if (f = .map ∨ f = .unmap) ∧ owner ∉ d.literal f then all.erase owner else all
  mega := d.mega.or inherited.mega

/-- A way to resolve a name: the rules found, if any, and the state after it. -/
abbrev NameResolver := TypeName → Resolver → Option PartialRules × Resolver

mutual

/-- The rules of a declaration. Types that are dropped as self-references are judged by the `owner`,
which for a declaration written in place is the enclosing type. -/
def Declaration.resolve (table : RuleTable) (resolveName : NameResolver) (owner : TypeName) :
    Declaration → Resolver → PartialRules × Resolver
  | .mk mixins sets mega, r =>
    let (inherited, r) := Mixin.resolveAll table resolveName owner mixins .empty r
    (inherited.complete owner (.mk mixins sets mega), r)

/-- The rules after one more mixin. -/
def Mixin.resolve (table : RuleTable) (resolveName : NameResolver) (owner : TypeName) :
    Mixin → PartialRules → Resolver → PartialRules × Resolver
  | .named name, rules, r =>
    if table.contains name then
      match resolveName name r with
      | (some inherited, r) => (rules.merge inherited, r)
      | (none, r) => (rules, r)
    else (rules, r.report (.unknownMixin owner name))
  | .inline d, rules, r =>
    let (inherited, r) := Declaration.resolve table resolveName owner d r
    (rules.merge inherited, r)
  | .transform t, rules, r => (t.apply rules, r)

/-- The rules after a list of mixins. -/
def Mixin.resolveAll (table : RuleTable) (resolveName : NameResolver) (owner : TypeName) :
    List Mixin → PartialRules → Resolver → PartialRules × Resolver
  | [], rules, r => (rules, r)
  | m :: rest, rules, r =>
    let (rules, r) := Mixin.resolve table resolveName owner m rules r
    Mixin.resolveAll table resolveName owner rest rules r

end

namespace Resolver

/-- The rules of a name, and the state after finding them. A name already resolved is looked up; a
name on the stack closes a cycle; any other declared name is taken up. -/
def resolve (table : RuleTable) : (room : Nat) → NameResolver
  | 0, _, r => (none, r)
  | room + 1, name, r =>
    match r.done.get? name with
    | some rules => (some rules, r)
    | none =>
      if name ∈ r.stack then (none, r.report (.mixinCycle (r.cycleThrough name)))
      else
        match table.get? name with
        | none => (none, r)
        | some d =>
          let (rules, r) := d.resolve table (resolve table room) name (r.enter name)
          (some rules, r.leave name rules)

/-- The state after resolving names in turn. -/
def resolveAll (table : RuleTable) (names : List TypeName) (r : Resolver) : Resolver :=
  names.foldl (fun r name => (resolve table (table.size + 1) name r).2) r

/-- **The state after resolving a whole table**, in the order of the names. -/
def run (table : RuleTable) : Resolver := resolveAll table table.keys {}

end Resolver

end ObjectMapping
