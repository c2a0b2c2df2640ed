import ObjectMapping.TypeName

/-! # Forbidden pairs

Pairs of types that are never mapped to one another, whatever the rules of the types say. A pair is
forbidden in one direction or in both. Names in such pairs are compared without regard to ASCII
case. -/

namespace ObjectMapping

/-- The **forbidden pairs** of types. -/
structure Forbidden where
  /-- Pairs whose first type may not be mapped to the second. -/
  oneWay : List (TypeName × TypeName) := []
  /-- Pairs whose types may not be mapped to one another in either direction. -/
  twoWay : List (TypeName × TypeName) := []
deriving DecidableEq

namespace Forbidden

/-- The forbidden pairs as JSON. -/
def toJson (f : Forbidden) : Json :=
  let pairs := fun (l : List (TypeName × TypeName)) =>
    Json.arr (l.map fun (a, b) => .arr [a.toJson, b.toJson])
  .object [("one_way", pairs f.oneWay), ("two_way", pairs f.twoWay)]

/-- Whether a pair names two types in this order. -/
def names (pair : TypeName × TypeName) (a b : TypeName) : Bool :=
  pair.1.eqIgnoringCase a && pair.2.eqIgnoringCase b

/-- Whether mapping a source to a target is forbidden in this direction. -/
def isOneWay (f : Forbidden) (source target : TypeName) : Bool :=
  f.oneWay.any fun pair => names pair source target

/-- Whether mapping is forbidden in both directions. -/
def isTwoWay (f : Forbidden) (a b : TypeName) : Bool :=
  f.twoWay.any fun pair => names pair a b || names pair b a

/-- A pair forbidden in both directions is so in either order. -/
theorem isTwoWay_comm (f : Forbidden) (a b : TypeName) : f.isTwoWay a b = f.isTwoWay b a := by
  unfold isTwoWay
  congr 1
  funext pair
  exact Bool.or_comm _ _

end Forbidden

end ObjectMapping
