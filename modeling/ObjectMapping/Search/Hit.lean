import ObjectMapping.Direction
import ObjectMapping.ObjectRef
import ObjectMapping.Search.ResultSet

/-! # Hits

The objects that a search finds are shown in a list from which some are selected. A hit that is
related to the base already, or that is the base itself, cannot be selected. Where relationships
have a direction, each hit gets one: the direction in which it is related already, or else the one
that the user chose for it, or else a default. -/

namespace ObjectMapping

/-- A **hit** of a search. -/
structure Hit where
  /-- The object that was found. -/
  object : ObjectRef
  /-- The object as the service sent it. -/
  data : Json := .null
  /-- Whether the object is related to the base already. -/
  isMapped : Bool := false
  /-- Whether the hit cannot be selected. -/
  disabled : Bool := false
  /-- The direction of the relationship, once it is decided. -/
  direction : Option Direction := none
  /-- Whether the direction is that of a relationship which exists already. -/
  directionFixed : Bool := false
  /-- Whether the object is the base. -/
  isSelf : Bool := false
deriving DecidableEq

/-- The hit for an object that the service sent. -/
def Hit.ofJson (data : Json) : Except SearchError Hit :=
  match ObjectRef.ofJson? data with
  | some object => .ok { object := object, data := data }
  | none => .error .unreadable

/-- The **directions that the user chose**, by number of the object. -/
abbrev ChosenDirections := SortedMap Int Direction

namespace Hit

/-- The hit marked as mapped and not to be selected, if its number is among those given. -/
def markMapped (mapped : SortedSet Int) (h : Hit) : Hit :=
  if h.object.id ∈ mapped then { h with isMapped := true, disabled := true } else h

/-- The direction of a hit and whether it is fixed: that of the children comes before that of the
parents, then the chosen one, and last the default. -/
def decideDirection (parents children : SortedSet Int) (chosen : ChosenDirections)
    (fallback : Direction) (id : Int) : Direction × Bool :=
  if id ∈ children then (.child, true)
  else if id ∈ parents then (.parent, true)
  else ((chosen.get? id).getD fallback, false)

/-- Whether a hit is the base. -/
def isBase (base : Option ObjectRef) (h : Hit) : Bool := base.any fun b => b.same h.object

/-- The hit with its direction. The base gets none and cannot be selected. -/
def classify (parents children : SortedSet Int) (chosen : ChosenDirections) (fallback : Direction)
    (base : Option ObjectRef) (h : Hit) : Hit :=
  let (direction, fixed) := decideDirection parents children chosen fallback h.object.id
  if h.isBase base then
    { h with direction := none, directionFixed := fixed, isSelf := true, disabled := true }
  else { h with direction := some direction, directionFixed := fixed, isSelf := false }

/-- The direction in which a hit is mapped when it is selected now: the fixed one, or else the one
chosen by now, or else the one it was given. -/
def selectedDirection (chosen : ChosenDirections) (h : Hit) : Option Direction :=
  if h.directionFixed then h.direction else (chosen.get? h.object.id).or h.direction

/-- A hit as JSON. -/
def toJson (h : Hit) : Json :=
  .object [("entity", h.object.toJson), ("data", h.data), ("is_mapped", .bool h.isMapped),
    ("disabled", .bool h.disabled),
    ("map_as_child", .ofOption (h.direction.map fun d => .bool d.isChild)),
    ("relation_fixed", .bool h.directionFixed), ("is_self", .bool h.isSelf),
    ("relation", .ofOption (h.direction.map Direction.toJson))]

end Hit

/-- **The directions of selected hits**, by number; the base is left out, and of two hits with one
number the last counts. -/
def ChosenDirections.collect (chosen : ChosenDirections) (selected : List Hit) :
    SortedMap Int Direction :=
  .ofList ((selected.filter fun h => !h.isSelf).filterMap fun h =>
    (h.selectedDirection chosen).map fun d => (h.object.id, d))

end ObjectMapping
