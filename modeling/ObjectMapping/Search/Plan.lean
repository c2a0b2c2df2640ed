import ObjectMapping.Catalog
import ObjectMapping.Compatibility
import ObjectMapping.Search.Query

/-! # Plans of searches

A search for objects to map is carried out by a batch of queries. The first one is for the objects
themselves. When the search starts from an object, further queries ask which objects are related to
it already: one for any relationship, or, where relationships have a direction, one for the parents
and one for the children.

All queries of a batch may name one type, so an answer is found by the position of its query
(`Positions`) and never by name. -/

namespace ObjectMapping

/-- What is **searched for**. -/
structure SearchSpec where
  /-- The type of the objects. -/
  target : TypeName
  /-- The object from which the search starts. -/
  base : Option ObjectRef := none
  /-- What the objects have to be related to. -/
  anchors : List Anchor := []
  /-- Which objects are meant. -/
  filter : Filter := .empty
  /-- The states in which the objects may be; an empty list means any. -/
  statuses : List String := []
  /-- The page to show. -/
  page : Page := .first
  /-- Whether relationships with the base have a direction. -/
  mega : Bool := false
  /-- Whether snapshots of the objects are searched in their place. -/
  useSnapshots : Bool := false
  /-- The kind of the answer. -/
  kind : ResultKind := .values
  /-- The right that the user has to hold on the objects. -/
  access : Option RequiredAccess := none
deriving DecidableEq

namespace SearchSpec

/-- The filter of a query for a type, restricted to snapshots if the search is for snapshots. -/
def restrict (s : SearchSpec) (f : Filter) : Filter :=
  if s.useSnapshots then f.ofSnapshots s.target else f

/-- A search as JSON. -/
def toJson (s : SearchSpec) : Json :=
  .object [("target", s.target.toJson), ("base", .ofOption (s.base.map ObjectRef.toJson)),
    ("anchors", .arr (s.anchors.map Anchor.toJson)), ("filter", s.filter.toJson),
    ("statuses", .arr (s.statuses.map .str)), ("paging", s.page.toJson),
    ("mega", .bool s.mega), ("use_snapshots", .bool s.useSnapshots),
    ("result_kind", .str s.kind.text),
    ("permissions", .ofOption (s.access.map fun a => .str a.text))]

end SearchSpec

/-- Where the queries of a batch stand in it. -/
structure Positions where
  /-- The query for the objects themselves. -/
  primary : Nat := 0
  /-- The query for objects with any relationship to the base. -/
  related : Option Nat := none
  /-- The query for the parents of the base. -/
  parent : Option Nat := none
  /-- The query for the children of the base. -/
  child : Option Nat := none
deriving DecidableEq

/-- A **plan** of a search: the queries and what it takes to read their answers. -/
structure Plan where
  /-- The queries in the order in which they are sent. -/
  queries : List Query
  /-- Where the queries stand. -/
  positions : Positions
  /-- Whether snapshots are searched in place of objects. -/
  snapshots : Bool
  /-- The type that is searched for. -/
  target : TypeName
  /-- The object from which the search starts. -/
  base : Option ObjectRef
deriving DecidableEq

namespace Plan

/-- The query for the objects themselves. -/
def primary? (p : Plan) : Option Query := p.queries[p.positions.primary]?

/-- Whether the plan asks for the directions of relationships. -/
def isMega (p : Plan) : Bool := p.positions.parent.isSome || p.positions.child.isSome

end Plan

/-- What plans are made from. -/
structure Planner where
  /-- What is known of the types. -/
  catalog : Catalog
  /-- What decides compatibility. -/
  policy : Policy
  /-- The number of the person who searches. -/
  currentUser : Option Int := none
  /-- The type under which snapshots are searched. -/
  snapshotType : TypeName := .snapshot

namespace Planner

/-- The field for the state of an object. -/
def statusField : String := "Status"

/-- The field that tells whether an object is archived. -/
def archivedField : String := "archived"

/-- The type of persons. -/
def personType : TypeName := ⟨"Person"⟩

/-- The search from an end of a relationship for objects of a type. -/
def mapperSpec (p : Planner) (base : Endpoint) (target : TypeName) : SearchSpec where
  target := target
  base := base.ref?
  useSnapshots := p.catalog.isSnapshotRelated base.effectiveType target
  mega := p.policy.isMega base (.type target)
  access := some .update

/-- The filter for the states in which objects may be. -/
def statusFilter (statuses : List String) : Filter :=
  if statuses = [] then .empty else .oneOf statusField statuses

/-- The filter that every search for a type gets. -/
def constraintFilter (p : Planner) (target : TypeName) : Filter :=
  if p.catalog.constraint? target = some .unlocked then .equal archivedField (.bool false)
  else .empty

/-- The filter of the query for the objects themselves: what was asked for, the states, and what
the type demands. -/
def primaryFilter (p : Planner) (s : SearchSpec) : Filter :=
  (s.filter.and (statusFilter s.statuses)).and (p.constraintFilter s.target)

/-- The anchor that limits a search to what the current user owns, where the type demands it and
the user is known. -/
def ownerAnchor? (p : Planner) (target : TypeName) : Option Anchor :=
  if p.catalog.constraint? target = some .ownedByCurrentUser then
    p.currentUser.map fun person => ⟨personType, [person], .owned⟩
  else none

/-- The type that the queries of a search name. -/
def searchedType (p : Planner) (s : SearchSpec) : TypeName :=
  if s.useSnapshots then p.snapshotType else s.target

/-- The query for the objects themselves. -/
def primaryQuery (p : Planner) (s : SearchSpec) : Query where
  type := p.searchedType s
  filter := s.restrict (p.primaryFilter s)
  anchors := s.anchors ++ (p.ownerAnchor? s.target).toList
  demand := .ofKind s.kind (some s.page)
  access := s.access

/-- The query for the numbers of the objects related to the base in a way. -/
def relationQuery (p : Planner) (s : SearchSpec) (base : ObjectRef) (relevance : Relevance) :
    Query where
  type := p.searchedType s
  filter := s.restrict .empty
  anchors := [⟨base.type, [base.id], relevance⟩]
  demand := .ids

/-- **The plan of a search.** -/
def plan (p : Planner) (s : SearchSpec) : Plan :=
  let (relations, positions) : List Query × Positions :=
    match s.base, s.mega with
    | some base, false => ([p.relationQuery s base .relevant], { related := some 1 })
    | some base, true =>
      ([p.relationQuery s base .parent, p.relationQuery s base .child],
        { parent := some 1, child := some 2 })
    | none, _ => ([], {})
  { queries := p.primaryQuery s :: relations
    positions := positions
    snapshots := s.useSnapshots
    target := s.target
    base := s.base }

/-- The query for how many objects of a type are related to a base. -/
def countQuery (p : Planner) (base : ObjectRef) (target : TypeName) : Query :=
  let anchors := [Anchor.relevantTo base.type base.id]
  if p.catalog.isSnapshotRelated base.effectiveType target then
    { type := p.snapshotType, filter := Filter.empty.ofSnapshots target, anchors, demand := .count }
  else { type := target, anchors, demand := .count }

/-- The queries for how many objects of each type are related to a base. -/
def counts (p : Planner) (base : ObjectRef) (targets : List TypeName) : List Query :=
  targets.map (p.countQuery base)

end Planner

end ObjectMapping
