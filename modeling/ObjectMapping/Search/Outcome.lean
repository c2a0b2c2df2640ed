import ObjectMapping.Search.Hit
import ObjectMapping.Search.Plan

/-! # Outcomes of searches

What the answers to the queries of a plan amount to. `Plan.read` takes each answer from the position
of its query; `Plan.resolve` then marks the hits that are related to the base already and gives each
hit its direction where relationships have one. -/

namespace ObjectMapping

/-- The **outcome** of a search. -/
structure Outcome where
  /-- The hits, in the order of the answer. -/
  hits : List Hit := []
  /-- The numbers of all objects, when the search was for numbers. -/
  ids : List Int := []
  /-- How many objects there are. -/
  total : Nat := 0
  /-- The objects with any relationship to the base. -/
  related : SortedSet Int := ∅
  /-- The parents of the base. -/
  parents : SortedSet Int := ∅
  /-- The children of the base. -/
  children : SortedSet Int := ∅
deriving DecidableEq

/-- An outcome as JSON. -/
def Outcome.toJson (o : Outcome) : Json :=
  let numbers := fun (ids : List Int) => Json.arr (ids.map .int)
  .object [("items", .arr (o.hits.map Hit.toJson)), ("ids", numbers o.ids), ("total", .int o.total),
    ("related_ids", numbers o.related.toList), ("parent_ids", numbers o.parents.toList),
    ("child_ids", numbers o.children.toList)]

namespace Plan

/-- The answer to the query at a position. -/
def answerAt (p : Plan) (responses : List Json) (position : Nat) : Except SearchError ResultSet :=
  match p.queries[position]?, responses[position]? with
  | some q, some response => ResultSet.read q response
  | _, _ => .error (.malformed (.wrongNumber p.queries.length responses.length))

/-- The numbers in the answer at a position, none where there is no position. -/
def idsAt (p : Plan) (responses : List Json) (position : Option Nat) :
    Except SearchError (SortedSet Int) :=
  match position with
  | some i => (p.answerAt responses i).map ResultSet.idSet
  | none => .ok ∅

/-- **The outcome of a search**, read from the answers to its queries. -/
def read (p : Plan) (responses : List Json) : Except SearchError Outcome := do
  if responses.length ≠ p.queries.length then
    throw (.malformed (.wrongNumber p.queries.length responses.length))
  let related ← p.idsAt responses p.positions.related
  let parents ← p.idsAt responses p.positions.parent
  let children ← p.idsAt responses p.positions.child
  match ← p.answerAt responses p.positions.primary with
  | .objects values total =>
    return { hits := ← values.mapM Hit.ofJson, total, related, parents, children }
  | .numbers ids => return { ids, total := ids.length, related, parents, children }
  | .count total => return { total, related, parents, children }

end Plan

/-- The outcome with its hits marked and, in mega mode, given their directions. -/
def Outcome.marked (o : Outcome) (mega : Bool) (chosen : ChosenDirections) (fallback : Direction)
    (base : Option ObjectRef) : Outcome :=
  if mega then
    let marked := o.hits.map (Hit.markMapped (o.parents ∪ o.children))
    { o with hits := marked.map (Hit.classify o.parents o.children chosen fallback base) }
  else { o with hits := o.hits.map (Hit.markMapped o.related) }

/-- **The outcome of a search with its hits marked.** -/
def Plan.resolve (p : Plan) (responses : List Json) (chosen : ChosenDirections)
    (fallback : Direction) : Except SearchError Outcome :=
  (p.read responses).map fun o => o.marked p.isMega chosen fallback p.base

end ObjectMapping
