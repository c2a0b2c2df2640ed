import ObjectMapping.Filter.Text
import ObjectMapping.Search.Plan

/-! # Summaries of queries and plans

A query and a plan in a form for looking at them: what is sent, and beside it what follows from
it. -/

namespace ObjectMapping

/-- **A query with what follows from it**: its filter as text, the results that its page covers, how
objects have to be related to each anchor, and whether its answers come page by page. -/
def Query.summary (q : Query) : Json :=
  .object [("body", q.toJson), ("text", .str q.filter.text),
    ("limit", .ofOption (q.demand.page?.map Page.limitJson)),
    ("ops", .arr (q.anchors.map fun a => .str a.relevance.text)), ("paged", .bool q.kind.isPaged)]

/-- Where queries stand in a batch as JSON. -/
def Positions.toJson (p : Positions) : Json :=
  let position := fun (i : Option Nat) => Json.ofOption (i.map fun n => .int n)
  .object [("primary", .int p.primary), ("related", position p.related),
    ("parent", position p.parent), ("child", position p.child)]

/-- **A plan with what follows from it**: whether it asks for directions, and the type that its
first query names. -/
def Plan.summary (p : Plan) : Json :=
  .object [("request", .arr (p.queries.map Query.summary)), ("indices", p.positions.toJson),
    ("snapshots", .bool p.snapshots), ("target_type", p.target.toJson),
    ("base", .ofOption (p.base.map ObjectRef.toJson)), ("is_mega", .bool p.isMega),
    ("primary_name", .ofOption (p.primary?.map fun q => q.type.toJson))]

/-- A search and its plan. -/
def Planner.summary (p : Planner) (s : SearchSpec) : Json :=
  .object [("spec", s.toJson), ("compiled", (p.plan s).summary)]

end ObjectMapping
