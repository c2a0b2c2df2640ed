import Mathlib.Data.List.Nodup
import ObjectMapping.Proofs.Search.PrimaryFilter

/-! # Where the queries of a plan stand

The queries of a plan may all name one type, and where relationships have a direction even two of
them are alike but for one word. What tells their answers apart is where they stand, so the
positions of a plan have to be right for every search: whatever is asked for, from whichever object,
for objects or for snapshots.

* **`Planner.plan_cases`** — the three plans that there are: without a base, with a base, and with a
  base to which relationships have a direction.
* **`Planner.laid_out`** — the positions of a plan are those of all its queries, and at each of them
  stands the query that it is the position of. -/

namespace ObjectMapping

namespace Positions

/-- All positions that are given. -/
def all (positions : Positions) : List Nat :=
  positions.primary ::
    (positions.related.toList ++ positions.parent.toList ++ positions.child.toList)

/-- The position of the query for the objects that are related to the base in a way. -/
def ofRelevance? (positions : Positions) : Relevance → Option Nat
  | .relevant => positions.related
  | .parent => positions.parent
  | .child => positions.child
  | .owned => none

end Positions

/-- A query **asks for the numbers of the objects related to a base** in a way, and for nothing
else: it is tied to no other object, has no page and demands no right. -/
structure Query.AsksForRelated (q : Query) (base : ObjectRef) (relevance : Relevance) : Prop where
  /-- The answer is to be numbers. -/
  kind : q.kind = .ids
  /-- There is no page. -/
  page : q.demand.page? = none
  /-- No right is demanded. -/
  access : q.access = none
  /-- The only anchor is the base. -/
  anchors : q.anchors = [⟨base.type, [base.id], relevance⟩]

namespace Planner

/-! ### The three plans -/

/-- **A plan has one, two or three queries**: the one for the objects themselves, and where there is
a base, one for what is related to it, or one for its parents and one for its children. -/
theorem plan_cases (p : Planner) (s : SearchSpec) :
    (s.base = none ∧ (p.plan s).positions = {} ∧ (p.plan s).queries = [p.primaryQuery s]) ∨
    (∃ base, s.base = some base ∧ s.mega = false ∧ (p.plan s).positions = { related := some 1 } ∧
      (p.plan s).queries = [p.primaryQuery s, p.relationQuery s base .relevant]) ∨
    ∃ base, s.base = some base ∧ s.mega = true ∧
      (p.plan s).positions = { parent := some 1, child := some 2 } ∧
      (p.plan s).queries =
        [p.primaryQuery s, p.relationQuery s base .parent, p.relationQuery s base .child] := by
  unfold plan
  cases hbase : s.base with
  | none => exact .inl ⟨rfl, rfl, rfl⟩
  | some base =>
    cases hmega : s.mega with
    | false => exact .inr (.inl ⟨base, rfl, rfl, rfl, rfl⟩)
    | true => exact .inr (.inr ⟨base, rfl, rfl, rfl, rfl⟩)

/-- The base of a plan is that of the search. -/
theorem base_plan (p : Planner) (s : SearchSpec) : (p.plan s).base = s.base := by
  unfold plan
  cases hbase : s.base with
  | none => rfl
  | some base => cases s.mega <;> rfl

/-- Each query of a plan is the one for the objects themselves, or one for what is related to the
base. -/
theorem eq_of_mem_queries {p : Planner} {s : SearchSpec} {q : Query}
    (hq : q ∈ (p.plan s).queries) :
    q = p.primaryQuery s ∨ ∃ base relevance, q = p.relationQuery s base relevance := by
  obtain ⟨-, -, heq⟩ | ⟨base, -, -, -, heq⟩ | ⟨base, -, -, -, heq⟩ := p.plan_cases s
  · rw [heq, List.mem_singleton] at hq
    exact .inl hq
  · rw [heq, List.mem_cons, List.mem_singleton] at hq
    exact hq.imp_right fun h => ⟨base, .relevant, h⟩
  · rw [heq, List.mem_cons, List.mem_cons, List.mem_singleton] at hq
    obtain h | h | h := hq
    · exact .inl h
    · exact .inr ⟨base, .parent, h⟩
    · exact .inr ⟨base, .child, h⟩

/-- The query at the position for a relationship is the one that asks for it. -/
theorem getElem?_queries {p : Planner} {s : SearchSpec} {relevance : Relevance} {i : Nat}
    (hi : (p.plan s).positions.ofRelevance? relevance = some i) :
    ∃ base, s.base = some base ∧
      (p.plan s).queries[i]? = some (p.relationQuery s base relevance) := by
  obtain ⟨-, hpos, -⟩ | ⟨base, hbase, -, hpos, heq⟩ | ⟨base, hbase, -, hpos, heq⟩ := p.plan_cases s
  · rw [hpos] at hi
    cases relevance <;> cases hi
  · rw [hpos] at hi
    cases relevance <;> cases hi
    exact ⟨base, hbase, by rw [heq]; rfl⟩
  · rw [hpos] at hi
    cases relevance <;> cases hi <;> exact ⟨base, hbase, by rw [heq]; rfl⟩

/-- The positions of a plan are counted up from zero, and there are as many as queries. -/
theorem all_positions (p : Planner) (s : SearchSpec) :
    (p.plan s).positions.all = List.range (p.plan s).queries.length := by
  obtain ⟨-, hpos, heq⟩ | ⟨_, -, -, hpos, heq⟩ | ⟨_, -, -, hpos, heq⟩ := p.plan_cases s
  all_goals rw [hpos, heq]; rfl

/-- A plan asks for directions exactly when there is a base to which relationships have one. -/
theorem isMega_plan (p : Planner) (s : SearchSpec) :
    (p.plan s).isMega = true ↔ s.base ≠ none ∧ s.mega = true := by
  unfold Plan.isMega
  obtain ⟨hbase, hpos, -⟩ | ⟨base, hbase, hmega, hpos, -⟩ | ⟨base, hbase, hmega, hpos, -⟩ :=
    p.plan_cases s
  · simp [hpos, hbase]
  · simp [hpos, hmega]
  · simp [hpos, hbase, hmega]

/-! ### Single queries -/

/-- A query for what is related to a base asks for that and for nothing else. -/
theorem relationQuery_asks (p : Planner) (s : SearchSpec) (base : ObjectRef)
    (relevance : Relevance) : (p.relationQuery s base relevance).AsksForRelated base relevance :=
  ⟨rfl, rfl, rfl, rfl⟩

/-- A filter without conditions is restricted to snapshots of objects of the type, if the search is
for snapshots, and is left as it is otherwise. -/
theorem restrict_empty (s : SearchSpec) :
    s.restrict .empty =
      if s.useSnapshots then .condition (.frozenFrom s.target) else .empty := by
  unfold SearchSpec.restrict
  split
  · rw [Filter.ofSnapshots, Filter.and, Filter.join_empty_right]
    rfl
  · rfl

/-- The owner's anchor is there exactly when the type is for what the current user owns and the user
is known. -/
theorem ownerAnchor?_eq_some_iff (p : Planner) (target : TypeName) (a : Anchor) :
    p.ownerAnchor? target = some a ↔
      p.catalog.constraint? target = some .ownedByCurrentUser ∧
      ∃ person, p.currentUser = some person ∧ a = ⟨personType, [person], .owned⟩ := by
  unfold ownerAnchor?
  split
  · next howned =>
    rw [Option.map_eq_some_iff]
    simp [howned, eq_comm]
  · next hother => simp [hother]

/-- A demand has a page exactly when it is for objects. -/
theorem page?_ofKind (kind : ResultKind) (page : Option Page) :
    (Demand.ofKind kind page).page? = if kind = .values then page else none := by
  cases kind <;> rfl

/-! ### The layout -/

/-- How a plan of a search is **laid out**: where its queries stand, and what they ask for. -/
structure LaidOut (p : Planner) (s : SearchSpec) (plan : Plan) : Prop where
  /-- The query for the objects themselves comes first. -/
  primary : plan.positions.primary = 0
  /-- One query asks for what is related to the base, if relationships have no direction. -/
  related : plan.positions.related.isSome = true ↔ s.base ≠ none ∧ s.mega = false
  /-- One query asks for the parents of the base, if relationships have a direction. -/
  parent : plan.positions.parent.isSome = true ↔ s.base ≠ none ∧ s.mega = true
  /-- One query asks for the children of the base, if relationships have a direction. -/
  child : plan.positions.child.isSome = true ↔ s.base ≠ none ∧ s.mega = true
  /-- No two queries have one position. -/
  distinct : plan.positions.all.Nodup
  /-- The positions are those of the queries, and of all of them. -/
  exhaustive : ∀ i, i ∈ plan.positions.all ↔ i < plan.queries.length
  /-- At the position for a relationship stands the query that asks for it, from the base of the
  search; its filter has no condition but the one on snapshots, if they are searched. -/
  relation : ∀ relevance i, plan.positions.ofRelevance? relevance = some i →
    ∃ base q, s.base = some base ∧ plan.queries[i]? = some q ∧ q.AsksForRelated base relevance ∧
      q.filter = if s.useSnapshots then .condition (.frozenFrom s.target) else .empty
  /-- All queries name one type. -/
  type : ∀ q ∈ plan.queries, q.type = if s.useSnapshots then p.snapshotType else s.target
  /-- The query for the objects themselves is tied to what was asked for, in the order in which it
  was, and after that to what the current user owns, where the type demands it and the user is
  known. It has the page that was asked for exactly when its answer is to be objects. -/
  objects : ∃ q owner, plan.primary? = some q ∧
    q.anchors = s.anchors ++ Option.toList owner ∧
    (∀ a, owner = some a ↔ p.catalog.constraint? s.target = some .ownedByCurrentUser ∧
      ∃ person, p.currentUser = some person ∧ a = ⟨⟨"Person"⟩, [person], .owned⟩) ∧
    q.kind = s.kind ∧ q.demand.page? = if s.kind = .values then some s.page else none

/-- **The positions of a plan tell its queries apart**, whatever is known of the types, whatever the
settings, and whatever is searched for. -/
theorem laid_out (p : Planner) (s : SearchSpec) : p.LaidOut s (p.plan s) where
  primary := by
    obtain ⟨-, hpos, -⟩ | ⟨_, -, -, hpos, -⟩ | ⟨_, -, -, hpos, -⟩ := p.plan_cases s
    all_goals rw [hpos]
  related := by
    obtain ⟨hbase, hpos, -⟩ | ⟨_, hbase, hmega, hpos, -⟩ | ⟨_, hbase, hmega, hpos, -⟩ :=
      p.plan_cases s
    all_goals simp [*]
  parent := by
    obtain ⟨hbase, hpos, -⟩ | ⟨_, hbase, hmega, hpos, -⟩ | ⟨_, hbase, hmega, hpos, -⟩ :=
      p.plan_cases s
    all_goals simp [*]
  child := by
    obtain ⟨hbase, hpos, -⟩ | ⟨_, hbase, hmega, hpos, -⟩ | ⟨_, hbase, hmega, hpos, -⟩ :=
      p.plan_cases s
    all_goals simp [*]
  distinct := by
    rw [all_positions]
    exact List.nodup_range
  exhaustive i := by rw [all_positions, List.mem_range]
  relation relevance i hi := by
    obtain ⟨base, hbase, hq⟩ := getElem?_queries hi
    exact ⟨base, _, hbase, hq, p.relationQuery_asks s base relevance, restrict_empty s⟩
  type q hq := by
    obtain rfl | ⟨base, relevance, rfl⟩ := eq_of_mem_queries hq
    · rfl
    · rfl
  objects := ⟨p.primaryQuery s, p.ownerAnchor? s.target, p.primary?_plan s, rfl,
    p.ownerAnchor?_eq_some_iff s.target, Demand.kind_ofKind s.kind _,
    page?_ofKind s.kind _⟩

end Planner

end ObjectMapping
