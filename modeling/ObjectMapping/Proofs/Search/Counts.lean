import ObjectMapping.Proofs.Search.Layout

/-! # Counts and lists

The interface shows beside each type how many of its objects are related to a base, and lists them
when it is asked to. The count and the list come from two queries that are made apart from one
another. Both have to decide whether the base sees objects of the type as snapshots, by the type
whose rules apply to it; and both have to name the base itself, which may be a snapshot.

* **`Planner.countQuery_eq`** — the query for a count is the one for what is related, but for what it
  asks for.
* **`Planner.counts_what_is_listed`** — every count is a count of what the list would show. -/

namespace ObjectMapping

/-- A query **counts what another one asks for**: it asks how many objects there are of the same type,
under the same filter, with the same anchors and the same right. -/
structure Query.Counts (q listed : Query) : Prop where
  /-- The answer is to be a number. -/
  kind : q.kind = .count
  /-- Both name one type. -/
  type : q.type = listed.type
  /-- Both have one filter. -/
  filter : q.filter = listed.filter
  /-- Both are tied to the same objects, in the same way. -/
  anchors : q.anchors = listed.anchors
  /-- Both demand the same right. -/
  access : q.access = listed.access

namespace Planner

/-- The search for the objects of a type from a saved object, where relationships are taken to have
no direction. -/
def undirectedSpec (p : Planner) (base : ObjectRef) (target : TypeName) : SearchSpec :=
  { p.mapperSpec (.object base) target with mega := false }

/-- **The query for a count is the one for what is related**, but for what it asks for. -/
theorem countQuery_eq (p : Planner) (base : ObjectRef) (target : TypeName) :
    p.countQuery base target =
      { p.relationQuery (p.undirectedSpec base target) base .relevant with demand := .count } := by
  have hsnapshots : (p.undirectedSpec base target).useSnapshots =
      p.catalog.isSnapshotRelated base.effectiveType target := rfl
  have htarget : (p.undirectedSpec base target).target = target := rfl
  unfold countQuery relationQuery searchedType SearchSpec.restrict
  rw [hsnapshots, htarget]
  -- both decide by the same two types, and each has its own way to leave the filter empty
  cases p.catalog.isSnapshotRelated base.effectiveType target with
  | true => rfl
  | false => rfl

/-- The plan of such a search has a query for what is related to the base in any way. -/
theorem exists_related (p : Planner) (base : ObjectRef) (target : TypeName) :
    ∃ i, (p.plan (p.undirectedSpec base target)).positions.related = some i ∧
      (p.plan (p.undirectedSpec base target)).queries[i]? =
        some (p.relationQuery (p.undirectedSpec base target) base .relevant) := by
  have hbase : (p.undirectedSpec base target).base = some base := rfl
  have hmega : (p.undirectedSpec base target).mega = false := rfl
  have hne : (p.undirectedSpec base target).base ≠ none := hbase ▸ Option.some_ne_none base
  obtain ⟨i, hi⟩ := Option.isSome_iff_exists.1 ((p.laid_out _).related.2 ⟨hne, hmega⟩)
  have hposition : (p.plan (p.undirectedSpec base target)).positions.ofRelevance? .relevant =
      some i := hi
  obtain ⟨base', hbase', hquery⟩ := getElem?_queries hposition
  cases hbase.symm.trans hbase'
  exact ⟨i, hi, hquery⟩

/-- **Every count is a count of what the list would show**, whatever is known of the types, whatever
the settings, and whether the base is a snapshot or not. There is one query for each type, in the
order of the types, and it counts what the search for the objects of that type, without directions,
asks for as related to the base. Both are for snapshots just when the type whose rules apply to the
base sees objects of that type as snapshots; and both are tied to the base as it is saved, by its own
number and its own type. -/
theorem counts_what_is_listed (p : Planner) (base : ObjectRef) (targets : List TypeName) :
    List.Forall₂ (fun target q =>
      ∃ i listed, (p.plan (p.undirectedSpec base target)).positions.related = some i ∧
        (p.plan (p.undirectedSpec base target)).queries[i]? = some listed ∧
        listed.AsksForRelated base .relevant ∧
        q.Counts listed ∧
        q.type = if p.catalog.isSnapshotRelated base.effectiveType target then p.snapshotType
          else target)
      targets (p.counts base targets) := by
  rw [counts, List.forall₂_map_right_iff, List.forall₂_same]
  intro target _
  obtain ⟨i, hi, hlisted⟩ := p.exists_related base target
  have hcounts : (p.countQuery base target).Counts
      (p.relationQuery (p.undirectedSpec base target) base .relevant) := by
    rw [countQuery_eq]
    exact ⟨rfl, rfl, rfl, rfl, rfl⟩
  refine ⟨i, _, hi, hlisted, p.relationQuery_asks _ base .relevant, hcounts, ?_⟩
  rw [hcounts.type]
  rfl

end Planner

end ObjectMapping
