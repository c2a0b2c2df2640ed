import ObjectMapping.Search.Plan

/-! # What a search asks for

A filter is true or false once one knows which conditions are true of an object (`Filter.Holds`). To
the filter that was asked for a search adds conditions of its own: on the states of the objects, on
whether they are archived, and on the type of the objects that snapshots are frozen from. They are
all joined to it by `AND`, outside of whatever it is made of, so none of them can be got round.

* **`Filter.holds_and`** — two filters joined by `AND` hold when both do, empty or not.
* **`primary_holds_iff`** — the query for the objects themselves asks for what was asked for, and
  for all that is added. -/

namespace ObjectMapping

/-! ### Truth of filters -/

namespace Filter

/-- Whether a filter **holds** where some conditions are true: the filter without conditions does,
and a node does when both of its sides do, or one of them. -/
def Holds (truth : Condition → Prop) : Filter → Prop
  | .empty => True
  | .condition c => truth c
  | .binary left .and right => left.Holds truth ∧ right.Holds truth
  | .binary left .or right => left.Holds truth ∨ right.Holds truth

variable {truth : Condition → Prop}

/-- The filter without conditions holds. -/
@[simp] theorem holds_empty : empty.Holds truth ↔ True := Iff.rfl

/-- A filter with a single condition holds when the condition is true. -/
@[simp] theorem holds_compare (field : String) (comparison : Comparison) (literal : Literal) :
    (compare field comparison literal).Holds truth ↔ truth ⟨field, comparison, literal⟩ := Iff.rfl

/-- Two filters of which none is empty are joined by a node. -/
theorem join_of_ne_empty {connective : Connective} {a b : Filter} (ha : a ≠ empty)
    (hb : b ≠ empty) : join connective a b = .binary a connective b := by
  cases a <;> cases b <;> simp_all [join]

/-- **Two filters joined by `AND` hold when both do**, also where one of them is empty and is left
out. -/
@[simp] theorem holds_and (a b : Filter) :
    (a.and b).Holds truth ↔ a.Holds truth ∧ b.Holds truth := by
  by_cases ha : a = empty
  · rw [ha, Filter.and, join_empty_left, holds_empty, true_and]
  · by_cases hb : b = empty
    · rw [hb, Filter.and, join_empty_right, holds_empty, and_true]
    · rw [Filter.and, join_of_ne_empty ha hb, Holds]

/-- The conditions of two filters joined by `AND` are those of both. -/
@[simp] theorem conditions_and (a b : Filter) :
    (a.and b).conditions = a.conditions ++ b.conditions := conditions_join .and a b

end Filter

/-! ### What a search adds -/

/-- The state of an object is one of several. -/
def Condition.statusIn (statuses : List String) : Condition := ⟨"Status", .oneOf, .list statuses⟩

/-- An object is not archived. -/
def Condition.notArchived : Condition := ⟨"archived", .equal, .bool false⟩

/-- A snapshot is one of an object of a type. -/
def Condition.frozenFrom (type : TypeName) : Condition := ⟨"child_type", .equal, .text type.text⟩

namespace Planner

variable {truth : Condition → Prop}

/-- The filter for states holds when the state is one of them, if there are any to choose from. -/
theorem holds_statusFilter (statuses : List String) :
    (statusFilter statuses).Holds truth ↔ (statuses ≠ [] → truth (.statusIn statuses)) := by
  unfold statusFilter
  split
  · next hempty => simp [hempty]
  · next hsome => simp [hsome, Filter.oneOf, Condition.statusIn, statusField]

/-- The condition in the filter for states. -/
theorem conditions_statusFilter (statuses : List String) :
    (statusFilter statuses).conditions =
      if statuses = [] then [] else [Condition.statusIn statuses] := by
  unfold statusFilter
  split <;> rfl

/-- What a type demands holds when the object is not archived, if the type is for such objects. -/
theorem holds_constraintFilter (p : Planner) (target : TypeName) :
    (p.constraintFilter target).Holds truth ↔
      (p.catalog.constraint? target = some .unlocked → truth .notArchived) := by
  unfold constraintFilter
  split
  · next hunlocked => simp [hunlocked, Filter.equal, Condition.notArchived, archivedField]
  · next hother => simp [hother]

/-- The condition in what a type demands. -/
theorem conditions_constraintFilter (p : Planner) (target : TypeName) :
    (p.constraintFilter target).conditions =
      if p.catalog.constraint? target = some .unlocked then [Condition.notArchived] else [] := by
  unfold constraintFilter
  split <;> rfl

end Planner

namespace SearchSpec

variable {truth : Condition → Prop}

/-- A filter restricted as a search demands holds when it holds itself, for snapshots of objects of
the type if the search is for snapshots. -/
theorem holds_restrict (s : SearchSpec) (f : Filter) :
    (s.restrict f).Holds truth ↔
      (s.useSnapshots = true → truth (.frozenFrom s.target)) ∧ f.Holds truth := by
  unfold restrict
  split
  · next hsnapshots =>
    simp [hsnapshots, Filter.ofSnapshots, Filter.equal, Condition.frozenFrom,
      Filter.childTypeField]
  · next hobjects => simp [hobjects]

/-- The conditions in a filter restricted as a search demands. -/
theorem conditions_restrict (s : SearchSpec) (f : Filter) :
    (s.restrict f).conditions =
      (if s.useSnapshots = true then [Condition.frozenFrom s.target] else []) ++ f.conditions := by
  unfold restrict
  split
  · rw [Filter.ofSnapshots, Filter.conditions_and]
    rfl
  · rfl

end SearchSpec

/-! ### The query for the objects themselves -/

/-- The first query of a plan is the one for the objects themselves. -/
theorem Planner.primary?_plan (p : Planner) (s : SearchSpec) :
    (p.plan s).primary? = some (p.primaryQuery s) := by
  unfold Planner.plan Plan.primary?
  cases s.base with
  | none => rfl
  | some base => cases s.mega <;> rfl

/-- **The query for the objects themselves asks for exactly what was asked for.** A plan has such a
query, and whichever conditions are true of an object, its filter holds just when the filter that
was asked for does, and the state is one of those asked for if there are any, and the object is not
archived if its type demands it, and it is a snapshot of an object of the type if snapshots are
searched. Its conditions are, from left to right, the one on snapshots, those that were asked for,
and the ones on states and archived objects. -/
theorem primary_holds_iff (p : Planner) (s : SearchSpec) :
    ∃ q, (p.plan s).primary? = some q ∧
      (∀ truth : Condition → Prop, q.filter.Holds truth ↔
        s.filter.Holds truth ∧
        (s.statuses ≠ [] → truth (.statusIn s.statuses)) ∧
        (p.catalog.constraint? s.target = some .unlocked → truth .notArchived) ∧
        (s.useSnapshots = true → truth (.frozenFrom s.target))) ∧
      q.filter.conditions =
        (if s.useSnapshots = true then [.frozenFrom s.target] else []) ++ s.filter.conditions ++
          (if s.statuses = [] then [] else [.statusIn s.statuses]) ++
          (if p.catalog.constraint? s.target = some .unlocked then [.notArchived] else []) := by
  refine ⟨p.primaryQuery s, p.primary?_plan s, fun truth => ?_, ?_⟩
  · show (s.restrict (p.primaryFilter s)).Holds truth ↔ _
    rw [SearchSpec.holds_restrict, Planner.primaryFilter, Filter.holds_and, Filter.holds_and,
      Planner.holds_statusFilter, Planner.holds_constraintFilter]
    constructor
    · rintro ⟨hsnapshot, ⟨hfilter, hstatus⟩, hconstraint⟩
      exact ⟨hfilter, hstatus, hconstraint, hsnapshot⟩
    · rintro ⟨hfilter, hstatus, hconstraint, hsnapshot⟩
      exact ⟨hsnapshot, ⟨hfilter, hstatus⟩, hconstraint⟩
  · show (s.restrict (p.primaryFilter s)).conditions = _
    rw [SearchSpec.conditions_restrict, Planner.primaryFilter, Filter.conditions_and,
      Filter.conditions_and, Planner.conditions_statusFilter, Planner.conditions_constraintFilter,
      List.append_assoc, List.append_assoc, List.append_assoc]

end ObjectMapping
