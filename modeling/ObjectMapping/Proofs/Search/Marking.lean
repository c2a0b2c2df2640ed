import ObjectMapping.Proofs.Failure
import ObjectMapping.Proofs.Search.Layout
import ObjectMapping.Search.Outcome

/-! # How hits are marked

The answers to a search come without any marks. Whether a hit is related to the base already, in
which direction, whether it is the base itself and whether it can be selected is decided afterwards,
by two passes over the hits that write some of the same marks. What the passes leave is said here
mark by mark, for a single hit first (`Hit.markMapped`, `Hit.classify`), and then for an outcome: in
front of all else comes what exists already, as child before parent, then what the user chose, then
the default; and the base gets no direction whatever the rest says.

* **`Plan.unmarked_of_read`** — what is read carries no marks.
* **`Hit.Unmarked.classify_markMapped`** — the marks of a hit where relationships have a direction.
* **`resolve_marks`** — resolving a search sets the marks of its hits and changes nothing else. -/

namespace ObjectMapping

/-! ### What is read -/

/-- A hit **without marks**: nothing is known of it but the object. -/
def Hit.Unmarked (h : Hit) : Prop := h = { object := h.object, data := h.data }

/-- A hit for an object that the service sent carries no marks. -/
theorem Hit.unmarked_of_ofJson {data : Json} {h : Hit} (hread : Hit.ofJson data = .ok h) :
    h.Unmarked := by
  unfold Hit.ofJson at hread
  split at hread
  · cases hread
    rfl
  · cases hread

namespace Plan

variable {p : Plan} {responses : List Json} {o : Outcome}

/-- **What is read carries no marks.** -/
theorem unmarked_of_read (hread : p.read responses = .ok o) : ∀ h ∈ o.hits, h.Unmarked := by
  unfold read at hread
  dsimp only at hread
  split at hread
  · cases hread
  obtain ⟨related, -, hread⟩ := bind_eq_ok_iff.1 hread
  obtain ⟨parents, -, hread⟩ := bind_eq_ok_iff.1 hread
  obtain ⟨children, -, hread⟩ := bind_eq_ok_iff.1 hread
  obtain ⟨answer, -, hread⟩ := bind_eq_ok_iff.1 hread
  -- numbers and counts come without hits
  cases answer with
  | objects values total =>
    obtain ⟨hits, hhits, hread⟩ := bind_eq_ok_iff.1 hread
    cases hread
    intro h hh
    obtain ⟨data, -, hdata⟩ := exists_of_mem_of_forall₂ (mapM_eq_ok_iff.1 hhits) hh
    exact Hit.unmarked_of_ofJson hdata
  | numbers ids =>
    cases hread
    exact fun h hh => absurd hh List.not_mem_nil
  | count total =>
    cases hread
    exact fun h hh => absurd hh List.not_mem_nil

end Plan

/-! ### The marks of one hit -/

namespace Hit

/-- A hit is the base when number and type are those of the base. -/
@[simp] theorem isBase_some {base : ObjectRef} {h : Hit} :
    h.isBase (some base) = true ↔ h.object.key = base.key := by
  rw [isBase, Option.any_some, ObjectRef.same_iff, eq_comm]

/-- Marking a hit as mapped writes two marks, if its number is among those given. -/
theorem markMapped_eq (mapped : SortedSet Int) (h : Hit) :
    h.markMapped mapped =
      { h with
        isMapped := h.isMapped || decide (h.object.id ∈ mapped)
        disabled := h.disabled || decide (h.object.id ∈ mapped) } := by
  unfold markMapped
  split
  · next hmem => simp [hmem]
  · next hnot => simp [hnot]

/-- Classifying a hit writes four marks. -/
theorem classify_eq (parents children : SortedSet Int) (chosen : ChosenDirections)
    (fallback : Direction) (base : Option ObjectRef) (h : Hit) :
    h.classify parents children chosen fallback base =
      { h with
        direction :=
          if h.isBase base then none
          else some (decideDirection parents children chosen fallback h.object.id).1
        directionFixed := (decideDirection parents children chosen fallback h.object.id).2
        isSelf := h.isBase base
        disabled := h.disabled || h.isBase base } := by
  unfold classify
  dsimp only
  split
  · next hself => simp [hself]
  · next hother => simp [hother]

/-- A direction is fixed when the relationship exists already. -/
theorem decideDirection_snd (parents children : SortedSet Int) (chosen : ChosenDirections)
    (fallback : Direction) (id : Int) :
    (decideDirection parents children chosen fallback id).2 = true ↔
      id ∈ parents ∨ id ∈ children := by
  unfold decideDirection
  split
  · next hchild => simp [hchild]
  · next hchild =>
    split
    · next hparent => simp [hparent]
    · next hparent => simp [hchild, hparent]

/-- The base has no direction. For any other hit the direction that exists comes first, as child
before parent, then the one that the user chose, and last the default. -/
theorem direction_classify (parents children : SortedSet Int) (chosen : ChosenDirections)
    (fallback : Direction) (base : ObjectRef) (h : Hit) :
    (h.classify parents children chosen fallback (some base)).direction =
      if h.object.key = base.key then none
      else if h.object.id ∈ children then some .child
      else if h.object.id ∈ parents then some .parent
      else some ((chosen.get? h.object.id).getD fallback) := by
  rw [classify_eq]
  dsimp only
  simp only [isBase_some]
  split
  · rfl
  · unfold decideDirection
    split
    · rfl
    · split <;> rfl

/-- How a hit is **marked by a relation** to a base, if relationships have no direction: as mapped,
and not to be selected, if its number is one of those related to the base. -/
structure MarkedByRelation (related : SortedSet Int) (before after : Hit) : Prop where
  /-- The object stays. -/
  object : after.object = before.object
  /-- What the service sent stays. -/
  data : after.data = before.data
  /-- The object is related to the base. -/
  isMapped : after.isMapped = true ↔ before.object.id ∈ related
  /-- What is related already cannot be selected. -/
  disabled : after.disabled = true ↔ before.object.id ∈ related
  /-- There is no direction. -/
  direction : after.direction = none
  /-- No direction is fixed. -/
  directionFixed : after.directionFixed = false
  /-- No hit is told to be the base, not even the base. -/
  isSelf : after.isSelf = false

/-- How a hit is **marked by direction**, if relationships with the base have one. -/
structure MarkedByDirection (parents children : SortedSet Int) (chosen : ChosenDirections)
    (fallback : Direction) (base : ObjectRef) (before after : Hit) : Prop where
  /-- The object stays. -/
  object : after.object = before.object
  /-- What the service sent stays. -/
  data : after.data = before.data
  /-- A child of the base is a child, one of its parents a parent, and any other object is what the
  user chose for it, or else the default; but the base itself has no direction. -/
  direction : after.direction =
    if before.object.key = base.key then none
    else if before.object.id ∈ children then some .child
    else if before.object.id ∈ parents then some .parent
    else some ((chosen.get? before.object.id).getD fallback)
  /-- The direction is fixed if the relationship exists. -/
  directionFixed : after.directionFixed = true ↔
    before.object.id ∈ parents ∨ before.object.id ∈ children
  /-- The object is related to the base if it is one of its parents or children. -/
  isMapped : after.isMapped = true ↔ before.object.id ∈ parents ∨ before.object.id ∈ children
  /-- The object is the base if number and type are. -/
  isSelf : after.isSelf = true ↔ before.object.key = base.key
  /-- Neither what is related already nor the base can be selected. -/
  disabled : after.disabled = true ↔ after.isMapped = true ∨ after.isSelf = true

/-- A hit without marks is marked by its relation to the base. -/
theorem Unmarked.markMapped {h : Hit} (hun : h.Unmarked) (related : SortedSet Int) :
    MarkedByRelation related h (h.markMapped related) := by
  rw [Unmarked] at hun
  rw [markMapped_eq]
  constructor
  · rfl
  · rfl
  · rw [hun]
    simp
  · rw [hun]
    simp
  · rw [hun]
  · rw [hun]
  · rw [hun]

/-- A hit without marks is marked by its direction. -/
theorem Unmarked.classify_markMapped {h : Hit} (hun : h.Unmarked)
    (parents children : SortedSet Int) (chosen : ChosenDirections) (fallback : Direction)
    (base : ObjectRef) :
    MarkedByDirection parents children chosen fallback base h
      ((h.markMapped (parents ∪ children)).classify parents children chosen fallback
        (some base)) := by
  rw [Unmarked] at hun
  -- Only `isMapped` and `disabled` depend on the hit being unmarked: the marks that are there
  -- already are kept in these two, and the other marks are written over whatever was there.
  constructor
  · rw [classify_eq, markMapped_eq]
  · rw [classify_eq, markMapped_eq]
  · rw [direction_classify, markMapped_eq]
  · rw [classify_eq, markMapped_eq]
    exact decideDirection_snd parents children chosen fallback h.object.id
  · rw [classify_eq, markMapped_eq, hun]
    simp
  · rw [classify_eq, markMapped_eq]
    exact isBase_some
  · rw [classify_eq, markMapped_eq, hun]
    simp

end Hit

/-! ### The marks of an outcome -/

/-- Marking an outcome changes nothing but its hits. -/
theorem Outcome.marked_beside_hits (o : Outcome) (mega : Bool) (chosen : ChosenDirections)
    (fallback : Direction) (base : Option ObjectRef) :
    let r := o.marked mega chosen fallback base
    r.ids = o.ids ∧ r.total = o.total ∧
      r.related = o.related ∧ r.parents = o.parents ∧ r.children = o.children := by
  unfold marked
  cases mega <;> exact ⟨rfl, rfl, rfl, rfl, rfl⟩

namespace Plan

variable {p : Plan} {responses : List Json} {o : Outcome}

/-- A search is resolved whenever its answers are read. -/
theorem resolve_of_read (hread : p.read responses = .ok o) (chosen : ChosenDirections)
    (fallback : Direction) :
    p.resolve responses chosen fallback = .ok (o.marked p.isMega chosen fallback p.base) := by
  rw [resolve, hread]
  rfl

/-- Hits are marked by direction where the plan asks for directions. -/
theorem markedByDirection_of_read {base : ObjectRef} (hread : p.read responses = .ok o)
    (hmega : p.isMega = true) (hbase : p.base = some base) (chosen : ChosenDirections)
    (fallback : Direction) :
    List.Forall₂ (Hit.MarkedByDirection o.parents o.children chosen fallback base) o.hits
      (o.marked p.isMega chosen fallback p.base).hits := by
  rw [hmega, hbase, Outcome.marked, if_pos rfl]
  show List.Forall₂ _ o.hits ((o.hits.map _).map _)
  rw [List.map_map, List.forall₂_map_right_iff, List.forall₂_same]
  exact fun h hh => (unmarked_of_read hread h hh).classify_markMapped _ _ chosen fallback base

/-- Hits are marked by their relation to the base where the plan does not ask for directions. -/
theorem markedByRelation_of_read (hread : p.read responses = .ok o) (hmega : p.isMega = false)
    (chosen : ChosenDirections) (fallback : Direction) :
    List.Forall₂ (Hit.MarkedByRelation o.related) o.hits
      (o.marked p.isMega chosen fallback p.base).hits := by
  rw [hmega, Outcome.marked, if_neg Bool.false_ne_true]
  show List.Forall₂ _ o.hits (o.hits.map _)
  rw [List.forall₂_map_right_iff, List.forall₂_same]
  exact fun h hh => (unmarked_of_read hread h hh).markMapped o.related

end Plan

namespace Planner

variable {p : Planner} {s : SearchSpec} {responses : List Json} {o : Outcome}

/-- Hits of a search from a base are marked by direction, if relationships with it have one. -/
theorem markedByDirection_of_read {base : ObjectRef} (hread : (p.plan s).read responses = .ok o)
    (hbase : s.base = some base) (hmega : s.mega = true) (chosen : ChosenDirections)
    (fallback : Direction) :
    List.Forall₂ (Hit.MarkedByDirection o.parents o.children chosen fallback base) o.hits
      (o.marked (p.plan s).isMega chosen fallback (p.plan s).base).hits := by
  refine Plan.markedByDirection_of_read hread ?_ ((p.base_plan s).trans hbase) chosen fallback
  exact (p.isMega_plan s).2 ⟨by simp [hbase], hmega⟩

/-- Hits of any other search are marked by their relation to the base. -/
theorem markedByRelation_of_read (hread : (p.plan s).read responses = .ok o)
    (hno : s.base = none ∨ s.mega = false) (chosen : ChosenDirections) (fallback : Direction) :
    List.Forall₂ (Hit.MarkedByRelation o.related) o.hits
      (o.marked (p.plan s).isMega chosen fallback (p.plan s).base).hits := by
  refine Plan.markedByRelation_of_read hread ?_ chosen fallback
  rw [Bool.eq_false_iff, ne_eq, p.isMega_plan s]
  rintro ⟨hbase, hmega⟩
  exact hno.elim hbase (by simp [hmega])

end Planner

/-- **Resolving a search sets the marks of its hits and changes nothing else.** Whenever the answers
to a plan are read, it is resolved: the hits are those read, in their order and with what the
service sent, and the numbers, the total and the sets of related objects are those read. If there is
a base with which relationships have a direction, the hits are marked by direction, and otherwise by
their relation to the base. -/
theorem resolve_marks (p : Planner) (s : SearchSpec) {responses : List Json} {o : Outcome}
    (chosen : ChosenDirections) (fallback : Direction)
    (hread : (p.plan s).read responses = .ok o) :
    ∃ r, (p.plan s).resolve responses chosen fallback = .ok r ∧
      r.ids = o.ids ∧ r.total = o.total ∧
      r.related = o.related ∧ r.parents = o.parents ∧ r.children = o.children ∧
      (∀ base, s.base = some base → s.mega = true →
        List.Forall₂ (Hit.MarkedByDirection o.parents o.children chosen fallback base)
          o.hits r.hits) ∧
      (s.base = none ∨ s.mega = false →
        List.Forall₂ (Hit.MarkedByRelation o.related) o.hits r.hits) := by
  obtain ⟨hids, htotal, hrelated, hparents, hchildren⟩ :=
    o.marked_beside_hits (p.plan s).isMega chosen fallback (p.plan s).base
  exact ⟨_, Plan.resolve_of_read hread chosen fallback, hids, htotal, hrelated, hparents, hchildren,
    fun _ hbase hmega => Planner.markedByDirection_of_read hread hbase hmega chosen fallback,
    fun hno => Planner.markedByRelation_of_read hread hno chosen fallback⟩

/-- The base stands among its own parents and children, one object is both, and the user chose a
direction for a parent and for an object that is not related. -/
theorem resolve_marks_with_overlap :
    ∃ (p : Planner) (s : SearchSpec) (responses : List Json) (chosen : ChosenDirections)
      (base : ObjectRef) (o r : Outcome),
      s.base = some base ∧ s.mega = true ∧ (p.plan s).read responses = .ok o ∧
      (p.plan s).resolve responses chosen .child = .ok r ∧
      List.Forall₂ (Hit.MarkedByDirection o.parents o.children chosen .child base) o.hits r.hits ∧
      r.hits.map (fun h => (h.object.id, h.direction, h.disabled)) =
        [(1, none, true), (2, some .child, true), (3, some .parent, true),
          (4, some .parent, false), (5, some .child, false)] := by
  let program (id : Int) : Json := .obj [("id", .int id), ("type", .str "Program")]
  let ids (l : List Int) : Json := .obj [("Program", .obj [("ids", .arr (l.map .int))])]
  let p : Planner :=
    { catalog := ⟨[], List.nodup_nil⟩, policy := ⟨⟨∅, {}, []⟩, Permissions.all⟩ }
  let base : ObjectRef := .plain 1 ⟨"Program"⟩
  let s : SearchSpec := { target := ⟨"Program"⟩, base := some base, mega := true }
  let responses : List Json :=
    [.obj [("Program", .obj [("values", .arr ([1, 2, 3, 4, 5].map program))])],
      ids [1, 2, 3], ids [1, 2]]
  let chosen : ChosenDirections := .ofList [(3, .child), (4, .parent)]
  obtain ⟨o, hread⟩ : ∃ o, (p.plan s).read responses = .ok o := ⟨_, by rfl⟩
  obtain ⟨r, hresolve, -, -, -, -, -, hmarked, -⟩ := resolve_marks p s chosen .child hread
  have hmarks : ((p.plan s).resolve responses chosen .child).map
      (fun r => r.hits.map fun h => (h.object.id, h.direction, h.disabled)) =
        .ok [(1, none, true), (2, some .child, true), (3, some .parent, true),
          (4, some .parent, false), (5, some .child, false)] := by rfl
  rw [hresolve] at hmarks
  exact ⟨p, s, responses, chosen, base, o, r, rfl, rfl, hread, hresolve, hmarked base rfl rfl,
    Except.ok.inj hmarks⟩

end ObjectMapping
