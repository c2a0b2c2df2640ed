import ObjectMapping.Mapping.Broker
import ObjectMapping.Proofs.Search.Marking

/-! # From a search to what is mapped

The hits of a search are marked when the search is resolved, and some time later the user selects
among them and maps what was selected. In between directions may be chosen anew or taken back. The
directions of a selection are collected by number alone, whatever the types of the objects, so two
hits with one number share an entry; and the base, which may have the number of another hit, has to
be kept out.

* **`ChosenDirections.get?_collect`** — the direction collected for a hit that can be selected.
* **`selection_of_mega`** — with which directions what is mapped.
* **`base_offered_iff`** — when the base itself is offered. -/

namespace ObjectMapping

/-- The direction that a number is **settled** on: the one chosen by now, or else the one chosen
when the search was resolved, or else the default. -/
def ChosenDirections.settled (later chosen : ChosenDirections) (fallback : Direction) (id : Int) :
    Direction :=
  ((later.get? id).or (chosen.get? id)).getD fallback

namespace Hit.MarkedByDirection

variable {parents children : SortedSet Int} {chosen : ChosenDirections} {fallback : Direction}
  {base : ObjectRef} {before after : Hit}

/-- A hit can be selected if it is neither related already nor the base. -/
theorem disabled_eq_false_iff
    (hm : MarkedByDirection parents children chosen fallback base before after) :
    after.disabled = false ↔
      before.object.id ∉ parents ∧ before.object.id ∉ children ∧ before.object.key ≠ base.key := by
  rw [← Bool.not_eq_true, hm.disabled, hm.isMapped, hm.isSelf, not_or, not_or, and_assoc]

/-- A hit that is neither the base nor related has the direction that its number is settled on. -/
theorem selectedDirection_eq
    (hm : MarkedByDirection parents children chosen fallback base before after)
    (hself : before.object.key ≠ base.key) (hparent : before.object.id ∉ parents)
    (hchild : before.object.id ∉ children) (later : ChosenDirections) :
    after.selectedDirection later =
      some (later.settled chosen fallback before.object.id) := by
  have hfixed : ¬ after.directionFixed = true := fun h =>
    (hm.directionFixed.1 h).elim hparent hchild
  rw [selectedDirection, if_neg hfixed, hm.direction, if_neg hself, if_neg hchild, if_neg hparent,
    hm.object, ChosenDirections.settled]
  cases later.get? before.object.id <;> rfl

end Hit.MarkedByDirection

section Selection

variable {parents children : SortedSet Int} {chosen : ChosenDirections} {fallback : Direction}
  {base : ObjectRef} {before after : List Hit}

/-- **The direction collected for a hit that can be selected** is the one that its number is settled
on, whichever other hits have that number. -/
theorem ChosenDirections.get?_collect
    (hmarked : List.Forall₂ (Hit.MarkedByDirection parents children chosen fallback base)
      before after) (later : ChosenDirections) {h : Hit} (hh : h ∈ after)
    (henabled : h.disabled = false) :
    (later.collect after).get? h.object.id =
      some (later.settled chosen fallback h.object.id) := by
  obtain ⟨b, -, hm⟩ := exists_of_mem_of_forall₂ hmarked hh
  obtain ⟨hparent, hchild, hself⟩ := hm.disabled_eq_false_iff.1 henabled
  refine SortedMap.get?_ofList_of_forall ?_ fun other hother => ?_
  · refine List.mem_filterMap.2 ⟨h, List.mem_filter.2 ⟨hh, ?_⟩, ?_⟩
    · rw [Bool.not_eq_true', ← Bool.not_eq_true, hm.isSelf]
      exact hself
    · rw [hm.selectedDirection_eq hself hparent hchild, hm.object]
      rfl
  · -- another hit with the number is no more related than this one, and it is not the base
    obtain ⟨h', hh', hentry⟩ := List.mem_filterMap.1 hother
    obtain ⟨hh', hself'⟩ := List.mem_filter.1 hh'
    obtain ⟨d, hd, heq⟩ := Option.map_eq_some_iff.1 hentry
    obtain ⟨b', -, hm'⟩ := exists_of_mem_of_forall₂ hmarked hh'
    have hid : b'.object.id = b.object.id := by
      rw [← hm'.object, ← hm.object]
      exact congrArg Prod.fst heq
    rw [Bool.not_eq_true', ← Bool.not_eq_true, hm'.isSelf] at hself'
    rw [← hid] at hparent hchild
    rw [hm'.selectedDirection_eq hself' hparent hchild] at hd
    rw [hm.object, ← hid, Option.some.inj hd]
    exact (congrArg Prod.snd heq).symm

/-- What is selected among marked hits: those that are neither related already nor the base, each
with the direction that its number is settled on. -/
theorem Broker.selection_eq
    (hmarked : List.Forall₂ (Hit.MarkedByDirection parents children chosen fallback base)
      before after) (later : ChosenDirections) :
    Broker.selection after later =
      (before.filter fun h =>
        h.object.id ∉ parents ∧ h.object.id ∉ children ∧ h.object.key ≠ base.key).map
        fun h => ⟨h.object, some (later.settled chosen fallback h.object.id)⟩ := by
  have hdirections : Broker.selection after later =
      (after.filter fun h => !h.disabled).map fun h =>
        ⟨h.object, some (later.settled chosen fallback h.object.id)⟩ := by
    refine List.map_congr_left fun h hh => ?_
    obtain ⟨hh, henabled⟩ := List.mem_filter.1 hh
    rw [ChosenDirections.get?_collect hmarked later hh (by simpa using henabled)]
  rw [hdirections, eq_comm, ← List.forall₂_eq_eq_eq]
  -- hit by hit, the same ones pass and become the same targets
  refine List.rel_map (fun b h hm => ?_) (List.rel_filter (fun b h hm => ?_) hmarked)
  · rw [hm.object]
  · dsimp only
    rw [decide_eq_true_iff, Bool.not_eq_true', hm.disabled_eq_false_iff]

/-- An object is selected exactly when there is a hit for it that is not disabled. -/
theorem Broker.exists_mem_selection_iff {hits : List Hit} {later : ChosenDirections}
    {k : ObjectKey} :
    (∃ t ∈ Broker.selection hits later, t.object.key = k) ↔
      ∃ h ∈ hits, h.disabled = false ∧ h.object.key = k := by
  constructor
  · rintro ⟨t, ht, hkey⟩
    obtain ⟨h, hh, rfl⟩ := List.mem_map.1 ht
    obtain ⟨hh, henabled⟩ := List.mem_filter.1 hh
    exact ⟨h, hh, by simpa using henabled, hkey⟩
  · rintro ⟨h, hh, henabled, hkey⟩
    exact ⟨_, List.mem_map.2 ⟨h, List.mem_filter.2 ⟨hh, by simp [henabled]⟩, rfl⟩, hkey⟩

end Selection

/-- **Directions survive from the search to the mapping.** Of the hits of a search that asks for
directions, what is selected is what is neither related already nor the base, in the order of the
answer, each with the direction chosen for its number by now, or else the one chosen when the search
was resolved, or else the default. It makes no difference which directions were chosen, and which
other hits have the number of a hit. -/
theorem selection_of_mega (p : Plan) {responses : List Json} {o : Outcome} {base : ObjectRef}
    (chosen later : ChosenDirections) (fallback : Direction) (hmega : p.isMega = true)
    (hbase : p.base = some base) (hread : p.read responses = .ok o) :
    ∃ r, p.resolve responses chosen fallback = .ok r ∧
      Broker.selection r.hits later =
        ((o.hits.filter fun h =>
          h.object.id ∉ o.parents ∧ h.object.id ∉ o.children ∧ h.object.key ≠ base.key).map
          fun h => ⟨h.object, some (later.settled chosen fallback h.object.id)⟩) ∧
      ∀ t ∈ Broker.selection r.hits later,
        t.object.id ∉ o.parents ∧ t.object.id ∉ o.children ∧ t.object.key ≠ base.key := by
  have hselection := Broker.selection_eq
    (Plan.markedByDirection_of_read hread hmega hbase chosen fallback) later
  refine ⟨_, Plan.resolve_of_read hread chosen fallback, hselection, fun t ht => ?_⟩
  rw [hselection] at ht
  obtain ⟨h, hh, rfl⟩ := List.mem_map.1 ht
  exact of_decide_eq_true (List.mem_filter.1 hh).2

/-- Two objects have one number each time, once that of the base; and one direction was chosen anew
between the search and the selection, and one was taken back. -/
theorem selection_of_mega_with_shared_numbers :
    ∃ (p : Plan) (responses : List Json) (chosen later : ChosenDirections) (base : ObjectRef)
      (o r : Outcome),
      p.isMega = true ∧ p.base = some base ∧ p.read responses = .ok o ∧
      o.hits.map Hit.object =
        [base, .plain 1 ⟨"Control"⟩, .plain 2 ⟨"Program"⟩, .plain 2 ⟨"Control"⟩,
          .plain 3 ⟨"Program"⟩, .plain 4 ⟨"Program"⟩] ∧
      p.resolve responses chosen .child = .ok r ∧
      Broker.selection r.hits later =
        [⟨.plain 1 ⟨"Control"⟩, some .parent⟩, ⟨.plain 2 ⟨"Program"⟩, some .parent⟩,
          ⟨.plain 2 ⟨"Control"⟩, some .parent⟩, ⟨.plain 4 ⟨"Program"⟩, some .child⟩] := by
  let hit (id : Int) (type : String) : Json := .obj [("id", .int id), ("type", .str type)]
  let found (id : Int) (type : String) : Hit := { object := .plain id ⟨type⟩, data := hit id type }
  let ids (l : List Int) : Json := .obj [("Program", .obj [("ids", .arr (l.map .int))])]
  let base : ObjectRef := .plain 1 ⟨"Program"⟩
  let planner : Planner :=
    { catalog := ⟨[], List.nodup_nil⟩, policy := ⟨⟨∅, {}, []⟩, Permissions.all⟩ }
  let p : Plan := planner.plan { target := ⟨"Program"⟩, base := some base, mega := true }
  let responses : List Json :=
    [.obj [("Program", .obj [("values", .arr [hit 1 "Program", hit 1 "Control", hit 2 "Program",
      hit 2 "Control", hit 3 "Program", hit 4 "Program"])])], ids [3], ids []]
  let chosen : ChosenDirections := .ofList [(1, .parent), (4, .parent)]
  let later : ChosenDirections := .ofList [(2, .parent), (3, .child), (4, .child)]
  let o : Outcome :=
    { hits := [found 1 "Program", found 1 "Control", found 2 "Program", found 2 "Control",
        found 3 "Program", found 4 "Program"]
      total := 6
      parents := .ofList [3] }
  have hread : p.read responses = .ok o := by rfl
  obtain ⟨r, hresolve, hselection, -⟩ := selection_of_mega p chosen later .child rfl rfl hread
  exact ⟨p, responses, chosen, later, base, o, r, rfl, rfl, hread, rfl, hresolve,
    hselection.trans (by rfl)⟩

/-! ### The base among the hits -/

/-- The marks of the base in a resolved search: it is told to be the base, and cannot be selected,
where relationships have a direction; and elsewhere it cannot be selected if an object with its
number is related to it. -/
theorem Planner.marks_of_base {p : Planner} {s : SearchSpec} {responses : List Json} {o : Outcome}
    {base : ObjectRef} (hread : (p.plan s).read responses = .ok o) (hbase : s.base = some base)
    (chosen : ChosenDirections) (fallback : Direction) {h : Hit}
    (hh : h ∈ (o.marked (p.plan s).isMega chosen fallback (p.plan s).base).hits)
    (hkey : h.object.key = base.key) :
    (h.isSelf = true ↔ s.mega = true) ∧
      (h.disabled = true ↔ s.mega = true ∨ base.id ∈ o.related) := by
  cases hmega : s.mega with
  | true =>
    obtain ⟨b, -, hm⟩ := exists_of_mem_of_forall₂
      (Planner.markedByDirection_of_read hread hbase hmega chosen fallback) hh
    have hself : h.isSelf = true := hm.isSelf.2 (hm.object ▸ hkey)
    simp [hself, hm.disabled]
  | false =>
    obtain ⟨b, -, hm⟩ := exists_of_mem_of_forall₂
      (Planner.markedByRelation_of_read hread (.inr hmega) chosen fallback) hh
    have hid : b.object.id = base.id := congrArg Prod.fst (hm.object ▸ hkey)
    simp [hm.isSelf, hm.disabled, hid]

/-- **When the base itself is offered.** Where relationships have a direction, each hit that is the
base of the search is told to be it and cannot be selected. Elsewhere it is not told to be the base,
and it is selected like any other hit unless an object with its number is related to the base. -/
theorem base_offered_iff (p : Planner) (s : SearchSpec) {responses : List Json} {o : Outcome}
    {base : ObjectRef} (chosen later : ChosenDirections) (fallback : Direction)
    (hbase : s.base = some base) (hread : (p.plan s).read responses = .ok o) :
    ∃ r, (p.plan s).resolve responses chosen fallback = .ok r ∧
      (∀ h ∈ r.hits, h.object.key = base.key →
        (h.isSelf = true ↔ s.mega = true) ∧
        (h.disabled = true ↔ s.mega = true ∨ base.id ∈ o.related)) ∧
      ((∃ t ∈ Broker.selection r.hits later, t.object.key = base.key) ↔
        s.mega = false ∧ base.id ∉ o.related ∧ ∃ h ∈ r.hits, h.object.key = base.key) := by
  have hmarks : ∀ h ∈ (o.marked (p.plan s).isMega chosen fallback (p.plan s).base).hits,
      h.object.key = base.key → _ := fun h hh hkey =>
    Planner.marks_of_base hread hbase chosen fallback hh hkey
  refine ⟨_, Plan.resolve_of_read hread chosen fallback, hmarks, ?_⟩
  rw [Broker.exists_mem_selection_iff]
  constructor
  · rintro ⟨h, hh, henabled, hkey⟩
    rw [← Bool.not_eq_true, (hmarks h hh hkey).2, not_or, Bool.not_eq_true] at henabled
    exact ⟨henabled.1, henabled.2, h, hh, hkey⟩
  · rintro ⟨hmega, hrelated, h, hh, hkey⟩
    refine ⟨h, hh, ?_, hkey⟩
    rw [← Bool.not_eq_true, (hmarks h hh hkey).2, not_or, Bool.not_eq_true]
    exact ⟨hmega, hrelated⟩

/-- The base is among the hits twice, and an object with its number is related to it. Neither of the
hits can be selected, although they are not told to be the base. -/
theorem base_not_offered_beside_related :
    ∃ (p : Planner) (s : SearchSpec) (responses : List Json) (base : ObjectRef) (o r : Outcome),
      s.base = some base ∧ (p.plan s).read responses = .ok o ∧
      (p.plan s).resolve responses ∅ .child = .ok r ∧
      r.hits.map (fun h => (h.object.key, h.isSelf, h.disabled)) =
        [(base.key, false, true), (base.key, false, true)] ∧
      ¬ ∃ t ∈ Broker.selection r.hits ∅, t.object.key = base.key := by
  let control (id : Int) : Json := .obj [("id", .int id), ("type", .str "Control")]
  let p : Planner :=
    { catalog := ⟨[], List.nodup_nil⟩, policy := ⟨⟨∅, {}, []⟩, Permissions.all⟩ }
  let base : ObjectRef := .plain 1 ⟨"Control"⟩
  let s : SearchSpec := { target := ⟨"Control"⟩, base := some base }
  let responses : List Json :=
    [.obj [("Control", .obj [("values", .arr [control 1, control 1])])],
      .obj [("Control", .obj [("ids", .arr [.int 1])])]]
  let found : Hit := { object := base, data := control 1 }
  let o : Outcome := { hits := [found, found], total := 2, related := .ofList [1] }
  have hread : (p.plan s).read responses = .ok o := by rfl
  obtain ⟨r, hresolve, -, hoffered⟩ := base_offered_iff p s ∅ ∅ .child rfl hread
  have hhits : ((p.plan s).resolve responses ∅ .child).map
      (fun r => r.hits.map fun h => (h.object.key, h.isSelf, h.disabled)) =
        .ok [(base.key, false, true), (base.key, false, true)] := by rfl
  rw [hresolve] at hhits
  exact ⟨p, s, responses, base, o, r, rfl, hread, hresolve, Except.ok.inj hhits,
    fun h => (hoffered.1 h).2.1 (by decide)⟩

/-- **The base is offered for selection** where relationships have no direction: the hit that is the
base is not told to be it, it is not disabled, and it is selected. -/
theorem base_offered :
    ∃ (p : Planner) (s : SearchSpec) (responses : List Json) (base : ObjectRef) (r : Outcome),
      s.base = some base ∧ (p.plan s).resolve responses ∅ .child = .ok r ∧
      (∃ h ∈ r.hits, h.object.key = base.key ∧ h.isSelf = false ∧ h.disabled = false) ∧
      ∃ t ∈ Broker.selection r.hits ∅, t.object.key = base.key := by
  let control (id : Int) : Json := .obj [("id", .int id), ("type", .str "Control")]
  let p : Planner :=
    { catalog := ⟨[], List.nodup_nil⟩, policy := ⟨⟨∅, {}, []⟩, Permissions.all⟩ }
  let base : ObjectRef := .plain 1 ⟨"Control"⟩
  let s : SearchSpec := { target := ⟨"Control"⟩, base := some base }
  let responses : List Json :=
    [.obj [("Control", .obj [("values", .arr [control 1, control 2])])],
      .obj [("Control", .obj [("ids", .arr [.int 2])])]]
  let found : Hit := { object := base, data := control 1 }
  let related : Hit :=
    { object := .plain 2 ⟨"Control"⟩, data := control 2, isMapped := true, disabled := true }
  let r : Outcome := { hits := [found, related], total := 2, related := .ofList [2] }
  exact ⟨p, s, responses, base, r, rfl, by rfl, ⟨found, List.mem_cons_self, rfl, rfl, rfl⟩,
    ⟨base, none⟩, List.mem_cons_self, rfl⟩

end ObjectMapping
