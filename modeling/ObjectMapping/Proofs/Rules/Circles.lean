import ObjectMapping.Proofs.Rules.Locality
import Mathlib.Data.Finset.Card

/-! # Where circles are entered

Where mixins lead round in a circle, the names on it are resolved one inside another, and each goes
without those that are on the stack by then. So their rules depend on the name at which the circle
is entered (`Resolver.entrance`). It is shown here that they depend on nothing else that a
resolution has done before, and neither do the rules of other names.

* **`Runs.enteredAt`** — a circle is entered by a run that begins when none of its names has been
  taken up.
* **`Runs.alike`** — runs through the same mixins that begin alike on a part of the table go the
  same way there.
* **`Runs.agree_of_entrance`** — resolutions that enter circles at the same names keep the same
  rules. -/

namespace ObjectMapping

open Relation

variable {table : RuleTable} {owner name a b c e : TypeName} {mixins : List Mixin}
  {p p' p₀ p₀' : PartialRules} {r r' r₀ r₀' : Resolver}

/-! ### Circles -/

/-- Two names are on **the same circle** when mixins lead from each of them to the other. A name
that is on no circle stands alone. -/
def SameCircle (table : RuleTable) (a b : TypeName) : Prop :=
  ReflTransGen (Mixes table) a b ∧ ReflTransGen (Mixes table) b a

namespace SameCircle

theorem refl (table : RuleTable) (a : TypeName) : SameCircle table a a := ⟨.refl, .refl⟩

theorem symm (h : SameCircle table a b) : SameCircle table b a := ⟨h.2, h.1⟩

theorem trans (h : SameCircle table a b) (h' : SameCircle table b c) : SameCircle table a c :=
  ⟨h.1.trans h'.1, h'.2.trans h.2⟩

/-- A name that is on no circle stands alone. -/
theorem eq_of_not_circle (h : SameCircle table a b) (ha : ¬ TransGen (Mixes table) a a) :
    b = a := by
  obtain rfl | hab := reflTransGen_iff_eq_or_transGen.1 h.1
  · rfl
  · exact absurd (hab.trans_left h.2) ha

end SameCircle

/-- Mixins do not lead out of names whose declarations name only such names. -/
theorem mem_of_reach {names : List TypeName}
    (hnames : ∀ x ∈ names, ∀ y ∈ (table.get? x).elim [] Declaration.mentioned, y ∈ names)
    (ha : a ∈ names) (h : ReflTransGen (Mixes table) a b) : b ∈ names := by
  induction h with
  | refl => exact ha
  | tail _ hmixes ih => exact hnames _ ih _ (mixes_iff.1 hmixes).1

/-- A name is **behind the circle** of another one when mixins lead to it from there but do not lead
back. -/
def BehindCircle (table : RuleTable) (c m : TypeName) : Prop :=
  ReflTransGen (Mixes table) c m ∧ ¬ ReflTransGen (Mixes table) m c

/-- What holds of a name if it holds of all those behind its circle holds of every name, as there is
no endless way from circle to circle. -/
theorem behindCircle_induction {P : TypeName → Prop} (table : RuleTable)
    (h : ∀ c, (∀ x, BehindCircle table c x → P x) → P c) (c : TypeName) : P c := by
  classical
  -- the induction is on the number of declared names that can be reached
  let reached : TypeName → Finset TypeName := fun c =>
    table.keys.toFinset.filter (ReflTransGen (Mixes table) c ·)
  induction hsize : (reached c).card using Nat.strong_induction_on generalizing c with
  | _ size ih =>
    refine h c fun x ⟨hcx, hxc⟩ => ih _ ?_ x rfl
    have hmem : c ∈ table.keys := by
      obtain rfl | ⟨y, ⟨d, hd, -, -⟩, -⟩ := hcx.cases_head
      · exact absurd .refl hxc
      · exact SortedMap.contains_iff_mem_keys.1 (contains_of_get? hd)
    rw [← hsize]
    -- from behind its circle the name itself cannot be reached
    refine Finset.card_lt_card ⟨?_, fun hsub => hxc ?_⟩
    · intro y hy
      rw [Finset.mem_filter] at hy ⊢
      exact ⟨hy.1, hcx.trans hy.2⟩
    · have hc : c ∈ reached c := Finset.mem_filter.2 ⟨List.mem_toFinset.2 hmem, .refl⟩
      exact (Finset.mem_filter.1 (hsub hc)).2

/-! ### Names taken up -/

namespace Resolver

open Classical in
/-- The **entrance** to the circle of a name: the first name on it that a resolution has taken
up. -/
noncomputable def entrance (r : Resolver) (table : RuleTable) (c : TypeName) : Option TypeName :=
  r.entered.find? fun m => SameCircle table c m

/-- The entrance is a name on the circle. -/
theorem sameCircle_of_entrance (h : r.entrance table c = some e) : SameCircle table c e := by
  rw [entrance] at h
  simpa using List.find?_some h

/-- The entrance depends on the circle alone. -/
theorem entrance_congr {table' : RuleTable} {c' : TypeName}
    (h : ∀ m, SameCircle table c m ↔ SameCircle table' c' m) (r : Resolver) :
    r.entrance table c = r.entrance table' c' := by
  rw [entrance, entrance]
  congr 1
  funext m
  exact decide_eq_decide.2 (h m)

/-- There is no entrance as long as no name on the circle has been taken up. -/
theorem entrance_eq_none_iff :
    r.entrance table c = none ↔ ∀ m ∈ r.entered, ¬ SameCircle table c m := by
  simp [entrance]

/-- There is an entrance when a name on the circle has been taken up. -/
theorem exists_entrance (table : RuleTable) (hc : c ∈ r.entered) :
    ∃ e, r.entrance table c = some e := by
  rw [← Option.ne_none_iff_exists', Ne, entrance_eq_none_iff]
  exact fun h => h c hc (.refl table c)

/-- The first name on the circle that has been taken up is the entrance. -/
theorem entrance_eq_some {before after : List TypeName}
    (hentered : r.entered = before ++ e :: after) (he : SameCircle table c e)
    (hbefore : ∀ m ∈ before, ¬ SameCircle table c m) : r.entrance table c = some e := by
  rw [entrance, List.find?_eq_some_iff_append]
  exact ⟨by simpa using he, before, after, hentered, by simpa using hbefore⟩

/-- The entrance stays the same when more names are taken up. -/
theorem entrance_of_grows (hgrows : r.entered <+: r'.entered) (h : r.entrance table c = some e) :
    r'.entrance table c = some e :=
  hgrows.find?_eq_some h

/-- A name that is on no circle is its own entrance. -/
theorem entrance_of_not_circle (hc : ¬ TransGen (Mixes table) c c) (hmem : c ∈ r.entered) :
    r.entrance table c = some c := by
  obtain ⟨e, he⟩ := exists_entrance table hmem
  rw [he, (sameCircle_of_entrance he).eq_of_not_circle hc]

/-- A state **tracks** names when all names on its stack, and all that it has resolved, are entered
as taken up. -/
def Tracks (r : Resolver) : Prop :=
  ∀ m, m ∈ r.stack ∨ (∃ q, r.done.get? m = some q) → m ∈ r.entered

namespace Tracks

/-- At the start there is nothing to be tracked. -/
theorem start : Tracks {} := by
  rintro m (hm | ⟨q, hq⟩)
  · cases hm
  · cases hq

/-- What is reported makes no difference. -/
theorem report (h : r.Tracks) (d : Diagnostic) : (r.report d).Tracks := by
  rwa [Tracks, stack_report, done_report, entered_report]

/-- A name that is put on the stack is entered as taken up. -/
theorem enter (h : r.Tracks) (name : TypeName) : (r.enter name).Tracks := by
  rintro m (hm | hq)
  · exact (List.mem_append.1 hm).elim (fun hm => List.mem_append_left _ (h m (.inl hm)))
      (List.mem_append_right _)
  · exact List.mem_append_left _ (h m (.inr hq))

/-- A name that has been taken up may be resolved. -/
theorem leave (h : r.Tracks) (hname : name ∈ r.entered) (q : PartialRules) :
    (r.leave name q).Tracks := by
  rintro m (hm | ⟨q', hq'⟩)
  · exact h m (.inl (List.dropLast_subset _ hm))
  · rw [get?_done_leave] at hq'
    split at hq'
    · next hm => exact hm ▸ hname
    · exact h m (.inr ⟨q', hq'⟩)

end Tracks

end Resolver

/-- **A run keeps track of names.** -/
theorem Runs.tracks (h : Runs table owner mixins p r p' r') (htracks : r.Tracks) : r'.Tracks := by
  induction h with
  | nil => exact htracks
  | undeclared hname hrest ih => exact ih (htracks.report _)
  | known hname hq hrest ih => exact ih htracks
  | cycle hname hq hstack hrest ih => exact ih (htracks.report _)
  | taken hname hq hstack hd hrest ihd ih =>
    have hentered := hd.entered_grows.subset (List.mem_append_right _ List.mem_cons_self)
    exact ih ((ihd (htracks.enter _)).leave hentered _)
  | inline hd hrest ihd ih => exact ih (ihd htracks)
  | transform hrest ih => exact ih htracks

/-! ### How a circle is entered -/

/-- The circle of a name is **untouched** in a state when none of its names has been taken up; and
what the resolved names mix in is resolved too, or on the stack. -/
structure Untouched (table : RuleTable) (c : TypeName) (r : Resolver) : Prop where
  tracks : r.Tracks
  settled : Settled table r
  unentered : r.entrance table c = none

namespace Untouched

/-- Before anything is resolved all circles are untouched. -/
theorem start : Untouched table c {} where
  tracks := .start
  settled := settled_start
  unentered := rfl

/-- What is reported makes no difference. -/
theorem report (h : Untouched table c r) (d : Diagnostic) : Untouched table c (r.report d) where
  tracks := h.tracks.report d
  settled := by
    rw [Settled, Resolver.done_report, Resolver.stack_report]
    exact h.settled
  unentered := by
    rw [Resolver.entrance, Resolver.entered_report]
    exact h.unentered

/-- A name that is not on the circle may be taken up. -/
theorem enter (h : Untouched table c r) (hname : ¬ SameCircle table c name) :
    Untouched table c (r.enter name) where
  tracks := h.tracks.enter name
  settled x y q hx hxy := (h.settled x y q hx hxy).imp (List.mem_append_left _) id
  unentered := by
    rw [Resolver.entrance_eq_none_iff]
    intro m hm
    obtain hm | hm := List.mem_append.1 hm
    · exact Resolver.entrance_eq_none_iff.1 h.unentered m hm
    · exact List.mem_singleton.1 hm ▸ hname

/-- The first name on the circle that is taken up is its entrance. -/
theorem entrance_enter (h : Untouched table c r) (hname : SameCircle table c name) :
    (r.enter name).entrance table c = some name := by
  have hnone := h.unentered
  rw [Resolver.entrance] at hnone ⊢
  rw [Resolver.enter, List.find?_append, hnone]
  simp [hname]

/-- The names on the circle are not on the stack. -/
theorem not_mem_stack (h : Untouched table c r) (hname : SameCircle table c name) :
    name ∉ r.stack :=
  fun hmem => Resolver.entrance_eq_none_iff.1 h.unentered name (h.tracks name (.inl hmem)) hname

/-- The names on the circle are not resolved. -/
theorem get?_done (h : Untouched table c r) (hname : SameCircle table c name) :
    r.done.get? name = none := by
  refine Option.eq_none_iff_forall_ne_some.2 fun q hq => ?_
  exact Resolver.entrance_eq_none_iff.1 h.unentered name (h.tracks name (.inr ⟨q, hq⟩)) hname

/-- A run that takes up none of the names on the circle leaves it untouched. -/
theorem of_runs (h : Untouched table c r) (hrun : Runs table owner mixins p r p' r')
    (hnone : r'.entrance table c = none) : Untouched table c r' :=
  ⟨hrun.tracks h.tracks, hrun.settled h.settled, hnone⟩

end Untouched

/-- A name **enters** a circle in a state when it is a declared name on the circle, the stack leads
to it, and the circle is untouched. -/
structure Enters (table : RuleTable) (c e : TypeName) (r : Resolver) : Prop where
  untouched : Untouched table c r
  sameCircle : SameCircle table c e
  declared : table.contains e = true
  below : Below table r.stack e

/-- A circle **has been entered** at a name when a run of the name began in a state in which the
name enters the circle, and all that had been resolved when the run ended is kept. -/
def EnteredAt (table : RuleTable) (c e : TypeName) (r : Resolver) : Prop :=
  ∃ s p₁ s₁, Enters table c e s ∧ Runs table e [.named e] .empty s p₁ s₁ ∧
    ∀ m q, s₁.done.get? m = some q → r.done.get? m = some q

/-- What has been resolved goes on to be kept. -/
theorem EnteredAt.of_kept (h : EnteredAt table c e r)
    (hkept : ∀ m q, r.done.get? m = some q → r'.done.get? m = some q) :
    EnteredAt table c e r' := by
  obtain ⟨s, p₁, s₁, henters, hrun, hkept₁⟩ := h
  exact ⟨s, p₁, s₁, henters, hrun, fun m q hm => hkept m q (hkept₁ m q hm)⟩

/-- **A run enters a circle at its entrance**, if the circle is untouched before. -/
theorem Runs.enteredAt (h : Runs table owner mixins p r p' r') (huntouched : Untouched table c r)
    (hbelow : Mixin.AllMentioned table (Below table r.stack) mixins)
    (he : r'.entrance table c = some e) : EnteredAt table c e r' := by
  induction h with
  | nil =>
    rw [huntouched.unentered] at he
    cases he
  | undeclared hname hrest ih =>
    refine ih (huntouched.report _) ?_ he
    rw [Resolver.stack_report]
    exact (Mixin.allMentioned_named.1 hbelow).2
  | known hname hq hrest ih => exact ih huntouched (Mixin.allMentioned_named.1 hbelow).2 he
  | cycle hname hq hstack hrest ih =>
    refine ih (huntouched.report _) ?_ he
    rw [Resolver.stack_report]
    exact (Mixin.allMentioned_named.1 hbelow).2
  | @taken owner name d rest p p' inherited r r₁ r' hname hq hstack hd hrest ihd ih =>
    obtain ⟨hbelowName, hbelow⟩ := Mixin.allMentioned_named.1 hbelow
    have hdeclared := contains_of_get? hname
    have hfirst : Runs table name [.named name] .empty r _ _ := .taken hname hq hstack hd .nil
    by_cases hcircle : SameCircle table c name
    · -- the name is the first one on the circle
      have hname' := Resolver.entrance_of_grows
        (hd.entered_grows.trans hrest.entered_grows) (huntouched.entrance_enter hcircle)
      cases hname'.symm.trans he
      exact ⟨r, _, _, ⟨huntouched, hcircle, hdeclared, hbelowName hdeclared⟩, hfirst,
        fun m q hm => hrest.done_mono hm⟩
    · cases hinner : r₁.entrance table c with
      | none =>
        refine ih (huntouched.of_runs hfirst hinner) ?_ he
        rwa [hd.stack_leave]
      | some e₁ =>
        -- the circle is entered on the way through the declaration of the name
        cases (Resolver.entrance_of_grows hrest.entered_grows hinner).symm.trans he
        have hbelowInner : Mixin.AllMentioned table (Below table (r.enter name).stack) d.mixins :=
          fun b hb hb' => (hbelowName hdeclared).mixes (allMentioned_mixes hname b hb hb')
        refine (ihd (huntouched.enter hcircle) hbelowInner hinner).of_kept fun m q hm => ?_
        -- the name was still on the stack, so no rules of it had been kept
        have hnone : r₁.done.get? name = none :=
          hd.get?_done_of_mem_stack (List.mem_append_right _ List.mem_cons_self) hq
        have hne : m ≠ name := by
          rintro rfl
          cases hnone.symm.trans hm
        exact hrest.done_mono (by rwa [Resolver.get?_done_leave, if_neg hne])
  | inline hd hrest ihd ih =>
    obtain ⟨hbelowInner, hbelow⟩ := Mixin.allMentioned_inline.1 hbelow
    cases hinner : Resolver.entrance _ table c with
    | none => exact ih (huntouched.of_runs hd hinner) (by rwa [hd.stack_eq]) he
    | some e₁ =>
      cases (Resolver.entrance_of_grows hrest.entered_grows hinner).symm.trans he
      exact (ihd huntouched hbelowInner hinner).of_kept fun m q hm => hrest.done_mono hm
  | transform hrest ih => exact ih huntouched (Mixin.allMentioned_transform.1 hbelow) he

/-! ### Alike on a part of the table -/

/-- Two parts of a table **go together** when mixins lead from the first only to either of them, and
never out of the second, and no name is in both. -/
structure GoTogether (table : RuleTable) (P S : TypeName → Prop) : Prop where
  leads : ∀ x y, P x → Mixes table x y → P y ∨ S y
  stays : ∀ x y, S x → Mixes table x y → S y
  disjoint : ∀ x, P x → ¬ S x

/-- Two states **agree** on a part of a table when they keep the same rules for each of its names
that both have resolved. -/
def Agree (P : TypeName → Prop) (r r' : Resolver) : Prop :=
  ∀ m, P m → ∀ q q', r.done.get? m = some q → r'.done.get? m = some q' → q' = q

/-- States agree if states agree to which runs lead from them. -/
theorem Agree.of_runs {P : TypeName → Prop} (h : Agree P r₀ r₀')
    (hrun : Runs table owner mixins p r p₀ r₀) (hrun' : Runs table owner mixins p' r' p₀' r₀') :
    Agree P r r' :=
  fun m hm q q' hq hq' => h m hm q q' (hrun.done_mono hq) (hrun'.done_mono hq')

/-- States agree before a name of another part has been resolved, if they do so afterwards. -/
theorem Agree.of_leave {P : TypeName → Prop} (h : Agree P (r.leave name p) (r'.leave name p'))
    (hname : ¬ P name) : Agree P r r' := by
  intro m hm q q' hq hq'
  have hne : m ≠ name := fun hne => hname (hne ▸ hm)
  refine h m hm q q' ?_ ?_ <;> rwa [Resolver.get?_done_leave, if_neg hne]

open Classical in
/-- Two states are **alike** on two parts of a table: the same names of the first are on the stack,
have been resolved, and have been taken up in the same order; under a condition they also have the
same rules; and no names of the second are on the stack. -/
structure Alike (P S : TypeName → Prop) (A : Prop) (r r' : Resolver) : Prop where
  stack_iff : ∀ m, P m → (m ∈ r'.stack ↔ m ∈ r.stack)
  unknown_iff : ∀ m, P m → (r'.done.get? m = none ↔ r.done.get? m = none)
  entered_eq : r'.entered.filter (P ·) = r.entered.filter (P ·)
  kept : A → ∀ m, P m → r'.done.get? m = r.done.get? m
  outside : ∀ m, S m → m ∉ r.stack ∧ m ∉ r'.stack

section Lockstep

variable {P S : TypeName → Prop} {A : Prop}

open Classical in
/-- A run through names of the second part takes up none of the first. -/
theorem Runs.filter_entered (h : Runs table owner mixins p r p' r')
    (hparts : GoTogether table P S) (hmixins : Mixin.AllMentioned table S mixins) :
    r'.entered.filter (P ·) = r.entered.filter (P ·) := by
  obtain ⟨names, hnames, hmem⟩ := h.exists_entered hparts.stays hmixins
  have hnone : names.filter (P ·) = [] := by
    refine List.filter_eq_nil_iff.2 fun m hm => ?_
    simpa using fun hP => hparts.disjoint m hP (hmem m hm)
  rw [hnames, List.filter_append, hnone, List.append_nil]

namespace Alike

/-- What is reported makes no difference. -/
theorem report (h : Alike P S A r r') (d d' : Diagnostic) :
    Alike P S A (r.report d) (r'.report d') where
  stack_iff := by
    rw [Resolver.stack_report, Resolver.stack_report]
    exact h.stack_iff
  unknown_iff := by
    rw [Resolver.done_report, Resolver.done_report]
    exact h.unknown_iff
  entered_eq := by
    rw [Resolver.entered_report, Resolver.entered_report]
    exact h.entered_eq
  kept := by
    rw [Resolver.done_report, Resolver.done_report]
    exact h.kept
  outside := by
    rw [Resolver.stack_report, Resolver.stack_report]
    exact h.outside

/-- A name that is not of the second part is taken up in both states. -/
theorem enter (h : Alike P S A r r') (hname : ¬ S name) :
    Alike P S A (r.enter name) (r'.enter name) where
  stack_iff m hm := by
    rw [Resolver.enter, Resolver.enter, List.mem_append, List.mem_append, h.stack_iff m hm]
  unknown_iff := h.unknown_iff
  entered_eq := by
    rw [Resolver.enter, Resolver.enter, List.filter_append, List.filter_append, h.entered_eq]
  kept := h.kept
  outside m hm := by
    have hne : m ∉ [name] := fun hmem => hname (List.mem_singleton.1 hmem ▸ hm)
    have hout := h.outside m hm
    exact ⟨fun hmem => (List.mem_append.1 hmem).elim hout.1 hne,
      fun hmem => (List.mem_append.1 hmem).elim hout.2 hne⟩

/-- A name has been resolved in both states, whose stacks are then those of states alike. -/
theorem leave (h : Alike P S A r r') (h₀ : Alike P S A r₀ r₀')
    (hstack : (r₀.leave name p).stack = r.stack) (hstack' : (r₀'.leave name p').stack = r'.stack)
    (hrules : A → p' = p) : Alike P S A (r₀.leave name p) (r₀'.leave name p') where
  stack_iff := by
    rw [hstack, hstack']
    exact h.stack_iff
  unknown_iff m hm := by
    rw [Resolver.get?_done_leave, Resolver.get?_done_leave]
    split
    · simp
    · exact h₀.unknown_iff m hm
  entered_eq := h₀.entered_eq
  kept hA m hm := by
    rw [Resolver.get?_done_leave, Resolver.get?_done_leave, h₀.kept hA m hm, hrules hA]
  outside := by
    rw [hstack, hstack']
    exact h.outside

/-- **Runs through names of the second part** lead from states alike to states alike. -/
theorem of_runs {owner' : TypeName} {mixins' : List Mixin} (h : Alike P S A r r')
    (hparts : GoTogether table P S) (hmixins : Mixin.AllMentioned table S mixins)
    (hmixins' : Mixin.AllMentioned table S mixins') (hrun : Runs table owner mixins p r p₀ r₀)
    (hrun' : Runs table owner' mixins' p' r' p₀' r₀') : Alike P S A r₀ r₀' where
  stack_iff := by
    rw [hrun.stack_eq, hrun'.stack_eq]
    exact h.stack_iff
  unknown_iff m hm := by
    rw [hrun.get?_done_of_not_mem hparts.stays hmixins (hparts.disjoint m hm),
      hrun'.get?_done_of_not_mem hparts.stays hmixins' (hparts.disjoint m hm)]
    exact h.unknown_iff m hm
  entered_eq := by
    rw [hrun.filter_entered hparts hmixins, hrun'.filter_entered hparts hmixins']
    exact h.entered_eq
  kept hA m hm := by
    rw [hrun.get?_done_of_not_mem hparts.stays hmixins (hparts.disjoint m hm),
      hrun'.get?_done_of_not_mem hparts.stays hmixins' (hparts.disjoint m hm)]
    exact h.kept hA m hm
  outside := by
    rw [hrun.stack_eq, hrun'.stack_eq]
    exact h.outside

/-- **Going through a name of the second part** leads to states alike, and adds the same rules if
the states agree then. -/
theorem passOver (h : Alike P S A r r') (hparts : GoTogether table P S)
    (hname : table.contains name = true) (hmem : S name)
    (hrun : Runs table owner [.named name] p r p₀ r₀)
    (hrun' : Runs table owner [.named name] p' r' p₀' r₀') :
    Alike P S A r₀ r₀' ∧ (Agree S r₀ r₀' → p' = p → p₀' = p₀) := by
  have hmixins : Mixin.AllMentioned table S [.named name] := Mixin.allMentioned_singleton hmem
  refine ⟨h.of_runs hparts hmixins hmixins hrun hrun', fun hagree hp => ?_⟩
  obtain ⟨hstack, hstack'⟩ := h.outside name hmem
  obtain ⟨q, rfl, hq⟩ := hrun.of_named hname hstack
  obtain ⟨q', rfl, hq'⟩ := hrun'.of_named hname hstack'
  rw [hp, hagree name hmem q q' hq hq']

/-- States alike have the same entrance to a circle of the first part. -/
theorem entrance_eq (h : Alike P S A r r') (hP : ∀ m, SameCircle table c m → P m) :
    r'.entrance table c = r.entrance table c := by
  classical
  have hfilter (r : Resolver) :
      (r.entered.filter (P ·)).find? (SameCircle table c ·) = r.entrance table c := by
    rw [List.find?_filter, Resolver.entrance]
    congr 1
    funext m
    rw [decide_eq_decide, decide_eq_true_eq, decide_eq_true_eq]
    exact and_iff_right_of_imp (hP m)
  rw [← hfilter, ← hfilter, h.entered_eq]

end Alike

/-- **Runs through the same mixins go the same way** on a part of a table; and they find the same
rules there, if in the end they agree on the part to which it leads. -/
theorem Runs.alike (hparts : GoTogether table P S) (h : Runs table owner mixins p r p₀ r₀)
    (h' : Runs table owner mixins p' r' p₀' r₀') (halike : Alike P S A r r')
    (hmixins : Mixin.AllMentioned table (fun b => P b ∨ S b) mixins)
    (hagree : A → Agree S r₀ r₀') : Alike P S A r₀ r₀' ∧ (A → p' = p → p₀' = p₀) := by
  induction h generalizing p' r' p₀' r₀' with
  | nil =>
    cases h'
    exact ⟨halike, fun _ hp => hp⟩
  | undeclared hname hrest ih =>
    obtain ⟨p₁', r₁', hfirst', hrest'⟩ := h'.first
    obtain ⟨rfl, rfl⟩ := hfirst'.unique (.undeclared hname .nil)
    exact ih hrest' (halike.report _ _) (Mixin.allMentioned_named.1 hmixins).2 hagree
  | @known owner name rest p p₀ q r r₀ hname hq hrest ih =>
    obtain ⟨hmem, hmixins⟩ := Mixin.allMentioned_named.1 hmixins
    obtain ⟨p₁', r₁', hfirst', hrest'⟩ := h'.first
    obtain hmem | hmem := hmem hname
    · -- the name has been resolved in the other state too
      cases hq' : r'.done.get? name with
      | none => cases hq.symm.trans ((halike.unknown_iff name hmem).1 hq')
      | some q' =>
        obtain ⟨rfl, rfl⟩ := hfirst'.unique (.known hname hq' .nil)
        obtain ⟨halike', hrules⟩ := ih hrest' halike hmixins hagree
        refine ⟨halike', fun hA hp => hrules hA ?_⟩
        rw [halike.kept hA name hmem, hq] at hq'
        cases hq'
        rw [hp]
    · -- a name of the second part may have been resolved in one of the states alone
      obtain ⟨halike₁, hrules₁⟩ :=
        halike.passOver hparts hname hmem (.known hname hq .nil) hfirst'
      obtain ⟨halike', hrules⟩ := ih hrest' halike₁ hmixins hagree
      exact ⟨halike', fun hA hp => hrules hA (hrules₁ ((hagree hA).of_runs hrest hrest') hp)⟩
  | @cycle owner name rest p p₀ r r₀ hname hq hstack hrest ih =>
    obtain ⟨hmem, hmixins⟩ := Mixin.allMentioned_named.1 hmixins
    obtain ⟨p₁', r₁', hfirst', hrest'⟩ := h'.first
    -- the name is on the stack, and so it is of the first part and on the stack of the other state
    have hmem : P name :=
      (hmem hname).resolve_right fun hmem => (halike.outside name hmem).1 hstack
    obtain ⟨rfl, rfl⟩ := hfirst'.unique (.cycle hname ((halike.unknown_iff name hmem).2 hq)
      ((halike.stack_iff name hmem).2 hstack) .nil)
    exact ih hrest' (halike.report _ _) hmixins hagree
  | @taken owner name d rest p p₀ inherited r r₁ r₀ hname hq hstack hd hrest ihd ih =>
    obtain ⟨hmem, hmixins⟩ := Mixin.allMentioned_named.1 hmixins
    obtain ⟨p₁', r₁', hfirst', hrest'⟩ := h'.first
    have hdeclared := contains_of_get? hname
    obtain hmem | hmem := hmem hdeclared
    · -- the name is taken up in the other state too
      cases hfirst' with
      | undeclared hname' _ => rw [hdeclared] at hname'; cases hname'
      | known _ hq' _ => cases hq'.symm.trans ((halike.unknown_iff name hmem).2 hq)
      | cycle _ _ hstack' _ => exact absurd ((halike.stack_iff name hmem).1 hstack') hstack
      | taken hname' _ _ hd' hnil =>
        cases hname.symm.trans hname'
        cases hnil
        have hinner : Mixin.AllMentioned table (fun b => P b ∨ S b) d.mixins :=
          fun b hb hb' => hparts.leads name b hmem (allMentioned_mixes hname b hb hb')
        have hagree₁ : A → Agree S r₁ _ := fun hA =>
          ((hagree hA).of_runs hrest hrest').of_leave (hparts.disjoint name hmem)
        obtain ⟨halike₁, hrules₁⟩ :=
          ihd hd' (halike.enter (hparts.disjoint name hmem)) hinner hagree₁
        obtain ⟨halike', hrules⟩ := ih hrest' (halike.leave halike₁ (hd.stack_leave _)
          (hd'.stack_leave _) fun hA => by rw [hrules₁ hA rfl]) hmixins hagree
        exact ⟨halike', fun hA hp => hrules hA (by rw [hp, hrules₁ hA rfl])⟩
    · -- and so it need not be taken up in the other state
      obtain ⟨halike₁, hrules₁⟩ :=
        halike.passOver hparts hdeclared hmem (.taken hname hq hstack hd .nil) hfirst'
      obtain ⟨halike', hrules⟩ := ih hrest' halike₁ hmixins hagree
      exact ⟨halike', fun hA hp => hrules hA (hrules₁ ((hagree hA).of_runs hrest hrest') hp)⟩
  | inline hd hrest ihd ih =>
    obtain ⟨hinner, hmixins⟩ := Mixin.allMentioned_inline.1 hmixins
    cases h' with
    | inline hd' hrest' =>
      obtain ⟨halike₁, hrules₁⟩ :=
        ihd hd' halike hinner fun hA => (hagree hA).of_runs hrest hrest'
      obtain ⟨halike', hrules⟩ := ih hrest' halike₁ hmixins hagree
      exact ⟨halike', fun hA hp => hrules hA (by rw [hp, hrules₁ hA rfl])⟩
  | transform hrest ih =>
    cases h' with
    | transform hrest' =>
      obtain ⟨halike', hrules⟩ :=
        ih hrest' halike (Mixin.allMentioned_transform.1 hmixins) hagree
      exact ⟨halike', fun hA hp => hrules hA (by rw [hp])⟩

end Lockstep

/-! ### What the rules depend on -/

/-- A circle goes together with what is behind it. -/
theorem goTogether_circle (table : RuleTable) (c : TypeName) :
    GoTogether table (SameCircle table c) (BehindCircle table c) where
  leads x y hx hxy := by
    by_cases hyc : ReflTransGen (Mixes table) y c
    · exact .inl ⟨.tail hx.1 hxy, hyc⟩
    · exact .inr ⟨.tail hx.1 hxy, hyc⟩
  stays x y hx hxy := ⟨.tail hx.1 hxy, fun hyc => hx.2 (.head hxy hyc)⟩
  disjoint x hx hx' := hx'.2 hx.2

namespace Enters

/-- **When a circle has been entered, all names on it are resolved.** -/
theorem exists_done (h : Enters table c e r) (hrun : Runs table owner [.named e] p r p' r')
    (ha : SameCircle table c a) : ∃ q, r'.done.get? a = some q := by
  -- by induction on the way from the entrance, which does not leave the circle
  obtain ⟨hea, hae⟩ := h.sameCircle.symm.trans ha
  induction hea with
  | refl =>
    exact hrun.exists_done List.mem_cons_self h.declared (h.untouched.not_mem_stack h.sameCircle)
  | @tail x y hex hxy ih =>
    have hxe : ReflTransGen (Mixes table) x e := .head hxy hae
    obtain ⟨q, hq⟩ := ih (h.sameCircle.trans ⟨hex, hxe⟩) hxe
    refine (hrun.settled h.untouched.settled x y q hq hxy).resolve_left fun hmem => ?_
    rw [hrun.stack_eq] at hmem
    exact h.untouched.not_mem_stack ha hmem

/-- States in which a name enters a circle are alike there. -/
theorem alike (h : Enters table c e r) (h' : Enters table c e r') (A : Prop) :
    Alike (SameCircle table c) (BehindCircle table c) A r r' where
  stack_iff m hm := iff_of_false (h'.untouched.not_mem_stack hm) (h.untouched.not_mem_stack hm)
  unknown_iff m hm := iff_of_true (h'.untouched.get?_done hm) (h.untouched.get?_done hm)
  entered_eq := by
    have hnone := Resolver.entrance_eq_none_iff.1 h.untouched.unentered
    have hnone' := Resolver.entrance_eq_none_iff.1 h'.untouched.unentered
    rw [List.filter_eq_nil_iff.2 (by simpa using hnone'),
      List.filter_eq_nil_iff.2 (by simpa using hnone)]
  kept _ m hm := (h'.untouched.get?_done hm).trans (h.untouched.get?_done hm).symm
  -- a name on the stack leads to the circle, so it is not behind it
  outside m hm :=
    ⟨fun hmem => hm.2 ((h.below m hmem).to_reflTransGen.trans h.sameCircle.2),
      fun hmem => hm.2 ((h'.below m hmem).to_reflTransGen.trans h.sameCircle.2)⟩

end Enters

/-- **What the rules of a name depend on**: resolutions that enter the circles to which the name
leads at the same names keep the same rules for it, whatever names they resolve, and in which
order. -/
theorem Runs.agree_of_entrance (h : Runs table owner mixins p {} p₀ r₀)
    {owner' : TypeName} {mixins' : List Mixin} (h' : Runs table owner' mixins' p' {} p₀' r₀')
    (c : TypeName) (hentrance : ∀ m, ReflTransGen (Mixes table) c m →
      TransGen (Mixes table) m m → r₀'.entrance table m = r₀.entrance table m)
    {q q' : PartialRules} (hq : r₀.done.get? c = some q) (hq' : r₀'.done.get? c = some q') :
    q' = q := by
  -- by induction on what is behind the circle of the name
  induction c using behindCircle_induction table generalizing q q' with
  | h c ih =>
    have hmem : c ∈ r₀.entered := h.tracks .start c (.inr ⟨q, hq⟩)
    have hmem' : c ∈ r₀'.entered := h'.tracks .start c (.inr ⟨q', hq'⟩)
    -- the two enter the circle at the same name, which is the name itself if it is on none
    obtain ⟨e, he⟩ := Resolver.exists_entrance table hmem
    have he' : r₀'.entrance table c = some e := by
      by_cases hcircle : TransGen (Mixes table) c c
      · rw [hentrance c .refl hcircle, he]
      · rw [Resolver.entrance_of_not_circle hcircle hmem', ← he,
          Resolver.entrance_of_not_circle hcircle hmem]
    obtain ⟨s, p₁, s₁, hs, hrun, hkept⟩ := h.enteredAt .start below_nil he
    obtain ⟨s', p₁', s₁', hs', hrun', hkept'⟩ := h'.enteredAt .start below_nil he'
    -- they go the same way from there, since they agree on what is behind the circle
    obtain ⟨halike, -⟩ := hrun.alike (goTogether_circle table c) hrun' (hs.alike hs' True)
      (Mixin.allMentioned_singleton (.inl hs.sameCircle)) fun _ m hm k k' hk hk' =>
        ih m hm (fun x hmx hx => hentrance x (hm.1.trans hmx) hx) (hkept m k hk) (hkept' m k' hk')
    obtain ⟨k, hk⟩ := hs.exists_done hrun (.refl table c)
    have hk' := (halike.kept trivial c (.refl table c)).trans hk
    rw [hkept c k hk, Option.some.injEq] at hq
    rw [hkept' c k hk', Option.some.injEq] at hq'
    exact hq'.symm.trans hq

end ObjectMapping
