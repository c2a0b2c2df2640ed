import ObjectMapping.Proofs.Rules.Circles

/-! # Adding a declaration

A table gets a declaration for a name that is not used in it. Does the name make a difference to the
rules of the others? It can, where mixins lead round in a circle: which of the names on a circle
goes without the others depends on where the circle is entered, and the new name may enter it
elsewhere (`circle_entered_elsewhere`). In no other way does it make a difference.

* **`Unused.entrance_of_lead`** — a circle to which a name before the new one leads is entered where
  it was entered before.
* **`Unused.entrance_of_apart`** — so is a circle to which the new name does not lead.
* **`resolve_insert`** — the rules of a declared name are the same with the new declaration, if each
  circle to which both lead is entered at the same name. -/

namespace ObjectMapping

open Relation

variable {table : RuleTable}

/-! ### The names of the larger table -/

namespace Unused

variable {a x y : TypeName} {d : Declaration}

/-- A declared name is another one. -/
theorem ne_of_contains (ha : Unused table a) (hx : table.contains x = true) : x ≠ a := by
  rintro rfl
  rw [SortedMap.contains_eq_false_iff.2 ha.undeclared] at hx
  cases hx

/-- In the larger table a name of the old one mixes in what it mixes in there, and never the new
name. -/
theorem mixes_insert (ha : Unused table a) (h : Mixes (table.insert a d) x y) (hx : x ≠ a) :
    Mixes table x y ∧ y ≠ a := by
  obtain ⟨e, he, hmem, hdeclared⟩ := h
  rw [SortedMap.get?_insert, if_neg hx] at he
  have hy : y ≠ a := by
    rintro rfl
    exact ha.unmentioned x e he hmem
  rw [SortedMap.contains, SortedMap.get?_insert, if_neg hy] at hdeclared
  exact ⟨⟨e, he, hmem, hdeclared⟩, hy⟩

/-- In the larger table a name mixes in what it mixed in before. -/
theorem mixes_of_mixes (ha : Unused table a) (h : Mixes table x y) :
    Mixes (table.insert a d) x y := by
  obtain ⟨e, he, hmem, hdeclared⟩ := h
  refine ⟨e, ?_, hmem, ?_⟩
  · rw [SortedMap.get?_insert, if_neg (ha.ne_of_contains (contains_of_get? he))]
    exact he
  · rw [SortedMap.contains, SortedMap.get?_insert, if_neg (ha.ne_of_contains hdeclared)]
    exact hdeclared

/-- In the larger table mixins lead from a name of the old one only where they led before. -/
theorem transGen_insert (ha : Unused table a) (h : TransGen (Mixes (table.insert a d)) x y)
    (hx : x ≠ a) : TransGen (Mixes table) x y ∧ y ≠ a := by
  induction h with
  | single hmixes =>
    obtain ⟨hmixes, hy⟩ := ha.mixes_insert hmixes hx
    exact ⟨.single hmixes, hy⟩
  | tail _ hmixes ih =>
    obtain ⟨hlead, hmid⟩ := ih
    obtain ⟨hmixes, hy⟩ := ha.mixes_insert hmixes hmid
    exact ⟨.tail hlead hmixes, hy⟩

/-- The same, for a path that may be empty. -/
theorem reflTransGen_insert (ha : Unused table a)
    (h : ReflTransGen (Mixes (table.insert a d)) x y) (hx : x ≠ a) :
    ReflTransGen (Mixes table) x y ∧ y ≠ a := by
  obtain rfl | h := reflTransGen_iff_eq_or_transGen.1 h
  · exact ⟨.refl, hx⟩
  · obtain ⟨h, hy⟩ := ha.transGen_insert h hx
    exact ⟨h.to_reflTransGen, hy⟩

/-- From the new name mixins lead to what its declaration names, and from there where they led
before. -/
theorem reach_insert (ha : Unused table a) (h : ReflTransGen (Mixes (table.insert a d)) a y) :
    y = a ∨ ∃ b ∈ d.mentioned, ReflTransGen (Mixes table) b y := by
  induction h with
  | refl => exact .inl rfl
  | @tail y z _ hmixes ih =>
    by_cases hy : y = a
    · obtain ⟨e, he, hmem, -⟩ := hmixes
      rw [SortedMap.get?_insert, if_pos hy, Option.some.injEq] at he
      subst he
      exact .inr ⟨z, hmem, .refl⟩
    · obtain ⟨b, hb, hlead⟩ := ih.resolve_left hy
      exact .inr ⟨b, hb, .tail hlead (ha.mixes_insert hmixes hy).1⟩

/-- The circle of a name of the old table is the same in the larger one. -/
theorem sameCircle_insert (ha : Unused table a) (hx : x ≠ a) :
    SameCircle (table.insert a d) x y ↔ SameCircle table x y := by
  constructor
  · rintro ⟨hxy, hyx⟩
    obtain ⟨hxy, hy⟩ := ha.reflTransGen_insert hxy hx
    exact ⟨hxy, (ha.reflTransGen_insert hyx hy).1⟩
  · rintro ⟨hxy, hyx⟩
    exact ⟨ReflTransGen.mono (fun _ _ => ha.mixes_of_mixes) _ _ hxy,
      ReflTransGen.mono (fun _ _ => ha.mixes_of_mixes) _ _ hyx⟩

/-- And so is the entrance to it. -/
theorem entrance_insert (ha : Unused table a) (hx : x ≠ a) (r : Resolver) :
    r.entrance (table.insert a d) x = r.entrance table x :=
  Resolver.entrance_congr (fun _ => ha.sameCircle_insert hx) r

end Unused

/-! ### The two resolutions -/

/-- **The two resolutions side by side**: up to the place of the new name they are one run; then the
larger table resolves the new name; and then both go through the same names in the larger table. -/
theorem Unused.exists_runs {a : TypeName} (ha : Unused table a) (d : Declaration) :
    ∃ before after r₀ r₁ p₀ p₁ p₂ p₃, table.keys = before ++ after ∧ (∀ m ∈ after, ¬ m < a) ∧
      r₀.stack = [] ∧ Runs table a (before.map .named) .empty {} p₀ r₀ ∧
      Runs (table.insert a d) a [.named a] .empty r₀ p₁ r₁ ∧
      Runs (table.insert a d) a (after.map .named) .empty r₀ p₂ (Resolver.run table) ∧
      Runs (table.insert a d) a (after.map .named) .empty r₁ p₃
        (Resolver.run (table.insert a d)) := by
  obtain ⟨before, after, hkeys, hkeys', hafter⟩ := SortedMap.keys_insert ha.undeclared d
  have hold : ∀ m ∈ before ++ after, table.contains m = true := by
    rw [← hkeys]
    exact fun m hm => SortedMap.contains_iff_mem_keys.2 hm
  have hnew : ∀ m ∈ before ++ a :: after, (table.insert a d).contains m = true := by
    rw [← hkeys']
    exact fun m hm => SortedMap.contains_iff_mem_keys.2 hm
  have hne : ∀ m ∈ before ++ after, a ≠ m := fun m hm => (ha.ne_of_contains (hold m hm)).symm
  have hunnamed : ∀ names : List TypeName, (∀ m ∈ names, a ≠ m) →
      a ∉ Mixin.mentionedIn (names.map .named) :=
    fun names h hmem => h a (Mixin.mem_mentionedIn_map_named.1 hmem) rfl
  have resolveAll_append : ∀ (table : RuleTable) (xs ys : List TypeName) (r : Resolver),
      Resolver.resolveAll table (xs ++ ys) r =
        Resolver.resolveAll table ys (Resolver.resolveAll table xs r) :=
    fun table xs ys r => List.foldl_append
  -- before the place of the new name
  obtain ⟨p₀, hbefore⟩ := Runs.names a before
    (fun m hm => hold m (List.mem_append_left _ hm)) .empty (r := {}) rfl
  obtain ⟨q₀, hbefore'⟩ := Runs.names a before
    (fun m hm => hnew m (List.mem_append_left _ hm)) .empty (r := {}) rfl
  obtain ⟨-, hstate⟩ := (hbefore.insert ha
    (hunnamed before fun m hm => hne m (List.mem_append_left _ hm))).unique hbefore'
  -- the new name, and what comes after it
  have hstack : (Resolver.resolveAll table before {}).stack = [] := hbefore.stack_eq
  obtain ⟨p₁, hmid⟩ := Runs.names a [a]
    (fun m hm => hnew m (by rw [List.mem_singleton.1 hm]; simp)) .empty hstack
  obtain ⟨p₂, hlast⟩ := Runs.names a after
    (fun m hm => hold m (List.mem_append_right _ hm)) .empty hstack
  obtain ⟨p₃, hlast'⟩ := Runs.names a after
    (fun m hm => hnew m (by simp [hm])) .empty (hmid.stack_eq.trans hstack)
  refine ⟨before, after, _, _, p₀, p₁, p₂, p₃, hkeys, hafter, hstack, hbefore, hmid, ?_, ?_⟩
  · rw [Resolver.run, hkeys, resolveAll_append]
    exact hlast.insert ha (hunnamed after fun m hm => hne m (List.mem_append_right _ hm))
  · rw [Resolver.run, hkeys', List.append_cons, resolveAll_append, resolveAll_append,
      ← hstate]
    exact hlast'

/-! ### Where circles are entered -/

namespace Unused

variable {a m c : TypeName} {d : Declaration}

/-- **A circle to which a name before the new one leads is entered where it was entered before**,
since it is entered before the new name is resolved. -/
theorem entrance_of_lead (ha : Unused table a) (d : Declaration) (hlt : m < a)
    (hm : table.contains m = true) (hlead : ReflTransGen (Mixes table) m c) :
    (Resolver.run (table.insert a d)).entrance table c = (Resolver.run table).entrance table c := by
  obtain ⟨before, after, r₀, r₁, p₀, p₁, p₂, p₃, hkeys, hafter, hstack, hbefore, hmid, hlast,
    hlast'⟩ := ha.exists_runs d
  have hmem : m ∈ before := by
    have hmem := SortedMap.contains_iff_mem_keys.1 hm
    rw [hkeys, List.mem_append] at hmem
    exact hmem.resolve_right fun hmem => hafter m hmem hlt
  -- by then all that the name leads to has been resolved
  have hdone : ∃ q, r₀.done.get? c = some q :=
    (hbefore.settled settled_start).exists_done hstack
      (hbefore.exists_done (List.mem_map_of_mem hmem) hm List.not_mem_nil) hlead
  obtain ⟨e, he⟩ := Resolver.exists_entrance table (hbefore.tracks .start c (.inr hdone))
  rw [Resolver.entrance_of_grows hlast.entered_grows he,
    Resolver.entrance_of_grows (hmid.entered_grows.trans hlast'.entered_grows) he]

/-- **A circle to which the new name does not lead is entered where it was entered before**, since
the two resolutions go the same way through all names that lead there. -/
theorem entrance_of_apart (ha : Unused table a) (hc : c ≠ a)
    (hapart : ∀ b ∈ d.mentioned, ¬ ReflTransGen (Mixes table) b c) :
    (Resolver.run (table.insert a d)).entrance table c = (Resolver.run table).entrance table c := by
  obtain ⟨before, after, r₀, r₁, p₀, p₁, p₂, p₃, -, -, hstack, -, hmid, hlast, hlast'⟩ :=
    ha.exists_runs d
  -- the part of the table that leads to the circle, and all the rest
  let Leads : TypeName → Prop := fun m => ReflTransGen (Mixes (table.insert a d)) m c
  have hparts : GoTogether (table.insert a d) Leads fun m => ¬ Leads m :=
    ⟨fun x y _ _ => em _, fun x y hx hxy hy => hx (.head hxy hy), fun x hx hx' => hx' hx⟩
  have hnew : ¬ Leads a := by
    intro hac
    obtain hca | ⟨b, hb, hbc⟩ := ha.reach_insert hac
    · exact hc hca
    · exact hapart b hb hbc
  -- the run of the new name stays outside that part, whatever rules it finds
  have hsame : Alike Leads (fun m => ¬ Leads m) False r₀ r₀ := by
    refine ⟨fun _ _ => Iff.rfl, fun _ _ => Iff.rfl, rfl, fun _ _ _ => rfl, fun m _ => ?_⟩
    rw [hstack]
    exact ⟨List.not_mem_nil, List.not_mem_nil⟩
  have hmid := hsame.of_runs hparts (fun b hb => by cases hb)
    (Mixin.allMentioned_singleton hnew) (.nil : Runs _ a [] .empty r₀ _ _) hmid
  obtain ⟨halike, -⟩ := hlast.alike hparts hlast' hmid (fun b _ _ => em (Leads b)) False.elim
  rw [← ha.entrance_insert hc, ← ha.entrance_insert hc]
  exact halike.entrance_eq fun m hm => hm.2

end Unused

/-- **A new declaration leaves the rules of the others alone**, as far as it can. A table gets a
declaration for a name that is not used in it. A declared name keeps its rules unless the new name
makes a circle that concerns it be entered elsewhere. That is, it keeps them if each circle to which
both the name and the new declaration lead is one to which also a name before the new one leads, or
is entered at the same name in the two resolutions. -/
theorem resolve_insert {a n : TypeName} {d : Declaration} (ha : Unused table a)
    (hn : table.contains n = true)
    (hentered : ∀ b ∈ d.mentioned, ∀ c, ReflTransGen (Mixes table) b c →
      ReflTransGen (Mixes table) n c → TransGen (Mixes table) c c →
        (∃ m, m < a ∧ ReflTransGen (Mixes table) m c) ∨
          (Resolver.run (table.insert a d)).entrance table c =
            (Resolver.run table).entrance table c)
    (forbidden : Forbidden) :
    (RuleBook.ofTable (table.insert a d) forbidden).resolve n =
      (RuleBook.ofTable table forbidden).resolve n := by
  suffices hdone : (Resolver.run (table.insert a d)).done.get? n =
      (Resolver.run table).done.get? n by
    unfold RuleBook.resolve RuleBook.ofTable
    rw [hdone]
  have hne := ha.ne_of_contains hn
  have hdeclared : (table.insert a d).contains n = true := by
    rw [SortedMap.contains, SortedMap.get?_insert, if_neg hne]
    exact hn
  -- all circles to which the name leads are entered at the same names
  have hentrance : ∀ c, ReflTransGen (Mixes (table.insert a d)) n c →
      TransGen (Mixes (table.insert a d)) c c →
        (Resolver.run (table.insert a d)).entrance (table.insert a d) c =
          (Resolver.run table).entrance (table.insert a d) c := by
    intro c hnc hcircle
    obtain ⟨hnc, hc⟩ := ha.reflTransGen_insert hnc hne
    obtain ⟨hcircle, -⟩ := ha.transGen_insert hcircle hc
    rw [ha.entrance_insert hc, ha.entrance_insert hc]
    by_cases hlead : ∃ b ∈ d.mentioned, ReflTransGen (Mixes table) b c
    · obtain ⟨b, hb, hbc⟩ := hlead
      obtain ⟨m, hlt, hmc⟩ | hsame := hentered b hb c hbc hnc hcircle
      · have hm : table.contains m = true := by
          obtain ⟨x, ⟨e, he, -, -⟩, -⟩ := TransGen.head'_iff.1 (hcircle.trans_right hmc)
          exact contains_of_get? he
        exact ha.entrance_of_lead d hlt hm hmc
      · exact hsame
    · exact ha.entrance_of_apart hc fun b hb hbc => hlead ⟨b, hb, hbc⟩
  -- the smaller table is resolved in the larger one by the same run
  obtain ⟨p₀, hrun⟩ := Runs.run table a
  have hrun := hrun.insert (e := d) ha fun hmem => ha.ne_of_contains
    (SortedMap.contains_iff_mem_keys.2 (Mixin.mem_mentionedIn_map_named.1 hmem)) rfl
  obtain ⟨p₁, hrun'⟩ := Runs.run (table.insert a d) a
  obtain ⟨q, hq⟩ := exists_done_run hn
  obtain ⟨q', hq'⟩ := exists_done_run hdeclared
  rw [hq, hq', hrun.agree_of_entrance hrun' n hentrance hq hq']

/-- A name that no entry of a table is for and no entry names is unused. -/
theorem Unused.of_entries {a : TypeName}
    (h : ∀ e ∈ table.toList, e.1 ≠ a ∧ a ∉ e.2.mentioned) : Unused table a where
  undeclared := by
    refine SortedMap.find?_eq_none_iff.2 fun hmem => ?_
    obtain ⟨e, he, rfl⟩ := List.mem_map.1 hmem
    exact (h e he).1 rfl
  unmentioned := fun name d hd => (h (name, d) (SortedMap.mem_of_find?_eq_some hd)).2

/-- Two circles and a name that mixes in both. A name before the new one leads to the first of them;
to the second no such name leads, but the new name enters it where it was entered before. The name
that mixes in both keeps its rules. -/
theorem resolve_insert_behind_circles : ∃ (table : RuleTable) (d : Declaration),
    Unused table ⟨"A1"⟩ ∧ Mixes table ⟨"C"⟩ ⟨"D"⟩ ∧ Mixes table ⟨"D"⟩ ⟨"C"⟩ ∧
      Mixes table ⟨"G"⟩ ⟨"H"⟩ ∧ Mixes table ⟨"H"⟩ ⟨"G"⟩ ∧ Mixes table ⟨"B"⟩ ⟨"C"⟩ ∧
      Mixes table ⟨"B"⟩ ⟨"G"⟩ ∧ d.mentioned = [⟨"C"⟩, ⟨"G"⟩] ∧
      (∀ m, m < ⟨"A1"⟩ → ¬ ReflTransGen (Mixes table) m ⟨"G"⟩) ∧
      ∀ forbidden, (RuleBook.ofTable (table.insert ⟨"A1"⟩ d) forbidden).resolve ⟨"B"⟩ =
        (RuleBook.ofTable table forbidden).resolve ⟨"B"⟩ := by
  let table : RuleTable := .ofList
    [(⟨"A0"⟩, .mk [.named ⟨"C"⟩] ∅ none), (⟨"B"⟩, .mk [.named ⟨"C"⟩, .named ⟨"G"⟩] ∅ none),
      (⟨"C"⟩, .mk [.named ⟨"D"⟩] ∅ none), (⟨"D"⟩, .mk [.named ⟨"C"⟩] ∅ (some true)),
      (⟨"G"⟩, .mk [.named ⟨"H"⟩] ∅ none), (⟨"H"⟩, .mk [.named ⟨"G"⟩] ∅ (some false))]
  let d : Declaration := .mk [.named ⟨"C"⟩, .named ⟨"G"⟩] ∅ none
  have hunused : Unused table ⟨"A1"⟩ := .of_entries (by decide)
  have mixes_gh : Mixes table ⟨"G"⟩ ⟨"H"⟩ := by decide +kernel
  have mixes_hg : Mixes table ⟨"H"⟩ ⟨"G"⟩ := by decide +kernel
  have mixes_ac : Mixes table ⟨"A0"⟩ ⟨"C"⟩ := by decide +kernel
  have hapart : ∀ m, m < ⟨"A1"⟩ → ¬ ReflTransGen (Mixes table) m ⟨"G"⟩ := by
    intro m hlt hlead
    obtain rfl | ⟨x, ⟨e, he, -, -⟩, -⟩ := hlead.cases_head
    · exact absurd hlt (by decide)
    · have hfirst : ∀ m ∈ table.keys, m < ⟨"A1"⟩ → m = ⟨"A0"⟩ := by decide
      obtain rfl := hfirst m (SortedMap.contains_iff_mem_keys.1 (contains_of_get? he)) hlt
      have hstays : ∀ x ∈ [⟨"A0"⟩, ⟨"C"⟩, ⟨"D"⟩],
          ∀ y ∈ (table.get? x).elim [] Declaration.mentioned, y ∈ [⟨"A0"⟩, ⟨"C"⟩, ⟨"D"⟩] := by
        decide
      exact absurd (mem_of_reach hstays List.mem_cons_self hlead) (by decide)
  -- the second circle is entered at the same name
  have hentrance : ∀ c, ReflTransGen (Mixes table) ⟨"G"⟩ c →
      (Resolver.run (table.insert ⟨"A1"⟩ d)).entrance table c =
        (Resolver.run table).entrance table c := by
    intro c hgc
    have hstays : ∀ x ∈ [⟨"G"⟩, ⟨"H"⟩],
        ∀ y ∈ (table.get? x).elim [] Declaration.mentioned, y ∈ [⟨"G"⟩, ⟨"H"⟩] := by
      decide
    have hcircle : SameCircle table c ⟨"G"⟩ := by
      refine ⟨?_, hgc⟩
      obtain rfl | hc := List.mem_cons.1 (mem_of_reach hstays List.mem_cons_self hgc)
      · exact .refl
      · obtain rfl := List.mem_singleton.1 hc
        exact .single mixes_hg
    have hothers : ∀ names : List TypeName, (∀ m ∈ names, m ∉ [⟨"G"⟩, ⟨"H"⟩]) →
        ∀ m ∈ names, ¬ SameCircle table c m :=
      fun names hnames m hm hsame =>
        hnames m hm (mem_of_reach hstays List.mem_cons_self (hgc.trans hsame.1))
    have hold : (Resolver.run table).entered =
        [⟨"A0"⟩, ⟨"C"⟩, ⟨"D"⟩, ⟨"B"⟩] ++ ⟨"G"⟩ :: [⟨"H"⟩] := by decide +kernel
    have hnew : (Resolver.run (table.insert ⟨"A1"⟩ d)).entered =
        [⟨"A0"⟩, ⟨"C"⟩, ⟨"D"⟩, ⟨"A1"⟩] ++ ⟨"G"⟩ :: [⟨"H"⟩, ⟨"B"⟩] := by decide +kernel
    rw [Resolver.entrance_eq_some hold hcircle (hothers _ (by decide)),
      Resolver.entrance_eq_some hnew hcircle (hothers _ (by decide))]
  have hb : table.contains ⟨"B"⟩ = true := by decide +kernel
  refine ⟨table, d, hunused, by decide +kernel, by decide +kernel, mixes_gh, mixes_hg,
    by decide +kernel, by decide +kernel, rfl, hapart, fun forbidden =>
      resolve_insert hunused hb (fun b hb c hbc _ _ => ?_) forbidden⟩
  obtain rfl | hb := List.mem_cons.1 hb
  · exact .inl ⟨⟨"A0"⟩, by decide, .head mixes_ac hbc⟩
  · obtain rfl := List.mem_singleton.1 hb
    exact .inr (hentrance c hbc)

/-- **A new declaration can change the rules of others.** The circle of two names is entered at its
first name, which then has the direction of the second. With a new name before both that mixes in
the second it is entered there, and the first goes without. -/
theorem circle_entered_elsewhere : ¬ ∀ (table : RuleTable) (a n : TypeName) (d : Declaration)
    (forbidden : Forbidden), Unused table a → table.contains n = true →
      (RuleBook.ofTable (table.insert a d) forbidden).resolve n =
        (RuleBook.ofTable table forbidden).resolve n := by
  intro h
  let table : RuleTable := .ofList
    [(⟨"B"⟩, .mk [.named ⟨"C"⟩] ∅ none), (⟨"C"⟩, .mk [.named ⟨"B"⟩] ∅ (some true))]
  have hsame :=
    h table ⟨"A"⟩ ⟨"B"⟩ (.mk [.named ⟨"C"⟩] ∅ none) ⟨[], []⟩ (.of_entries (by decide)) rfl
  have hmega := congrArg RuleSet.mega hsame
  exact absurd hmega (by decide)

end ObjectMapping
