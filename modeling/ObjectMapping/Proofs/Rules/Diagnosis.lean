import ObjectMapping.Proofs.Rules.Locality
import Mathlib.Data.List.Chain

/-! # What is reported of a table

What is wrong with a table is said here of the table alone: mixins lead round in a circle
(`RunsRound`), or a declaration names a mixin that nobody declares (`Lacks`). The resolver finds
this on the way, from the names on its stack and from those that it has resolved. The stack is
always a path of mixins, so the part of it that a name closes is a circle. And a name that is
resolved while no circle is reported mixes in resolved names alone, so no circle can be reached
from it.

* **`Runs.reports_true`** — a run reports only what is wrong with the table.
* **`Runs.reports_lacking`** — a run reports every mixin that a name it resolves lacks.
* **`Runs.grounded_of_not_reported`** — a run that reports no circle resolves grounded names alone.
* **`diagnostics_exact`** — what is reported of a table is just what is wrong with it. -/

namespace ObjectMapping

open Relation

variable {table : RuleTable} {owner name : TypeName} {mixins : List Mixin} {p p' : PartialRules}
  {r r' : Resolver}

/-! ### What can be wrong with a table -/

/-- A declared name **lacks** a mixin that its declaration names and nobody declares. -/
def Lacks (table : RuleTable) (owner mixin : TypeName) : Prop :=
  ∃ d, table.get? owner = some d ∧ mixin ∈ d.mentioned ∧ table.contains mixin = false

/-- Every name in a list of mixins that nobody declares satisfies `P`. -/
def Mixin.AllUnknown (table : RuleTable) (P : TypeName → Prop) (mixins : List Mixin) : Prop :=
  ∀ b ∈ Mixin.mentionedIn mixins, table.contains b = false → P b

namespace Mixin

variable {P : TypeName → Prop} {rest : List Mixin}

/-- A named mixin names itself. -/
theorem allUnknown_named :
    AllUnknown table P (.named name :: rest) ↔
      (table.contains name = false → P name) ∧ AllUnknown table P rest := by
  simp only [AllUnknown, mem_mentionedIn_named, forall_eq_or_imp]

/-- A declared name is not unknown. -/
theorem allUnknown_named_of_declared (hname : table.contains name = true) :
    AllUnknown table P (.named name :: rest) ↔ AllUnknown table P rest := by
  simp [allUnknown_named, hname]

/-- A declaration in place names what its mixins name. -/
theorem allUnknown_inline {d : Declaration} :
    AllUnknown table P (.inline d :: rest) ↔
      AllUnknown table P d.mixins ∧ AllUnknown table P rest := by
  simp only [AllUnknown, mem_mentionedIn_inline, or_imp, forall_and]

/-- A transform names nothing. -/
theorem allUnknown_transform {t : Transform} :
    AllUnknown table P (.transform t :: rest) ↔ AllUnknown table P rest := by
  simp only [AllUnknown, mem_mentionedIn_transform]

end Mixin

/-- What the mixins of a declared name name without a declaration is what it lacks. -/
theorem allUnknown_lacks {d : Declaration} (hd : table.get? name = some d) :
    Mixin.AllUnknown table (Lacks table name) d.mixins :=
  fun _ hb hundeclared => ⟨d, hd, Declaration.mem_mentioned.2 hb, hundeclared⟩

/-- A path **runs round** when it begins and ends with one name, holds no other name twice, and each
name on it mixes in the next. -/
def RunsRound (table : RuleTable) (path : List TypeName) : Prop :=
  ∃ name between, path = name :: between ++ [name] ∧ (name :: between).Nodup ∧
    path.IsChain (Mixes table)

/-- What a problem says is **true** of a table. -/
def Diagnostic.TrueOf (table : RuleTable) : Diagnostic → Prop
  | .unknownMixin owner mixin => Lacks table owner mixin
  | .mixinCycle path => RunsRound table path

/-- Where a path runs round, mixins lead from a name back to itself. -/
theorem RunsRound.exists_circle {path : List TypeName} (h : RunsRound table path) :
    ∃ n, TransGen (Mixes table) n n := by
  obtain ⟨name, between, rfl, -, hlinked⟩ := h
  refine ⟨name, ?_⟩
  cases between with
  | nil => exact .single (List.isChain_pair.1 hlinked)
  | cons next rest =>
    obtain ⟨hnext, hlinked⟩ := List.isChain_cons_cons.1 hlinked
    refine .head' hnext ?_
    have hlast := List.relationReflTransGen_of_exists_isChain _ hlinked (by simp)
    simpa using hlast

/-- A name is grounded if all names that it mixes in are. -/
theorem Grounded.of_mixes (h : ∀ b, Mixes table name b → Grounded table b) :
    Grounded table name := by
  intro m hm hcircle
  obtain rfl | ⟨b, hb, hbm⟩ := hm.cases_head
  · -- a circle through the name itself leads through a name that it mixes in
    obtain ⟨b, hb, hback⟩ := TransGen.head'_iff.1 hcircle
    exact h b hb _ hback hcircle
  · exact h b hb m hbm hcircle

/-! ### Reporting -/

namespace Resolver

/-- What has been reported after one more problem. -/
theorem mem_diagnostics_report {r : Resolver} {d x : Diagnostic} :
    x ∈ (r.report d).diagnostics ↔ x ∈ r.diagnostics ∨ x = d := by
  unfold report
  split
  · next hd =>
    constructor
    · exact .inl
    · rintro (hx | rfl)
      · exact hx
      · exact hd
  · exact List.mem_append.trans (or_congr_right List.mem_singleton)

/-- A problem is not reported twice. -/
theorem nodup_diagnostics_report {r : Resolver} (h : r.diagnostics.Nodup) (d : Diagnostic) :
    (r.report d).diagnostics.Nodup := by
  unfold report
  split
  · exact h
  · next hd =>
    rw [← List.concat_eq_append]
    exact List.Nodup.concat hd h

end Resolver

/-- **A run does nothing to what has been reported but report more**: what each report keeps, the
run keeps. -/
theorem Runs.keeps_of_report {P : List Diagnostic → Prop}
    (hreport : ∀ (r : Resolver) d, P r.diagnostics → P (r.report d).diagnostics)
    (h : Runs table owner mixins p r p' r') (hr : P r.diagnostics) : P r'.diagnostics := by
  induction h with
  | nil => exact hr
  | undeclared hname hrest ih => exact ih (hreport _ _ hr)
  | known hname hq hrest ih => exact ih hr
  | cycle hname hq hstack hrest ih => exact ih (hreport _ _ hr)
  | taken hname hq hstack hd hrest ihd ih => exact ih (ihd hr)
  | inline hd hrest ihd ih => exact ih (ihd hr)
  | transform hrest ih => exact ih hr

/-- What has been reported stays reported. -/
theorem Runs.diagnostics_mono {x : Diagnostic} (h : Runs table owner mixins p r p' r')
    (hx : x ∈ r.diagnostics) : x ∈ r'.diagnostics :=
  h.keeps_of_report (P := (x ∈ ·))
    (fun _ _ hx => Resolver.mem_diagnostics_report.2 (.inl hx)) hx

/-- A run reports no problem twice. -/
theorem Runs.nodup_diagnostics (h : Runs table owner mixins p r p' r')
    (hr : r.diagnostics.Nodup) : r'.diagnostics.Nodup :=
  h.keeps_of_report (fun _ d hr => Resolver.nodup_diagnostics_report hr d) hr

/-! ### Only what is wrong is reported -/

/-- A name **continues** a stack when the stack and the name are a path of mixins. -/
def Continues (table : RuleTable) (stack : List TypeName) (b : TypeName) : Prop :=
  (stack ++ [b]).IsChain (Mixes table)

/-- What a name mixes in continues the stack when the name has been put there. -/
theorem Continues.mixes {stack : List TypeName} {b : TypeName}
    (hname : Continues table stack name) (h : Mixes table name b) :
    Continues table (stack ++ [name]) b := by
  rw [Continues, List.append_assoc, List.singleton_append, List.isChain_split]
  exact ⟨hname, List.isChain_pair.2 h⟩

/-- **A name on the stack that continues it closes a circle**: the path from there runs round. -/
theorem Continues.runsRound (hname : Continues table r.stack name) (hnodup : r.stack.Nodup)
    (hstack : name ∈ r.stack) : RunsRound table (r.cycleThrough name) := by
  obtain ⟨before, between, hsplit, hbefore⟩ := List.eq_append_cons_of_mem hstack
  have hpath : r.cycleThrough name = name :: between ++ [name] := by
    have hskip : ∀ m ∈ before, decide (m ≠ name) = true := by
      rintro m hm
      exact decide_eq_true fun hne => hbefore (hne ▸ hm)
    rw [Resolver.cycleThrough, hsplit, List.dropWhile_append_of_pos hskip,
      List.dropWhile_cons_of_neg (by simp)]
  refine ⟨name, between, hpath, ?_, ?_⟩
  · rw [hsplit] at hnodup
    exact (List.nodup_append.1 hnodup).2.1
  · rw [Continues, hsplit, List.append_assoc] at hname
    rw [hpath]
    exact hname.right_of_append

/-- **A run reports only what is wrong with the table.** It may begin with names on the stack, as
long as they are different and what its mixins name continues them; and what its mixins name without
a declaration is what the owner lacks. -/
theorem Runs.reports_true (h : Runs table owner mixins p r p' r') (hnodup : r.stack.Nodup)
    (hpath : Mixin.AllMentioned table (Continues table r.stack) mixins)
    (hlacks : Mixin.AllUnknown table (Lacks table owner) mixins)
    (htrue : ∀ x ∈ r.diagnostics, x.TrueOf table) : ∀ x ∈ r'.diagnostics, x.TrueOf table := by
  have report_true : ∀ {r : Resolver} {d : Diagnostic}, (∀ x ∈ r.diagnostics, x.TrueOf table) →
      d.TrueOf table → ∀ x ∈ (r.report d).diagnostics, x.TrueOf table := by
    intro r d hr hd x hx
    obtain hx | rfl := Resolver.mem_diagnostics_report.1 hx
    · exact hr x hx
    · exact hd
  induction h with
  | nil => exact htrue
  | undeclared hname hrest ih =>
    obtain ⟨hlacksName, hlacks⟩ := Mixin.allUnknown_named.1 hlacks
    have hpath := (Mixin.allMentioned_named.1 hpath).2
    rw [← Resolver.stack_report] at hpath hnodup
    exact ih hnodup hpath hlacks (report_true htrue (hlacksName hname))
  | known hname hq hrest ih =>
    exact ih hnodup (Mixin.allMentioned_named.1 hpath).2 (Mixin.allUnknown_named.1 hlacks).2 htrue
  | cycle hname hq hstack hrest ih =>
    obtain ⟨hcontinues, hpath⟩ := Mixin.allMentioned_named.1 hpath
    have hround := (hcontinues hname).runsRound hnodup hstack
    rw [← Resolver.stack_report] at hpath hnodup
    exact ih hnodup hpath (Mixin.allUnknown_named.1 hlacks).2 (report_true htrue hround)
  | @taken owner name d rest p p' inherited r r₁ r' hname hq hstack hd hrest ihd ih =>
    obtain ⟨hcontinues, hpath⟩ := Mixin.allMentioned_named.1 hpath
    have hmixes := allMentioned_mixes hname
    -- with the name on it the stack is the path on which its declaration is gone through
    have htrue₁ := ihd (Resolver.nodup_stack_enter hnodup hstack)
      (fun b hb hb' => (hcontinues (contains_of_get? hname)).mixes (hmixes b hb hb'))
      (allUnknown_lacks hname) htrue
    rw [← hd.stack_leave (inherited.complete name d)] at hpath hnodup
    exact ih hnodup hpath (Mixin.allUnknown_named.1 hlacks).2 htrue₁
  | inline hd hrest ihd ih =>
    obtain ⟨hlacksInner, hlacks⟩ := Mixin.allUnknown_inline.1 hlacks
    obtain ⟨hinner, hpath⟩ := Mixin.allMentioned_inline.1 hpath
    have htrue₁ := ihd hnodup hinner hlacksInner htrue
    rw [← hd.stack_eq] at hpath hnodup
    exact ih hnodup hpath hlacks htrue₁
  | transform hrest ih =>
    exact ih hnodup (Mixin.allMentioned_transform.1 hpath) (Mixin.allUnknown_transform.1 hlacks)
      htrue

/-! ### All that is wrong is reported -/

/-- What the resolved names lack has been reported. -/
def ReportsLacking (table : RuleTable) (r : Resolver) : Prop :=
  ∀ x q, r.done.get? x = some q → ∀ b, Lacks table x b → .unknownMixin x b ∈ r.diagnostics

/-- A report leaves reported what the resolved names lack. -/
theorem ReportsLacking.report (h : ReportsLacking table r) (d : Diagnostic) :
    ReportsLacking table (r.report d) := by
  intro x q hx b hlacks
  rw [Resolver.done_report] at hx
  exact Resolver.mem_diagnostics_report.2 (.inl (h x q hx b hlacks))

/-- **A run reports every mixin that the owner lacks** among its mixins, and what the names that it
resolves lack. -/
theorem Runs.reports_lacking (h : Runs table owner mixins p r p' r')
    (hreports : ReportsLacking table r) :
    ReportsLacking table r' ∧
      Mixin.AllUnknown table (.unknownMixin owner · ∈ r'.diagnostics) mixins := by
  induction h with
  | nil => exact ⟨hreports, fun b hb => by cases hb⟩
  | @undeclared owner name rest p p' r r' hname hrest ih =>
    obtain ⟨hreports', hrest'⟩ := ih (hreports.report _)
    refine ⟨hreports', Mixin.allUnknown_named.2 ⟨fun _ => ?_, hrest'⟩⟩
    exact hrest.diagnostics_mono (Resolver.mem_diagnostics_report.2 (.inr rfl))
  | known hname hq hrest ih =>
    obtain ⟨hreports', hrest'⟩ := ih hreports
    exact ⟨hreports', (Mixin.allUnknown_named_of_declared hname).2 hrest'⟩
  | cycle hname hq hstack hrest ih =>
    obtain ⟨hreports', hrest'⟩ := ih (hreports.report _)
    exact ⟨hreports', (Mixin.allUnknown_named_of_declared hname).2 hrest'⟩
  | @taken owner name d rest p p' inherited r r₁ r' hname hq hstack hd hrest ihd ih =>
    obtain ⟨hreports₁, hinner⟩ := ihd hreports
    -- the declaration of the name has been gone through, so what it lacks has been reported
    have hlacking : ∀ b, Lacks table name b → .unknownMixin name b ∈ r₁.diagnostics := by
      rintro b ⟨e, he, hmem, hb⟩
      cases hname.symm.trans he
      exact hinner b (Declaration.mem_mentioned.1 hmem) hb
    obtain ⟨hreports', hrest'⟩ := ih (Resolver.forall_done_leave hreports₁ hlacking)
    exact ⟨hreports', (Mixin.allUnknown_named_of_declared (contains_of_get? hname)).2 hrest'⟩
  | inline hd hrest ihd ih =>
    obtain ⟨hreports₁, hinner⟩ := ihd hreports
    obtain ⟨hreports', hrest'⟩ := ih hreports₁
    refine ⟨hreports', Mixin.allUnknown_inline.2 ⟨fun b hb hundeclared => ?_, hrest'⟩⟩
    exact hrest.diagnostics_mono (hinner b hb hundeclared)
  | transform hrest ih =>
    obtain ⟨hreports', hrest'⟩ := ih hreports
    exact ⟨hreports', Mixin.allUnknown_transform.2 hrest'⟩

/-- **A run that reports no circle resolves grounded names alone**, and its mixins name no other
declared ones: a name on the stack would be reported, and one that has been gone through mixes in
grounded names. -/
theorem Runs.grounded_of_not_reported (h : Runs table owner mixins p r p' r')
    (hnone : ∀ path, .mixinCycle path ∉ r'.diagnostics)
    (hdone : ∀ x q, r.done.get? x = some q → Grounded table x) :
    (∀ x q, r'.done.get? x = some q → Grounded table x) ∧
      Mixin.AllMentioned table (Grounded table) mixins := by
  induction h with
  | nil => exact ⟨hdone, fun b hb => by cases hb⟩
  | undeclared hname hrest ih =>
    obtain ⟨hdone', hrest'⟩ := ih hnone (by rwa [Resolver.done_report])
    refine ⟨hdone', Mixin.allMentioned_named.2 ⟨fun hname' => ?_, hrest'⟩⟩
    rw [hname] at hname'
    cases hname'
  | known hname hq hrest ih =>
    obtain ⟨hdone', hrest'⟩ := ih hnone hdone
    exact ⟨hdone', Mixin.allMentioned_named.2 ⟨fun _ => hdone _ _ hq, hrest'⟩⟩
  | cycle hname hq hstack hrest ih =>
    exact absurd (hrest.diagnostics_mono (Resolver.mem_diagnostics_report.2 (.inr rfl))) (hnone _)
  | @taken owner name d rest p p' inherited r r₁ r' hname hq hstack hd hrest ihd ih =>
    obtain ⟨hdone₁, hinner⟩ :=
      ihd (fun path hpath => hnone path (hrest.diagnostics_mono hpath)) hdone
    have hgrounded : Grounded table name := by
      refine .of_mixes fun b hb => ?_
      obtain ⟨e, he, hmem, hdeclared⟩ := hb
      cases hname.symm.trans he
      exact hinner b (Declaration.mem_mentioned.1 hmem) hdeclared
    obtain ⟨hdone', hrest'⟩ := ih hnone (Resolver.forall_done_leave hdone₁ hgrounded)
    exact ⟨hdone', Mixin.allMentioned_named.2 ⟨fun _ => hgrounded, hrest'⟩⟩
  | inline hd hrest ihd ih =>
    obtain ⟨hdone₁, hinner⟩ :=
      ihd (fun path hpath => hnone path (hrest.diagnostics_mono hpath)) hdone
    obtain ⟨hdone', hrest'⟩ := ih hnone hdone₁
    exact ⟨hdone', Mixin.allMentioned_inline.2 ⟨hinner, hrest'⟩⟩
  | transform hrest ih =>
    obtain ⟨hdone', hrest'⟩ := ih hnone hdone
    exact ⟨hdone', Mixin.allMentioned_transform.2 hrest'⟩

/-! ### The report of a table -/

/-- What is reported of a table is true of it. -/
theorem run_reports_true (table : RuleTable) :
    ∀ x ∈ (Resolver.run table).diagnostics, x.TrueOf table := by
  obtain ⟨p', hrun⟩ := Runs.run table ⟨""⟩
  refine hrun.reports_true List.nodup_nil (fun b _ _ => List.isChain_singleton b) ?_ nofun
  intro b hb hundeclared
  have hdeclared := SortedMap.contains_iff_mem_keys.2 (Mixin.mem_mentionedIn_map_named.1 hb)
  rw [hundeclared] at hdeclared
  cases hdeclared

/-- Where mixins lead from a name back to itself, a circle is reported. -/
theorem exists_reported_of_circle {n : TypeName} (hcircle : TransGen (Mixes table) n n) :
    ∃ path, .mixinCycle path ∈ (Resolver.run table).diagnostics := by
  by_contra hnone
  obtain ⟨p', hrun⟩ := Runs.run table ⟨""⟩
  obtain ⟨-, hgrounded⟩ := hrun.grounded_of_not_reported (not_exists.1 hnone) nofun
  obtain ⟨b, ⟨d, hd, -, -⟩, -⟩ := TransGen.head'_iff.1 hcircle
  have hdeclared := contains_of_get? hd
  have hmem : n ∈ Mixin.mentionedIn (table.keys.map .named) :=
    Mixin.mem_mentionedIn_map_named.2 (SortedMap.contains_iff_mem_keys.1 hdeclared)
  exact hgrounded n hmem hdeclared n .refl hcircle

/-- What a declared name lacks is reported. -/
theorem reported_of_lacks {mixin : TypeName} (h : Lacks table owner mixin) :
    .unknownMixin owner mixin ∈ (Resolver.run table).diagnostics := by
  obtain ⟨p', hrun⟩ := Runs.run table owner
  obtain ⟨d, hd, -, -⟩ := id h
  obtain ⟨q, hq⟩ := exists_done_run (contains_of_get? hd)
  exact (hrun.reports_lacking nofun).1 owner q hq mixin h

/-- **What is reported of a table is just what is wrong with it.** A circle is reported exactly when
mixins lead from some name back to itself, and every path that is reported runs round: it begins and
ends with one name, holds no other name twice, and each name on it mixes in the next. A mixin is
reported as unknown exactly when the declaration of the owner names it, in declarations written in
place too, and nobody declares it. And nothing is reported twice. -/
theorem diagnostics_exact (table : RuleTable) (forbidden : Forbidden) :
    ((∃ path, .mixinCycle path ∈ (RuleBook.ofTable table forbidden).diagnostics) ↔
        ∃ n, TransGen (Mixes table) n n) ∧
      (∀ path, .mixinCycle path ∈ (RuleBook.ofTable table forbidden).diagnostics →
        RunsRound table path) ∧
      (∀ owner mixin,
        .unknownMixin owner mixin ∈ (RuleBook.ofTable table forbidden).diagnostics ↔
          ∃ d, table.get? owner = some d ∧ mixin ∈ d.mentioned ∧ table.contains mixin = false) ∧
      (RuleBook.ofTable table forbidden).diagnostics.Nodup := by
  have htrue := run_reports_true table
  refine ⟨⟨?_, ?_⟩, fun path hpath => htrue _ hpath, fun owner mixin => ⟨htrue _, ?_⟩, ?_⟩
  · rintro ⟨path, hpath⟩
    exact (htrue _ hpath).exists_circle
  · rintro ⟨n, hcircle⟩
    exact exists_reported_of_circle hcircle
  · exact reported_of_lacks
  · obtain ⟨p', hrun⟩ := Runs.run table ⟨""⟩
    exact hrun.nodup_diagnostics List.nodup_nil

end ObjectMapping
