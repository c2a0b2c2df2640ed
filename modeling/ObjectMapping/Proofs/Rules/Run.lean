import ObjectMapping.Rules.RuleBook
import Mathlib.Data.List.Nodup
import Mathlib.Data.List.Perm.Subperm

/-! # Runs of the resolver

The resolver goes through mixins and through names in turn, and a bound on its depth stands in for
the fact that no name is ever taken up twice at a time. Here its runs are described once without the
bound and as one recursion: `Runs table owner mixins rules r rules' r'` says that going through the
mixins of a declaration of the owner leads from the rules and the state `r` to the rules and the
state `r'`. What is true of all runs is then shown by induction on `Runs`.

* **`Runs.resolveAll`** — going through mixins is a run, because the bound is never met.
* **`Runs.names`**, **`Runs.run`** — resolving names in turn is a run through these names as mixins,
  and so is resolving a whole table. -/

namespace ObjectMapping

/-- The rules with others merged in, if there are any. -/
def PartialRules.absorb (p : PartialRules) : Option PartialRules → PartialRules
  | some q => p.merge q
  | none => p

/-- **A run of the resolver** through mixins. -/
inductive Runs (table : RuleTable) : (owner : TypeName) → List Mixin → PartialRules → Resolver →
    PartialRules → Resolver → Prop where
  /-- There are no mixins left. -/
  | nil {owner : TypeName} {p : PartialRules} {r : Resolver} : Runs table owner [] p r p r
  /-- A mixin that is not declared is reported. -/
  | undeclared {owner name : TypeName} {rest : List Mixin} {p p' : PartialRules}
      {r r' : Resolver} (hname : table.contains name = false)
      (hrest : Runs table owner rest p (r.report (.unknownMixin owner name)) p' r') :
      Runs table owner (.named name :: rest) p r p' r'
  /-- A name that has been resolved is looked up. -/
  | known {owner name : TypeName} {rest : List Mixin} {p p' q : PartialRules}
      {r r' : Resolver} (hname : table.contains name = true) (hq : r.done.get? name = some q)
      (hrest : Runs table owner rest (p.merge q) r p' r') :
      Runs table owner (.named name :: rest) p r p' r'
  /-- A name that is being resolved closes a cycle, which is reported. -/
  | cycle {owner name : TypeName} {rest : List Mixin} {p p' : PartialRules}
      {r r' : Resolver} (hname : table.contains name = true) (hq : r.done.get? name = none)
      (hstack : name ∈ r.stack)
      (hrest : Runs table owner rest p (r.report (.mixinCycle (r.cycleThrough name))) p' r') :
      Runs table owner (.named name :: rest) p r p' r'
  /-- Any other declared name is taken up. -/
  | taken {owner name : TypeName} {d : Declaration} {rest : List Mixin}
      {p p' inherited : PartialRules} {r r₁ r' : Resolver} (hname : table.get? name = some d)
      (hq : r.done.get? name = none) (hstack : name ∉ r.stack)
      (hd : Runs table name d.mixins .empty (r.enter name) inherited r₁)
      (hrest : Runs table owner rest (p.merge (inherited.complete name d))
        (r₁.leave name (inherited.complete name d)) p' r') :
      Runs table owner (.named name :: rest) p r p' r'
  /-- A declaration in place is resolved with the enclosing type as its owner. -/
  | inline {owner : TypeName} {d : Declaration} {rest : List Mixin}
      {p p' inherited : PartialRules} {r r₁ r' : Resolver}
      (hd : Runs table owner d.mixins .empty r inherited r₁)
      (hrest : Runs table owner rest (p.merge (inherited.complete owner d)) r₁ p' r') :
      Runs table owner (.inline d :: rest) p r p' r'
  /-- A transform edits the rules. -/
  | transform {owner : TypeName} {t : Transform} {rest : List Mixin} {p p' : PartialRules}
      {r r' : Resolver} (hrest : Runs table owner rest (t.apply p) r p' r') :
      Runs table owner (.transform t :: rest) p r p' r'

namespace Resolver

@[simp] theorem done_report (r : Resolver) (d : Diagnostic) : (r.report d).done = r.done := by
  unfold report
  split <;> rfl

@[simp] theorem stack_report (r : Resolver) (d : Diagnostic) : (r.report d).stack = r.stack := by
  unfold report
  split <;> rfl

@[simp] theorem entered_report (r : Resolver) (d : Diagnostic) :
    (r.report d).entered = r.entered := by
  unfold report
  split <;> rfl

/-- What is kept of a name after the declaration of a name has been resolved. -/
theorem get?_done_leave (r : Resolver) (taken name : TypeName) (q : PartialRules) :
    (r.leave taken q).done.get? name = if name = taken then some q else r.done.get? name :=
  SortedMap.get?_insert _ _ _ _

/-- What holds of all rules that are kept goes on to hold when the rules of one more name are kept
of which it holds. -/
theorem forall_done_leave {P : TypeName → PartialRules → Prop} {r : Resolver} {taken : TypeName}
    {q : PartialRules} (h : ∀ m q', r.done.get? m = some q' → P m q') (hq : P taken q) :
    ∀ m q', (r.leave taken q).done.get? m = some q' → P m q' := by
  intro m q' hm
  rw [get?_done_leave] at hm
  split at hm
  · next hmt =>
    cases hm
    exact hmt ▸ hq
  · exact h m q' hm

/-- A name that is put on the stack is not there twice, if it was not there. -/
theorem nodup_stack_enter {r : Resolver} {name : TypeName} (h : r.stack.Nodup)
    (hname : name ∉ r.stack) : (r.enter name).stack.Nodup := by
  rw [enter, ← List.concat_eq_append]
  exact List.Nodup.concat hname h

end Resolver

namespace Runs

variable {table : RuleTable} {room : Nat} {owner name : TypeName} {mixins : List Mixin}
  {p p' : PartialRules} {r r' : Resolver}

/-! ### What every run does -/

/-- A run gives the stack back as it was. -/
theorem stack_eq (h : Runs table owner mixins p r p' r') : r'.stack = r.stack := by
  induction h with
  | nil => rfl
  | undeclared hname hrest ih => rw [ih, Resolver.stack_report]
  | known hname hq hrest ih => exact ih
  | cycle hname hq hstack hrest ih => rw [ih, Resolver.stack_report]
  | taken hname hq hstack hd hrest ihd ih =>
    rw [ih, Resolver.leave, ihd, Resolver.enter, List.dropLast_concat]
  | inline hd hrest ihd ih => exact ih.trans ihd
  | transform hrest ih => exact ih

/-- When the declaration of a name has been gone through, the stack is what it was before. -/
theorem stack_leave (h : Runs table name mixins p (r.enter name) p' r') (q : PartialRules) :
    (r'.leave name q).stack = r.stack := by
  rw [Resolver.leave, h.stack_eq, Resolver.enter, List.dropLast_concat]

/-- **A run never changes what is kept of a name.** -/
theorem done_mono (h : Runs table owner mixins p r p' r') {q : PartialRules}
    (hq : r.done.get? name = some q) : r'.done.get? name = some q := by
  induction h with
  | nil => exact hq
  | undeclared hname hrest ih => exact ih (by rwa [Resolver.done_report])
  | known hname hq' hrest ih => exact ih hq
  | cycle hname hq' hstack hrest ih => exact ih (by rwa [Resolver.done_report])
  | @taken owner taken d rest p p' inherited r r₁ r' hname hq' hstack hd hrest ihd ih =>
    refine ih ?_
    have hne : name ≠ taken := by
      rintro rfl
      cases hq.symm.trans hq'
    rw [Resolver.get?_done_leave, if_neg hne]
    exact ihd hq
  | inline hd hrest ihd ih => exact ih (ihd hq)
  | transform hrest ih => exact ih hq

/-- **A declared name among the mixins is resolved by the end**, unless it is on the stack. -/
theorem exists_done (h : Runs table owner mixins p r p' r') (hmem : .named name ∈ mixins)
    (hname : table.contains name = true) (hstack : name ∉ r.stack) :
    ∃ q, r'.done.get? name = some q := by
  induction h with
  | nil => cases hmem
  | undeclared hname' hrest ih =>
    obtain hmem | hmem := List.mem_cons.1 hmem
    · cases hmem
      rw [hname] at hname'
      cases hname'
    · exact ih hmem (by rwa [Resolver.stack_report])
  | known hname' hq hrest ih =>
    obtain hmem | hmem := List.mem_cons.1 hmem
    · cases hmem
      exact ⟨_, hrest.done_mono hq⟩
    · exact ih hmem hstack
  | cycle hname' hq hstack' hrest ih =>
    obtain hmem | hmem := List.mem_cons.1 hmem
    · cases hmem
      exact absurd hstack' hstack
    · exact ih hmem (by rwa [Resolver.stack_report])
  | taken hname' hq hstack' hd hrest ihd ih =>
    obtain hmem | hmem := List.mem_cons.1 hmem
    · cases hmem
      exact ⟨_, hrest.done_mono ((Resolver.get?_done_leave _ _ _ _).trans (if_pos rfl))⟩
    · refine ih hmem ?_
      rwa [hd.stack_leave]
  | inline hd hrest ihd ih =>
    obtain hmem | hmem := List.mem_cons.1 hmem
    · cases hmem
    · exact ih hmem (hd.stack_eq ▸ hstack)
  | transform hrest ih =>
    obtain hmem | hmem := List.mem_cons.1 hmem
    · cases hmem
    · exact ih hmem hstack

/-! ### The resolver runs -/

/-- Different declared names are no more than the table has. -/
theorem length_le_size {names : List TypeName} (hnodup : names.Nodup)
    (hdeclared : ∀ name ∈ names, table.contains name = true) : names.length ≤ table.size := by
  have hsubset : names ⊆ table.keys := fun name hname =>
    SortedMap.contains_iff_mem_keys.1 (hdeclared name hname)
  have hsize : table.keys.length = table.size := List.length_map _
  rw [← hsize]
  exact (List.subperm_of_subset hnodup hsubset).length_le

/-- The bound on the depth is not met: the names on the stack are declared, none is there twice, and
with those that are still to come there are no more than the table has. -/
structure Fits (table : RuleTable) (room : Nat) (r : Resolver) : Prop where
  nodup : r.stack.Nodup
  declared : ∀ name ∈ r.stack, table.contains name = true
  enough : table.size + 1 ≤ room + r.stack.length

namespace Fits

/-- Whether the bound is met depends on the stack alone. -/
theorem of_stack_eq {r' : Resolver} (h : Fits table room r) (hstack : r'.stack = r.stack) :
    Fits table room r' := by
  refine ⟨?_, ?_, ?_⟩ <;> rw [hstack]
  · exact h.nodup
  · exact h.declared
  · exact h.enough

/-- There is room for one more name. -/
theorem room_pos (h : Fits table room r) : 0 < room := by
  have hle := length_le_size h.nodup h.declared
  have henough := h.enough
  omega

/-- When a name is taken up, there is room for one name less. -/
theorem enter (h : Fits table (room + 1) r) (hname : table.contains name = true)
    (hstack : name ∉ r.stack) : Fits table room (r.enter name) := by
  refine ⟨Resolver.nodup_stack_enter h.nodup hstack, ?_, ?_⟩
  · intro m hm
    obtain hm | hm := List.mem_append.1 hm
    · exact h.declared m hm
    · exact List.mem_singleton.1 hm ▸ hname
  · have henough := h.enough
    simp only [Resolver.enter, List.length_append, List.length_singleton]
    omega

end Fits

/-- A way to resolve names **follows the rules**: it gives the stack back as it was, and what it
finds is what a run finds. -/
structure Follows (table : RuleTable) (room : Nat) (resolveName : NameResolver) : Prop where
  stack : ∀ name r, Fits table room r → table.contains name = true →
    (resolveName name r).2.stack = r.stack
  named : ∀ name r owner rest p p' r', Fits table room r → table.contains name = true →
    Runs table owner rest (p.absorb (resolveName name r).1) (resolveName name r).2 p' r' →
    Runs table owner (.named name :: rest) p r p' r'

mutual

/-- Resolving a declaration is a run through its mixins. -/
theorem declaration {resolveName : NameResolver} (hnames : Follows table room resolveName)
    (owner : TypeName) : (d : Declaration) → (r : Resolver) →
    Fits table room r → (d.resolve table resolveName owner r).2.stack = r.stack ∧
      ∃ inherited, Runs table owner d.mixins .empty r inherited
          (d.resolve table resolveName owner r).2 ∧
        (d.resolve table resolveName owner r).1 = inherited.complete owner d
  | .mk mixins sets mega, r, hfits => by
    obtain ⟨hstack, hrun⟩ := all hnames owner mixins .empty r hfits
    exact ⟨hstack, _, hrun, rfl⟩

/-- Resolving a mixin is the beginning of a run. -/
theorem one {resolveName : NameResolver} (hnames : Follows table room resolveName)
    (owner : TypeName) : (m : Mixin) → (p : PartialRules) → (r : Resolver) →
    Fits table room r → (m.resolve table resolveName owner p r).2.stack = r.stack ∧
      ∀ rest p' r', Runs table owner rest (m.resolve table resolveName owner p r).1
        (m.resolve table resolveName owner p r).2 p' r' → Runs table owner (m :: rest) p r p' r'
  | .named name, p, r, hfits => by
    unfold Mixin.resolve
    split
    · next hname =>
      have hstack := hnames.stack name r hfits hname
      have hnamed := hnames.named name r owner
      generalize resolveName name r = result at hstack hnamed
      obtain ⟨_ | q, r₁⟩ := result
      · exact ⟨hstack, fun rest p' r' h => hnamed rest p p' r' hfits hname h⟩
      · exact ⟨hstack, fun rest p' r' h => hnamed rest p p' r' hfits hname h⟩
    -- a name that is not declared is reported
    · next hname =>
      exact ⟨Resolver.stack_report _ _,
        fun rest p' r' h => .undeclared (Bool.not_eq_true _ ▸ hname) h⟩
  | .inline d, p, r, hfits => by
    obtain ⟨hstack, inherited, hrun, hrules⟩ := declaration hnames owner d r hfits
    unfold Mixin.resolve
    refine ⟨hstack, fun rest p' r' h => .inline hrun ?_⟩
    rw [← hrules]
    exact h
  | .transform t, p, r, hfits => by
    unfold Mixin.resolve
    exact ⟨rfl, fun rest p' r' h => .transform h⟩

/-- Resolving mixins in turn is a run. -/
theorem all {resolveName : NameResolver} (hnames : Follows table room resolveName)
    (owner : TypeName) : (mixins : List Mixin) → (p : PartialRules) → (r : Resolver) →
    Fits table room r → (Mixin.resolveAll table resolveName owner mixins p r).2.stack = r.stack ∧
      Runs table owner mixins p r (Mixin.resolveAll table resolveName owner mixins p r).1
        (Mixin.resolveAll table resolveName owner mixins p r).2
  | [], p, r, hfits => by
    unfold Mixin.resolveAll
    exact ⟨rfl, .nil⟩
  | m :: rest, p, r, hfits => by
    obtain ⟨hstack, hrun⟩ := one hnames owner m p r hfits
    obtain ⟨hstack', hrest⟩ := all hnames owner rest (m.resolve table resolveName owner p r).1
      (m.resolve table resolveName owner p r).2 (hfits.of_stack_eq hstack)
    unfold Mixin.resolveAll
    exact ⟨hstack'.trans hstack, hrun rest _ _ hrest⟩

end

/-- **The resolver follows the rules**, because its bound is never met. -/
theorem follows (table : RuleTable) (room : Nat) :
    Follows table room (Resolver.resolve table room) := by
  induction room with
  | zero =>
    refine ⟨fun name r hfits => ?_, fun name r owner rest p p' r' hfits => ?_⟩
    · exact absurd hfits.room_pos (Nat.lt_irrefl 0)
    · exact absurd hfits.room_pos (Nat.lt_irrefl 0)
  | succ room ih =>
    have resolve_cases : ∀ name r, Fits table (room + 1) r → table.contains name = true →
        (Resolver.resolve table (room + 1) name r).2.stack = r.stack ∧
        ∀ owner rest p p' r', Runs table owner rest
          (p.absorb (Resolver.resolve table (room + 1) name r).1)
          (Resolver.resolve table (room + 1) name r).2 p' r' →
        Runs table owner (.named name :: rest) p r p' r' := by
      intro name r hfits hname
      cases hq : r.done.get? name with
      | some q =>
        simp only [Resolver.resolve, hq]
        exact ⟨trivial, fun owner rest p p' r' h => .known hname hq h⟩
      | none =>
        by_cases hstack : name ∈ r.stack
        · simp only [Resolver.resolve, hq, if_pos hstack]
          exact ⟨Resolver.stack_report _ _, fun owner rest p p' r' h => .cycle hname hq hstack h⟩
        · -- the name is taken up, and with it on the stack its declaration needs one room less
          obtain ⟨d, hd⟩ := Option.isSome_iff_exists.1 hname
          obtain ⟨hinner, inherited, hrun, hrules⟩ :=
            declaration ih name d (r.enter name) (hfits.enter hname hstack)
          simp only [Resolver.resolve, hq, if_neg hstack, hd]
          refine ⟨(congrArg List.dropLast hinner).trans List.dropLast_concat,
            fun owner rest p p' r' h => .taken hd hq hstack hrun ?_⟩
          rw [← hrules]
          exact h
    exact ⟨fun name r hfits hname => (resolve_cases name r hfits hname).1,
      fun name r owner rest p p' r' hfits hname => (resolve_cases name r hfits hname).2 owner rest
        p p' r'⟩

/-- Before anything is resolved the bound is met by the whole table. -/
theorem fits_start (hstack : r.stack = []) : Fits table (table.size + 1) r := by
  refine ⟨?_, ?_, ?_⟩ <;> rw [hstack]
  · exact List.nodup_nil
  · intro name hname
    cases hname
  · exact Nat.le_add_right _ _

/-- **Resolving declared names in turn is a run** through these names as mixins. -/
theorem names (owner : TypeName) (names : List TypeName)
    (hnames : ∀ name ∈ names, table.contains name = true) (p : PartialRules)
    (hstack : r.stack = []) :
    ∃ p', Runs table owner (names.map .named) p r p' (Resolver.resolveAll table names r) := by
  induction names generalizing p r with
  | nil => exact ⟨p, .nil⟩
  | cons name rest ih =>
    have hfits : Fits table (table.size + 1) r := fits_start hstack
    have hname := hnames name List.mem_cons_self
    have hfollows := follows table (table.size + 1)
    obtain ⟨p', hrest⟩ := ih (fun name h => hnames name (List.mem_cons_of_mem _ h))
      (p.absorb (Resolver.resolve table (table.size + 1) name r).1)
      ((hfollows.stack name r hfits hname).trans hstack)
    exact ⟨p', hfollows.named name r owner _ p p' _ hfits hname hrest⟩

/-- **Resolving a whole table is a run** through its names as mixins. -/
theorem run (table : RuleTable) (owner : TypeName) :
    ∃ p', Runs table owner (table.keys.map .named) .empty {} p' (Resolver.run table) :=
  names owner table.keys (fun _ hname => SortedMap.contains_iff_mem_keys.2 hname) .empty rfl

end Runs

/-- A resolved table keeps rules for all declared names. -/
theorem exists_done_run {table : RuleTable} {name : TypeName}
    (hname : table.contains name = true) :
    ∃ q, (Resolver.run table).done.get? name = some q := by
  obtain ⟨p', hrun⟩ := Runs.run table name
  have hmem : name ∈ table.keys := SortedMap.contains_iff_mem_keys.1 hname
  exact hrun.exists_done (List.mem_map_of_mem hmem) hname List.not_mem_nil

end ObjectMapping
