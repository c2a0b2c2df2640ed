import ObjectMapping.Proofs.Rules.Meaning

/-! # What a run depends on

A run of the resolver is decided by where it begins, and it looks at nothing but the declarations
that its mixins lead to. So it goes the same way in a larger table, and it leaves alone what its
mixins do not lead to.

* **`Runs.unique`** — a run is decided by where it begins.
* **`Runs.insert`** — a declaration that no mixin names makes no difference to a run.
* **`Runs.get?_done_of_not_mem`** — a run through mixins that lead only to names of a part of the
  table leaves alone what is kept of all other names.
* **`Runs.exists_entered`** — such a run takes up only names of that part, after those taken up
  before.
* **`Runs.settled`** — at the end of a run, what the resolved names mix in is resolved too. -/

namespace ObjectMapping

variable {table : RuleTable} {owner name : TypeName} {mixins rest : List Mixin}
  {p p' : PartialRules} {r r' : Resolver}

/-! ### Names in mixins -/

namespace Mixin

variable {b : TypeName}

/-- A named mixin names itself. -/
@[simp] theorem mem_mentionedIn_named :
    b ∈ mentionedIn (.named name :: rest) ↔ b = name ∨ b ∈ mentionedIn rest := by
  simp [mentionedIn, mentioned]

/-- A declaration in place names what its mixins name. -/
@[simp] theorem mem_mentionedIn_inline {d : Declaration} :
    b ∈ mentionedIn (.inline d :: rest) ↔ b ∈ mentionedIn d.mixins ∨ b ∈ mentionedIn rest := by
  cases d
  simp [mentionedIn, mentioned, Declaration.mentioned, Declaration.mixins]

/-- A transform names nothing. -/
@[simp] theorem mem_mentionedIn_transform {t : Transform} :
    b ∈ mentionedIn (.transform t :: rest) ↔ b ∈ mentionedIn rest := by
  simp [mentionedIn, mentioned]

/-- Names as mixins name themselves. -/
@[simp] theorem mem_mentionedIn_map_named {names : List TypeName} :
    b ∈ mentionedIn (names.map .named) ↔ b ∈ names := by
  induction names with
  | nil => simp [mentionedIn]
  | cons name names ih => rw [List.map_cons, mem_mentionedIn_named, ih, List.mem_cons]

/-- What holds of a name holds of all names that it names as a mixin. -/
theorem allMentioned_singleton {P : TypeName → Prop} (h : P name) :
    AllMentioned table P [.named name] :=
  allMentioned_named.2 ⟨fun _ => h, fun b hb => by cases hb⟩

end Mixin

/-- A declaration names what its mixins name. -/
theorem Declaration.mem_mentioned {d : Declaration} {b : TypeName} :
    b ∈ d.mentioned ↔ b ∈ Mixin.mentionedIn d.mixins := by
  cases d
  rw [mentioned, mixins]

/-- A name is **unused** in a table when it is not declared there and no mixin names it. -/
structure Unused (table : RuleTable) (a : TypeName) : Prop where
  undeclared : table.get? a = none
  unmentioned : ∀ name d, table.get? name = some d → a ∉ d.mentioned

/-! ### Runs begin and end -/

namespace Runs

/-- A run goes through the first mixin and then through the others. -/
theorem first {m : Mixin} (h : Runs table owner (m :: rest) p r p' r') :
    ∃ p₀ r₀, Runs table owner [m] p r p₀ r₀ ∧ Runs table owner rest p₀ r₀ p' r' := by
  cases h with
  | undeclared hname hrest => exact ⟨_, _, .undeclared hname .nil, hrest⟩
  | known hname hq hrest => exact ⟨_, _, .known hname hq .nil, hrest⟩
  | cycle hname hq hstack hrest => exact ⟨_, _, .cycle hname hq hstack .nil, hrest⟩
  | taken hname hq hstack hd hrest => exact ⟨_, _, .taken hname hq hstack hd .nil, hrest⟩
  | inline hd hrest => exact ⟨_, _, .inline hd .nil, hrest⟩
  | transform hrest => exact ⟨_, _, .transform .nil, hrest⟩

/-- Going through a declared name that is not on the stack merges in what is kept of it then. -/
theorem of_named (h : Runs table owner [.named name] p r p' r')
    (hname : table.contains name = true) (hstack : name ∉ r.stack) :
    ∃ q, p' = p.merge q ∧ r'.done.get? name = some q := by
  cases h with
  | undeclared hname' hrest => rw [hname] at hname'; cases hname'
  | known hname' hq hrest => cases hrest; exact ⟨_, rfl, hq⟩
  | cycle hname' hq hstack' hrest => exact absurd hstack' hstack
  | taken hname' hq hstack' hd hrest =>
    cases hrest
    exact ⟨_, rfl, (Resolver.get?_done_leave _ _ _ _).trans (if_pos rfl)⟩

/-- **A run is decided by where it begins.** -/
theorem unique {p₁ p₂ : PartialRules} {r₁ r₂ : Resolver} (h : Runs table owner mixins p r p₁ r₁)
    (h' : Runs table owner mixins p r p₂ r₂) : p₁ = p₂ ∧ r₁ = r₂ := by
  induction h generalizing p₂ r₂ with
  | nil => cases h'; exact ⟨rfl, rfl⟩
  | undeclared hname hrest ih =>
    cases h' with
    | undeclared _ hrest' => exact ih hrest'
    | known hname' _ _ => rw [hname] at hname'; cases hname'
    | cycle hname' _ _ _ => rw [hname] at hname'; cases hname'
    | taken hname' _ _ _ _ => rw [contains_of_get? hname'] at hname; cases hname
  | known hname hq hrest ih =>
    cases h' with
    | undeclared hname' _ => rw [hname] at hname'; cases hname'
    | known _ hq' hrest' =>
      cases hq.symm.trans hq'
      exact ih hrest'
    | cycle _ hq' _ _ => cases hq.symm.trans hq'
    | taken _ hq' _ _ _ => cases hq.symm.trans hq'
  | cycle hname hq hstack hrest ih =>
    cases h' with
    | undeclared hname' _ => rw [hname] at hname'; cases hname'
    | known _ hq' _ => cases hq.symm.trans hq'
    | cycle _ _ _ hrest' => exact ih hrest'
    | taken _ _ hstack' _ _ => exact absurd hstack hstack'
  | taken hname hq hstack hd hrest ihd ih =>
    cases h' with
    | undeclared hname' _ => rw [contains_of_get? hname] at hname'; cases hname'
    | known _ hq' _ => cases hq.symm.trans hq'
    | cycle _ _ hstack' _ => exact absurd hstack' hstack
    | taken hname' _ _ hd' hrest' =>
      cases hname.symm.trans hname'
      obtain ⟨rfl, rfl⟩ := ihd hd'
      exact ih hrest'
  | inline hd hrest ihd ih =>
    cases h' with
    | inline hd' hrest' =>
      obtain ⟨rfl, rfl⟩ := ihd hd'
      exact ih hrest'
  | transform hrest ih =>
    cases h' with
    | transform hrest' => exact ih hrest'

/-! ### A larger table -/

/-- **A declaration that no mixin names makes no difference to a run.** -/
theorem insert {a : TypeName} {e : Declaration} (h : Runs table owner mixins p r p' r')
    (ha : Unused table a) (hmixins : a ∉ Mixin.mentionedIn mixins) :
    Runs (table.insert a e) owner mixins p r p' r' := by
  -- the names that a run looks up are other names, of which both tables hold the same
  have get?_of_ne : ∀ {name : TypeName}, a ≠ name →
      (table.insert a e).get? name = table.get? name := by
    intro name hne
    rw [SortedMap.get?_insert, if_neg (Ne.symm hne)]
  have contains_of_ne : ∀ {name : TypeName}, a ≠ name →
      (table.insert a e).contains name = table.contains name := by
    intro name hne
    rw [SortedMap.contains, get?_of_ne hne, SortedMap.contains]
  induction h with
  | nil => exact .nil
  | undeclared hname hrest ih =>
    rw [Mixin.mem_mentionedIn_named, not_or] at hmixins
    exact .undeclared ((contains_of_ne hmixins.1).trans hname) (ih hmixins.2)
  | known hname hq hrest ih =>
    rw [Mixin.mem_mentionedIn_named, not_or] at hmixins
    exact .known ((contains_of_ne hmixins.1).trans hname) hq (ih hmixins.2)
  | cycle hname hq hstack hrest ih =>
    rw [Mixin.mem_mentionedIn_named, not_or] at hmixins
    exact .cycle ((contains_of_ne hmixins.1).trans hname) hq hstack (ih hmixins.2)
  | taken hname hq hstack hd hrest ihd ih =>
    rw [Mixin.mem_mentionedIn_named, not_or] at hmixins
    have hinner := ihd fun hmem => ha.unmentioned _ _ hname (Declaration.mem_mentioned.2 hmem)
    exact .taken ((get?_of_ne hmixins.1).trans hname) hq hstack hinner (ih hmixins.2)
  | inline hd hrest ihd ih =>
    rw [Mixin.mem_mentionedIn_inline, not_or] at hmixins
    exact .inline (ihd hmixins.1) (ih hmixins.2)
  | transform hrest ih =>
    rw [Mixin.mem_mentionedIn_transform] at hmixins
    exact .transform (ih hmixins)

/-! ### What a run leaves alone -/

/-- **What a run leaves alone**: where mixins lead only to names of a part of the table, nothing
changes for other names. -/
theorem get?_done_of_not_mem {S : TypeName → Prop} (h : Runs table owner mixins p r p' r')
    (hS : ∀ x y, S x → Mixes table x y → S y) (hmixins : Mixin.AllMentioned table S mixins)
    {m : TypeName} (hm : ¬ S m) : r'.done.get? m = r.done.get? m := by
  induction h with
  | nil => rfl
  | undeclared hname hrest ih =>
    rw [ih (Mixin.allMentioned_named.1 hmixins).2, Resolver.done_report]
  | known hname hq hrest ih => exact ih (Mixin.allMentioned_named.1 hmixins).2
  | cycle hname hq hstack hrest ih =>
    rw [ih (Mixin.allMentioned_named.1 hmixins).2, Resolver.done_report]
  | @taken owner name d rest p p' inherited r r₁ r' hname hq hstack hd hrest ihd ih =>
    obtain ⟨hmem, hrest'⟩ := Mixin.allMentioned_named.1 hmixins
    have hmem : S name := hmem (contains_of_get? hname)
    have hne : m ≠ name := fun hne => hm (hne ▸ hmem)
    have hinner : r₁.done.get? m = r.done.get? m :=
      ihd fun b hb hdeclared => hS name b hmem (allMentioned_mixes hname b hb hdeclared)
    rw [ih hrest', Resolver.get?_done_leave, if_neg hne, hinner]
  | inline hd hrest ihd ih =>
    obtain ⟨hinner, hrest'⟩ := Mixin.allMentioned_inline.1 hmixins
    rw [ih hrest', ihd hinner]
  | transform hrest ih => exact ih (Mixin.allMentioned_transform.1 hmixins)

/-- **A run resolves no name that is on the stack.** -/
theorem get?_done_of_mem_stack (h : Runs table owner mixins p r p' r') (hmem : name ∈ r.stack)
    (hq : r.done.get? name = none) : r'.done.get? name = none := by
  induction h with
  | nil => exact hq
  | undeclared hname hrest ih =>
    exact ih (by rwa [Resolver.stack_report]) (by rwa [Resolver.done_report])
  | known hname hq' hrest ih => exact ih hmem hq
  | cycle hname hq' hstack hrest ih =>
    exact ih (by rwa [Resolver.stack_report]) (by rwa [Resolver.done_report])
  | @taken owner taken d rest p p' inherited r r₁ r' hname hq' hstack hd hrest ihd ih =>
    refine ih (by rwa [hd.stack_leave]) ?_
    have hne : name ≠ taken := fun hne => hstack (hne ▸ hmem)
    rw [Resolver.get?_done_leave, if_neg hne]
    exact ihd (List.mem_append_left _ hmem) hq
  | inline hd hrest ihd ih => exact ih (by rwa [hd.stack_eq]) (ihd hmem hq)
  | transform hrest ih => exact ih hmem hq

/-- **A run takes up more names**, all of them in a part of the table to which its mixins lead. -/
theorem exists_entered {S : TypeName → Prop} (h : Runs table owner mixins p r p' r')
    (hS : ∀ x y, S x → Mixes table x y → S y) (hmixins : Mixin.AllMentioned table S mixins) :
    ∃ names, r'.entered = r.entered ++ names ∧ ∀ m ∈ names, S m := by
  induction h with
  | nil => exact ⟨[], (List.append_nil _).symm, fun m hm => by cases hm⟩
  | undeclared hname hrest ih =>
    obtain ⟨names, hnames, hmem⟩ := ih (Mixin.allMentioned_named.1 hmixins).2
    exact ⟨names, by rw [hnames, Resolver.entered_report], hmem⟩
  | known hname hq hrest ih => exact ih (Mixin.allMentioned_named.1 hmixins).2
  | cycle hname hq hstack hrest ih =>
    obtain ⟨names, hnames, hmem⟩ := ih (Mixin.allMentioned_named.1 hmixins).2
    exact ⟨names, by rw [hnames, Resolver.entered_report], hmem⟩
  | @taken owner name d rest p p' inherited r r₁ r' hname hq hstack hd hrest ihd ih =>
    obtain ⟨hmem, hrest'⟩ := Mixin.allMentioned_named.1 hmixins
    have hmem : S name := hmem (contains_of_get? hname)
    obtain ⟨inner, hinner, hmemInner⟩ :=
      ihd fun b hb hdeclared => hS name b hmem (allMentioned_mixes hname b hb hdeclared)
    obtain ⟨names, hnames, hmemRest⟩ := ih hrest'
    refine ⟨name :: inner ++ names, ?_, ?_⟩
    · rw [hnames, Resolver.leave, hinner, Resolver.enter]
      simp
    · intro m hm
      obtain hm | hm := List.mem_append.1 hm
      · obtain rfl | hm := List.mem_cons.1 hm
        · exact hmem
        · exact hmemInner m hm
      · exact hmemRest m hm
  | inline hd hrest ihd ih =>
    obtain ⟨hinner, hrest'⟩ := Mixin.allMentioned_inline.1 hmixins
    obtain ⟨inner, hinner, hmemInner⟩ := ihd hinner
    obtain ⟨names, hnames, hmemRest⟩ := ih hrest'
    refine ⟨inner ++ names, by rw [hnames, hinner, List.append_assoc], fun m hm => ?_⟩
    exact (List.mem_append.1 hm).elim (hmemInner m) (hmemRest m)
  | transform hrest ih => exact ih (Mixin.allMentioned_transform.1 hmixins)

/-- The names that have been taken up stay first. -/
theorem entered_grows (h : Runs table owner mixins p r p' r') :
    r.entered <+: r'.entered := by
  obtain ⟨names, hnames, -⟩ :=
    h.exists_entered (fun _ _ (_ : True) _ => trivial) (fun _ _ _ => trivial)
  exact ⟨names, hnames.symm⟩

/-! ### What a run completes -/

/-- **Every declared name that the mixins name is resolved by the end**, unless it is on the
stack. -/
theorem exists_done_of_mentioned (h : Runs table owner mixins p r p' r') :
    Mixin.AllMentioned table (fun b => b ∈ r.stack ∨ ∃ q, r'.done.get? b = some q) mixins := by
  induction h with
  | nil =>
    intro b hb
    cases hb
  | undeclared hname hrest ih =>
    rw [Resolver.stack_report] at ih
    refine Mixin.allMentioned_named.2 ⟨fun hname' => ?_, ih⟩
    rw [hname] at hname'
    cases hname'
  | known hname hq hrest ih =>
    exact Mixin.allMentioned_named.2 ⟨fun _ => .inr ⟨_, hrest.done_mono hq⟩, ih⟩
  | cycle hname hq hstack hrest ih =>
    rw [Resolver.stack_report] at ih
    exact Mixin.allMentioned_named.2 ⟨fun _ => .inl hstack, ih⟩
  | @taken owner name d rest p p' inherited r r₁ r' hname hq hstack hd hrest ihd ih =>
    rw [hd.stack_leave] at ih
    have hdone : (r₁.leave name (inherited.complete name d)).done.get? name =
        some (inherited.complete name d) := (Resolver.get?_done_leave _ _ _ _).trans (if_pos rfl)
    exact Mixin.allMentioned_named.2 ⟨fun _ => .inr ⟨_, hrest.done_mono hdone⟩, ih⟩
  | inline hd hrest ihd ih =>
    rw [hd.stack_eq] at ih
    refine Mixin.allMentioned_inline.2 ⟨fun b hb hdeclared => ?_, ih⟩
    obtain hstack | ⟨q, hq⟩ := ihd b hb hdeclared
    · exact .inl hstack
    · exact .inr ⟨q, hrest.done_mono hq⟩
  | transform hrest ih => exact Mixin.allMentioned_transform.2 ih

end Runs

/-- A state is **settled** when what the resolved names mix in is resolved too, or is on the
stack. -/
def Settled (table : RuleTable) (r : Resolver) : Prop :=
  ∀ x y q, r.done.get? x = some q → Mixes table x y →
    y ∈ r.stack ∨ ∃ q', r.done.get? y = some q'

/-- Before anything is resolved the state is settled. -/
theorem settled_start : Settled table {} := fun _ _ _ hx => by cases hx

/-- **A run that begins settled ends settled.** -/
theorem Runs.settled (h : Runs table owner mixins p r p' r') (hsettled : Settled table r) :
    Settled table r' := by
  induction h with
  | nil => exact hsettled
  | undeclared hname hrest ih =>
    exact ih (by rwa [Settled, Resolver.done_report, Resolver.stack_report])
  | known hname hq hrest ih => exact ih hsettled
  | cycle hname hq hstack hrest ih =>
    exact ih (by rwa [Settled, Resolver.done_report, Resolver.stack_report])
  | @taken owner name d rest p p' inherited r r₁ r' hname hq hstack hd hrest ihd ih =>
    -- on the stack of the inner run there is one name more, and nothing less is kept
    have hsettled₁ : Settled table r₁ := ihd fun x y q hx hxy =>
      (hsettled x y q hx hxy).imp (List.mem_append_left _) id
    have hstack₁ : r₁.stack = r.stack ++ [name] := hd.stack_eq
    refine ih fun x y q hx hxy => ?_
    rw [hd.stack_leave, Resolver.get?_done_leave]
    by_cases hy : y = name
    · rw [if_pos hy]
      exact .inr ⟨_, rfl⟩
    · -- another name was resolved in the inner run or is on the stack below
      rw [if_neg hy]
      have hinner : y ∈ r₁.stack ∨ ∃ q', r₁.done.get? y = some q' := by
        rw [Resolver.get?_done_leave] at hx
        by_cases hxname : x = name
        · subst hxname
          obtain ⟨d', hd', hmem, hdeclared⟩ := hxy
          cases hname.symm.trans hd'
          rw [hd.stack_eq]
          exact hd.exists_done_of_mentioned y (Declaration.mem_mentioned.1 hmem) hdeclared
        · rw [if_neg hxname] at hx
          exact hsettled₁ x y q hx hxy
      obtain hmem | hdone := hinner
      · rw [hstack₁, List.mem_append, List.mem_singleton] at hmem
        exact .inl (hmem.resolve_right hy)
      · exact .inr hdone
  | inline hd hrest ihd ih => exact ih (ihd hsettled)
  | transform hrest ih => exact ih hsettled

/-- With nothing on the stack, a settled state keeps rules for all names that mixins lead to from a
resolved one. -/
theorem Settled.exists_done {x y : TypeName} (h : Settled table r) (hstack : r.stack = [])
    (hx : ∃ q, r.done.get? x = some q) (hxy : Relation.ReflTransGen (Mixes table) x y) :
    ∃ q, r.done.get? y = some q := by
  induction hxy with
  | refl => exact hx
  | tail _ hmixes ih =>
    obtain ⟨q, hq⟩ := ih
    obtain hmem | hdone := h _ _ q hq hmixes
    · rw [hstack] at hmem
      cases hmem
    · exact hdone

end ObjectMapping
