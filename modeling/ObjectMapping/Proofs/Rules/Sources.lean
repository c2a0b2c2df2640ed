import ObjectMapping.Proofs.Rules.Literal

/-! # Where rules come from

The rules of a name lie between two bounds that do not depend on how the resolver goes round in
circles. From below, all that the declaration lists itself is there. From above, as long as no
transform has a hand in them, nothing is there that is not listed by the declaration itself, or by
one that it draws on (`DrawsOn`), by name or in place. So where a circle is cut, rules may be
missing, but none are made up.

* **`Runs.stemming`** — what a run puts together for declarations free of transforms stems from what
  they list.
* **`resolve_within_bounds`** — the rules of all declared names are within both bounds. -/

namespace ObjectMapping

open Relation

variable {table : RuleTable} {owner name : TypeName} {mixins : List Mixin} {d e : Declaration}
  {p p' q : PartialRules} {r r' : Resolver}

/-! ### Declarations that others draw on -/

/-- A declaration **draws on** those that are written in place among its mixins and on those that
are named there. -/
def DrawsOn (table : RuleTable) (d e : Declaration) : Prop :=
  .inline e ∈ d.mixins ∨ ∃ name, .named name ∈ d.mixins ∧ table.get? name = some e

/-- A declaration is **free of transforms** when neither it nor any other that it leads to has
one. -/
def FreeOfTransforms (table : RuleTable) (d : Declaration) : Prop :=
  ∀ e, ReflTransGen (DrawsOn table) d e → ∀ t, .transform t ∉ e.mixins

/-- What a declaration free of transforms draws on is free of them. -/
theorem FreeOfTransforms.drawsOn (hd : FreeOfTransforms table d) (h : DrawsOn table d e) :
    FreeOfTransforms table e :=
  fun e' he' => hd e' (.head h he')

/-! ### Rules that stem from declarations -/

/-- Rules **stem from** a declaration when all their types are listed by it, or by one that it leads
to, in the same field, and one of these gives them their direction if they have one. -/
structure StemsFrom (table : RuleTable) (d : Declaration) (p : PartialRules) : Prop where
  types : ∀ f x, x ∈ p.get f → ∃ e, ReflTransGen (DrawsOn table) d e ∧ x ∈ e.literal f
  mega : p.mega = some true → ∃ e, ReflTransGen (DrawsOn table) d e ∧ e.mega = some true

namespace StemsFrom

/-- No rules stem from any declaration. -/
theorem empty : StemsFrom table d .empty where
  types f x hx := by
    rw [PartialRules.get, PartialRules.empty, FieldSets.get_empty] at hx
    exact absurd hx (SortedSet.not_mem_empty x)
  mega := nofun

/-- Rules that stem from a declaration stem from those that draw on it. -/
theorem of_drawsOn (hp : StemsFrom table e p) (h : DrawsOn table d e) : StemsFrom table d p where
  types f x hx := by
    obtain ⟨e', he', hlisted⟩ := hp.types f x hx
    exact ⟨e', .head h he', hlisted⟩
  mega hmega := by
    obtain ⟨e', he', hgiven⟩ := hp.mega hmega
    exact ⟨e', .head h he', hgiven⟩

/-- Rules with others merged in stem from where both stem from. -/
theorem merge (hp : StemsFrom table d p) (hq : StemsFrom table d q) :
    StemsFrom table d (p.merge q) := by
  have htakesIn : TakesIn p q (p.merge q) := takesIn_iff.2 rfl
  refine ⟨fun f x hx => ?_, fun hmega => ?_⟩
  · obtain hx | hx := (htakesIn.mem f x).1 hx
    · exact hp.types f x hx
    · exact hq.types f x hx
  · rw [htakesIn.mega] at hmega
    split at hmega
    · next hgiven => exact hq.mega (hgiven.trans hmega)
    · exact hp.mega hmega

/-- Rules that stem from a declaration do so when it has completed them. -/
theorem complete (hp : StemsFrom table d p) (owner : TypeName) :
    StemsFrom table d (p.complete owner d) := by
  have hcompletes : Completes owner d p (p.complete owner d) := completes_iff.2 rfl
  refine ⟨fun f x hx => ?_, fun hmega => ?_⟩
  · obtain hlisted | ⟨hx, -⟩ := (hcompletes.mem f x).1 hx
    · exact ⟨d, .refl, hlisted⟩
    · exact hp.types f x hx
  · rw [hcompletes.mega] at hmega
    split at hmega
    · next hgiven => exact ⟨d, .refl, hgiven.trans hmega⟩
    · exact hp.mega hmega

end StemsFrom

/-! ### Runs -/

/-- What is kept of names whose declarations are free of transforms stems from these. -/
def KeepsStemming (table : RuleTable) (r : Resolver) : Prop :=
  ∀ name q, r.done.get? name = some q → ∀ d, table.get? name = some d →
    FreeOfTransforms table d → StemsFrom table d q

/-- Keeping the rules of one more name keeps only rules that stem from declarations, if these do. -/
theorem KeepsStemming.leave (h : KeepsStemming table r) (hd : table.get? name = some d)
    (hq : FreeOfTransforms table d → StemsFrom table d q) :
    KeepsStemming table (r.leave name q) := by
  refine Resolver.forall_done_leave h fun e he hfree => ?_
  cases hd.symm.trans he
  exact hq hfree

/-- **What a run puts together for a declaration free of transforms stems from it**, as far as the
run goes through mixins of that declaration; and so does all that the run keeps. -/
theorem Runs.stemming (h : Runs table owner mixins p r p' r') (hkeeps : KeepsStemming table r) :
    KeepsStemming table r' ∧ ∀ d : Declaration, mixins ⊆ d.mixins → FreeOfTransforms table d →
      StemsFrom table d p → StemsFrom table d p' := by
  induction h with
  | nil => exact ⟨hkeeps, fun _ _ _ hp => hp⟩
  | undeclared hname hrest ih =>
    obtain ⟨hkeeps', hrest'⟩ := ih (by rwa [KeepsStemming, Resolver.done_report])
    refine ⟨hkeeps', fun d hmixins hfree hp => ?_⟩
    exact hrest' d (List.cons_subset.1 hmixins).2 hfree hp
  | known hname hq hrest ih =>
    obtain ⟨hkeeps', hrest'⟩ := ih hkeeps
    refine ⟨hkeeps', fun d hmixins hfree hp => ?_⟩
    obtain ⟨hmem, hmixins⟩ := List.cons_subset.1 hmixins
    obtain ⟨e, he⟩ := Option.isSome_iff_exists.1 hname
    have hdraws : DrawsOn table d e := .inr ⟨_, hmem, he⟩
    have hstems := (hkeeps _ _ hq e he (hfree.drawsOn hdraws)).of_drawsOn hdraws
    exact hrest' d hmixins hfree (hp.merge hstems)
  | cycle hname hq hstack hrest ih =>
    obtain ⟨hkeeps', hrest'⟩ := ih (by rwa [KeepsStemming, Resolver.done_report])
    refine ⟨hkeeps', fun d hmixins hfree hp => ?_⟩
    exact hrest' d (List.cons_subset.1 hmixins).2 hfree hp
  | @taken owner name e rest p p' inherited r r₁ r' hname hq hstack he hrest ihe ih =>
    -- the declaration that is taken up completes what has been put together for it
    obtain ⟨hkeeps₁, hinner⟩ := ihe hkeeps
    have hstems : FreeOfTransforms table e → StemsFrom table e (inherited.complete name e) :=
      fun hfree => (hinner e (List.Subset.refl _) hfree .empty).complete name
    obtain ⟨hkeeps', hrest'⟩ := ih (hkeeps₁.leave hname hstems)
    refine ⟨hkeeps', fun d hmixins hfree hp => ?_⟩
    obtain ⟨hmem, hmixins⟩ := List.cons_subset.1 hmixins
    have hdraws : DrawsOn table d e := .inr ⟨_, hmem, hname⟩
    exact hrest' d hmixins hfree (hp.merge ((hstems (hfree.drawsOn hdraws)).of_drawsOn hdraws))
  | @inline owner e rest p p' inherited r r₁ r' he hrest ihe ih =>
    obtain ⟨hkeeps₁, hinner⟩ := ihe hkeeps
    obtain ⟨hkeeps', hrest'⟩ := ih hkeeps₁
    refine ⟨hkeeps', fun d hmixins hfree hp => ?_⟩
    obtain ⟨hmem, hmixins⟩ := List.cons_subset.1 hmixins
    have hdraws : DrawsOn table d e := .inl hmem
    have hstems := (hinner e (List.Subset.refl _) (hfree.drawsOn hdraws) .empty).complete owner
    exact hrest' d hmixins hfree (hp.merge (hstems.of_drawsOn hdraws))
  | transform hrest ih =>
    obtain ⟨hkeeps', hrest'⟩ := ih hkeeps
    refine ⟨hkeeps', fun d hmixins hfree hp => ?_⟩
    exact absurd (List.cons_subset.1 hmixins).1 (hfree d .refl _)

/-- What is kept of a name stems from its declaration, if this is free of transforms. -/
theorem keepsStemming_run (table : RuleTable) : KeepsStemming table (Resolver.run table) := by
  obtain ⟨p', hrun⟩ := Runs.run table ⟨""⟩
  exact (hrun.stemming nofun).1

/-! ### The bounds -/

/-- **The rules of every name degrade within bounds**, whatever is wrong with the table. The rule
book has rules for the declared names alone. The rules of a declared name hold all that its
declaration lists literally, and have the direction that it gives itself; and if the declaration
is free of transforms, all types in them are listed literally, in the same field, by it or by one
that it leads to, and they have a direction only if one of these gives it to them. -/
theorem resolve_within_bounds (table : RuleTable) (forbidden : Forbidden) :
    (∀ name, (RuleBook.ofTable table forbidden).contains name = true ↔
        table.contains name = true) ∧
      ∀ name d, table.get? name = some d →
        (∀ f x, x ∈ d.literal f → x ∈ ((RuleBook.ofTable table forbidden).resolve name).get f) ∧
        (∀ mega, d.mega = some mega →
          ((RuleBook.ofTable table forbidden).resolve name).mega = mega) ∧
        (FreeOfTransforms table d →
          (∀ f x, x ∈ ((RuleBook.ofTable table forbidden).resolve name).get f →
            ∃ e, ReflTransGen (DrawsOn table) d e ∧ x ∈ e.literal f) ∧
          (((RuleBook.ofTable table forbidden).resolve name).mega = true →
            ∃ e, ReflTransGen (DrawsOn table) d e ∧ e.mega = some true)) := by
  refine ⟨fun name => by rw [contains_ofTable], fun name d hd => ?_⟩
  obtain ⟨inherited, q, hq, hcompletes⟩ := exists_completed hd
  rw [resolve_ofTable hq]
  refine ⟨fun f x hx => hcompletes.mem_of_literal hx, fun mega hmega => ?_, fun hfree => ?_⟩
  · rw [PartialRules.finish, hcompletes.mega_of_literal hmega, Option.getD_some]
  · have hstems := keepsStemming_run table name q hq d hd hfree
    refine ⟨hstems.types, fun hmega => hstems.mega ?_⟩
    rw [PartialRules.finish] at hmega
    cases hgiven : q.mega with
    | none => rw [hgiven] at hmega; cases hmega
    | some mega => rw [hgiven] at hmega; exact congrArg some hmega

/-- Two names on a circle, of which the second also has a declaration written in place. Whatever is
cut from the circle, the first name keeps the type that it lists itself, and is unmapped from no
type but the one that is listed in place. -/
theorem resolve_within_bounds_on_circle : ∃ (table : RuleTable) (d : Declaration),
    table.get? ⟨"A"⟩ = some d ∧ Mixes table ⟨"A"⟩ ⟨"B"⟩ ∧ Mixes table ⟨"B"⟩ ⟨"A"⟩ ∧
      FreeOfTransforms table d ∧ ∀ forbidden,
        ⟨"X"⟩ ∈ ((RuleBook.ofTable table forbidden).resolve ⟨"A"⟩).get .map ∧
        ∀ x ∈ ((RuleBook.ofTable table forbidden).resolve ⟨"A"⟩).get .unmap, x = ⟨"Y"⟩ := by
  let a : Declaration := (Declaration.empty.mixin (.named ⟨"B"⟩)).listing .map [⟨"X"⟩]
  let inner : Declaration := Declaration.empty.listing .unmap [⟨"Y"⟩]
  let b : Declaration := (Declaration.empty.mixin (.named ⟨"A"⟩)).mixin (.inline inner)
  let table : RuleTable := .ofList [(⟨"A"⟩, a), (⟨"B"⟩, b)]
  have ha : table.get? ⟨"A"⟩ = some a := by simp [table, SortedMap.ofList, SortedMap.insertAll]
  have hb : table.get? ⟨"B"⟩ = some b := by simp [table, SortedMap.ofList, SortedMap.insertAll]
  -- the three declarations draw on one another alone
  have hclosed : ∀ e, ReflTransGen (DrawsOn table) a e → e = a ∨ e = b ∨ e = inner := by
    intro e he
    induction he with
    | refl => exact .inl rfl
    | @tail e e' _ hdraws ih =>
      obtain rfl | rfl | rfl := ih
      · obtain hmem | ⟨name, hmem, hname⟩ := hdraws
        · cases List.mem_singleton.1 hmem
        · cases List.mem_singleton.1 hmem
          exact .inr (.inl (Option.some.inj (hname.symm.trans hb)))
      · obtain hmem | ⟨name, hmem, hname⟩ := hdraws
        · obtain hmem | hmem := List.mem_cons.1 hmem
          · cases hmem
          · cases List.mem_singleton.1 hmem
            exact .inr (.inr rfl)
        · obtain hmem | hmem := List.mem_cons.1 hmem
          · cases hmem
            exact .inl (Option.some.inj (hname.symm.trans ha))
          · cases List.mem_singleton.1 hmem
      · obtain hmem | ⟨name, hmem, -⟩ := hdraws
        · cases hmem
        · cases hmem
  have hfree : FreeOfTransforms table a := by
    intro e he t ht
    obtain rfl | rfl | rfl := hclosed e he <;> simp [a, b, inner, Declaration.empty,
      Declaration.mixin, Declaration.listing, Declaration.mixins] at ht
  refine ⟨table, a, ha, ⟨a, ha, by decide, contains_of_get? hb⟩,
    ⟨b, hb, by decide, contains_of_get? ha⟩, hfree, fun forbidden => ?_⟩
  obtain ⟨-, hbounds⟩ := resolve_within_bounds table forbidden
  obtain ⟨hlower, -, hupper⟩ := hbounds ⟨"A"⟩ a ha
  refine ⟨hlower .map _ (by decide), fun x hx => ?_⟩
  obtain ⟨e, he, hlisted⟩ := (hupper hfree).1 .unmap x hx
  obtain rfl | rfl | rfl := hclosed e he
  · exact absurd hlisted (SortedSet.not_mem_empty x)
  · exact absurd hlisted (SortedSet.not_mem_empty x)
  · exact List.mem_singleton.1 hlisted

end ObjectMapping
