import ObjectMapping.Proofs.Rules.Sources

/-! # Paths of mixins

A type comes into the rules of a name along mixins, from a declaration that lists it. On its way it
passes through declarations, each with an owner: the name that it has in the table or, written in
place, the name whose declaration it stands in. In the fields `map` and `unmap` the way is barred by
declarations of the type itself.

* **`Accumulates.mem_iff`** — going through mixins takes in what comes along their paths.
* **`mem_resolve_iff`** — the types in the rules of a grounded name are those that come to its
  declaration along some path. -/

namespace ObjectMapping

open Relation

/-- A **declaration with its owner**, by which self-references are judged. -/
structure Owned where
  /-- The owner. -/
  owner : TypeName
  /-- The declaration. -/
  declaration : Declaration

/-- The declaration that a mixin of an owner **brings** in, if any: a declared one by its name, with
that name as the owner, and one in place with the owner that it stands with. -/
inductive Mixin.Brings (table : RuleTable) (owner : TypeName) : Mixin → Owned → Prop where
  /-- A declaration is named. -/
  | named {name : TypeName} {e : Declaration} (he : table.get? name = some e) :
      Brings table owner (.named name) ⟨name, e⟩
  /-- A declaration is written in place. -/
  | inline {e : Declaration} : Brings table owner (.inline e) ⟨owner, e⟩

/-- What a mixin brings in is one declaration. -/
theorem Mixin.Brings.exists_iff {table : RuleTable} {owner : TypeName} {m : Mixin} {b : Owned}
    (h : m.Brings table owner b) {P : Owned → Prop} :
    (∃ c, m.Brings table owner c ∧ P c) ↔ P b := by
  refine ⟨fun ⟨c, hc, hP⟩ => ?_, fun hP => ⟨b, h, hP⟩⟩
  cases h with
  | named he =>
    cases hc with
    | named he' =>
      cases he.symm.trans he'
      exact hP
  | inline =>
    cases hc
    exact hP

namespace Owned

/-- A declaration **leads to** those that its mixins bring in. -/
def LeadsTo (table : RuleTable) (a b : Owned) : Prop :=
  ∃ m ∈ a.declaration.mixins, m.Brings table a.owner b

/-- A declaration leads to another one **past a type** when the type does not own the first. -/
def LeadsPast (table : RuleTable) (x : TypeName) (a b : Owned) : Prop :=
  a.LeadsTo table b ∧ a.owner ≠ x

/-- A declaration **takes** a type in a field **over** from those that it leads to, unless the field is
`map` or `unmap` and the type is its owner. -/
def TakesOver (table : RuleTable) (f : RuleField) (x : TypeName) (a b : Owned) : Prop :=
  a.LeadsTo table b ∧ ¬ ((f = .map ∨ f = .unmap) ∧ x = a.owner)

/-- A declaration **receives** a type in a field when it lists the type itself, or takes it over from
one that receives it: there is a path to a declaration that lists the type, and all before that one
take it over. -/
def Receives (table : RuleTable) (f : RuleField) (x : TypeName) (a : Owned) : Prop :=
  ∃ b, ReflTransGen (TakesOver table f x) a b ∧ x ∈ b.declaration.literal f

end Owned

variable {table : RuleTable} {name owner x : TypeName} {f : RuleField} {mixins : List Mixin}
  {d e : Declaration} {p inherited result : PartialRules} {a b : Owned}

/-! ### Where paths lead -/

/-- What a declaration leads to is what it draws on. -/
theorem Owned.LeadsTo.drawsOn (h : a.LeadsTo table b) :
    DrawsOn table a.declaration b.declaration := by
  obtain ⟨m, hm, hbrings⟩ := h
  cases hbrings with
  | named he => exact .inr ⟨_, hm, he⟩
  | inline => exact .inl hm

/-- A declaration leads to all that it draws on, with some owner. -/
theorem DrawsOn.exists_leadsTo (h : DrawsOn table d e) (owner : TypeName) :
    ∃ owner', Owned.LeadsTo table ⟨owner, d⟩ ⟨owner', e⟩ := by
  obtain hmem | ⟨name, hmem, he⟩ := h
  · exact ⟨owner, _, hmem, .inline⟩
  · exact ⟨name, _, hmem, .named he⟩

/-- **Paths of mixins lead to all declarations that are drawn on**, and to no others. -/
theorem reflTransGen_leadsTo_iff (owner : TypeName) : (∃ owner', ReflTransGen
    (Owned.LeadsTo table) ⟨owner, d⟩ ⟨owner', e⟩) ↔ ReflTransGen (DrawsOn table) d e := by
  constructor
  · rintro ⟨owner', h⟩
    exact h.lift Owned.declaration fun _ _ h => h.drawsOn
  · intro h
    induction h with
    | refl => exact ⟨owner, .refl⟩
    | tail _ hdraws ih =>
      obtain ⟨owner', hlead⟩ := ih
      obtain ⟨owner'', hlast⟩ := hdraws.exists_leadsTo owner'
      exact ⟨owner'', hlead.tail hlast⟩

/-! ### What is received -/

/-- A declaration receives what it lists, and what it takes over of what others receive. -/
theorem Owned.receives_iff : a.Receives table f x ↔ x ∈ a.declaration.literal f ∨
    (∃ b, a.LeadsTo table b ∧ b.Receives table f x) ∧
      ¬ ((f = .map ∨ f = .unmap) ∧ x = a.owner) := by
  constructor
  · rintro ⟨b, hpath, hlisted⟩
    obtain rfl | ⟨c, ⟨hlead, hkept⟩, hrest⟩ := hpath.cases_head
    · exact .inl hlisted
    · exact .inr ⟨⟨c, hlead, b, hrest, hlisted⟩, hkept⟩
  · rintro (hlisted | ⟨⟨b, hlead, c, hpath, hlisted⟩, hkept⟩)
    · exact ⟨a, .refl, hlisted⟩
    · exact ⟨c, hpath.head ⟨hlead, hkept⟩, hlisted⟩

/-- In fields from which no owner is dropped a declaration receives all that is listed by those that
it draws on. -/
theorem Owned.receives_iff_of_kept (hf : ¬ (f = .map ∨ f = .unmap)) :
    Receives table f x ⟨owner, d⟩ ↔ ∃ e, ReflTransGen (DrawsOn table) d e ∧ x ∈ e.literal f := by
  have htakes : TakesOver table f x = LeadsTo table := by
    funext a b
    exact propext (and_iff_left fun h => hf h.1)
  rw [Receives, htakes]
  constructor
  · rintro ⟨b, hpath, hlisted⟩
    exact ⟨b.declaration, (reflTransGen_leadsTo_iff _).1 ⟨_, hpath⟩, hlisted⟩
  · rintro ⟨e, hpath, hlisted⟩
    obtain ⟨owner', hpath⟩ := (reflTransGen_leadsTo_iff _).2 hpath
    exact ⟨_, hpath, hlisted⟩

/-- In the other fields it receives what is listed at the end of a path that leads past the type. -/
theorem Owned.receives_iff_of_dropped (hf : f = .map ∨ f = .unmap) :
    a.Receives table f x ↔
      ∃ b, ReflTransGen (LeadsPast table x) a b ∧ x ∈ b.declaration.literal f := by
  have htakes : TakesOver table f x = LeadsPast table x := by
    funext a b
    exact propext (and_congr_right fun _ => not_congr ⟨fun h => h.2.symm, fun h => ⟨hf, h.symm⟩⟩)
  rw [Receives, htakes]

/-! ### Meanings -/

/-- Before anything is taken in there are no types. -/
theorem PartialRules.not_mem_get_empty : x ∉ PartialRules.empty.get f := by
  rw [get, empty, FieldSets.get_empty]
  exact SortedSet.not_mem_empty x

/-- A declaration that completes what its mixins bring in has the types that it receives. -/
theorem Completes.mem_iff_receives (h : Completes owner d inherited result)
    (hinherited : x ∈ inherited.get f ↔ x ∈ PartialRules.empty.get f ∨
      ∃ m ∈ d.mixins, ∃ b, m.Brings table owner b ∧ b.Receives table f x) :
    x ∈ result.get f ↔ Owned.Receives table f x ⟨owner, d⟩ := by
  have hleads : (∃ m ∈ d.mixins, ∃ b, m.Brings table owner b ∧ b.Receives table f x) ↔
      ∃ b, Owned.LeadsTo table ⟨owner, d⟩ b ∧ b.Receives table f x :=
    ⟨fun ⟨m, hm, b, hbrings, hb⟩ => ⟨b, ⟨m, hm, hbrings⟩, hb⟩,
      fun ⟨b, ⟨m, hm, hbrings⟩, hb⟩ => ⟨m, hm, b, hbrings, hb⟩⟩
  rw [h.mem, Owned.receives_iff, hinherited, or_iff_right PartialRules.not_mem_get_empty, hleads]

/-- **Going through mixins takes in what the declarations receive that they bring in**, as far as the
mixins are those of a declaration free of transforms. -/
theorem Accumulates.mem_iff (h : Accumulates table owner mixins p result)
    (hmixins : mixins ⊆ d.mixins) (hfree : FreeOfTransforms table d) :
    x ∈ result.get f ↔ x ∈ p.get f ∨
      ∃ m ∈ mixins, ∃ b, m.Brings table owner b ∧ b.Receives table f x := by
  induction h generalizing d with
  | nil => simp
  | @named owner name e rest p inherited meaning taken result hname hinherited hmeaning htaken hrest
      ihinherited ihrest =>
    obtain ⟨hmem, hrestMixins⟩ := List.cons_subset.1 hmixins
    have hbrings : Mixin.Brings table owner (.named name) ⟨name, e⟩ := .named hname
    have hreceives := hmeaning.mem_iff_receives
      (ihinherited (List.Subset.refl _) (hfree.drawsOn (.inr ⟨_, hmem, hname⟩)))
    rw [ihrest hrestMixins hfree, htaken.mem, hreceives, List.exists_mem_cons_iff,
      hbrings.exists_iff, or_assoc]
  | @undeclared owner name rest p result hname hrest ih =>
    have hnone : ¬ ∃ b, Mixin.Brings table owner (.named name) b ∧ b.Receives table f x := by
      rintro ⟨b, hbrings, -⟩
      cases hbrings with
      | named he => cases hname.symm.trans he
    rw [ih (List.cons_subset.1 hmixins).2 hfree, List.exists_mem_cons_iff, or_iff_right hnone]
  | @inline owner e rest p inherited meaning taken result hinherited hmeaning htaken hrest
      ihinherited ihrest =>
    obtain ⟨hmem, hrestMixins⟩ := List.cons_subset.1 hmixins
    have hbrings : Mixin.Brings table owner (.inline e) ⟨owner, e⟩ := .inline
    have hreceives := hmeaning.mem_iff_receives
      (ihinherited (List.Subset.refl _) (hfree.drawsOn (.inl hmem)))
    rw [ihrest hrestMixins hfree, htaken.mem, hreceives, List.exists_mem_cons_iff,
      hbrings.exists_iff, or_assoc]
  | transform hrest ih => exact absurd (hmixins List.mem_cons_self) (hfree d .refl _)

/-- **The types in the rules of a grounded name are those that its declaration receives**, if this is
free of transforms. -/
theorem mem_resolve_iff (hd : table.get? name = some d) (hgrounded : Grounded table name)
    (hfree : FreeOfTransforms table d) (forbidden : Forbidden) :
    x ∈ ((RuleBook.ofTable table forbidden).resolve name).get f ↔
      Owned.Receives table f x ⟨name, d⟩ := by
  obtain ⟨p, ⟨inherited, hinherited, hcompletes⟩, -, -, hbook⟩ := resolve_eq_meaning hd hgrounded
  rw [(hbook forbidden).1]
  exact hcompletes.mem_iff_receives (hinherited.mem_iff (List.Subset.refl _) hfree)

end ObjectMapping
