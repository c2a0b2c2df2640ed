import ObjectMapping.Proofs.Rules.Diagnosis
import ObjectMapping.Proofs.Rules.Paths

/-! # What is inherited

The rules of a name are what its declaration receives along paths of mixins, so the order of mixins
does not matter for the types in them. Declarations are `Reordered` when mixins have changed places,
in them or in declarations written in place; in tables reordered name by name the same paths lead to
the same literal types.

* **`Reorders.receives`** — reordered declarations receive the same types.
* **`exists_dropping`** — a type listed somewhere below a name is in its rules, unless it is dropped on
  the way as a self-reference.
* **`inherited_along_paths`** — the rules of a name by paths of mixins, and what follows from it. -/

namespace ObjectMapping

open Relation

variable {table table' : RuleTable} {name n x : TypeName} {f : RuleField} {d d' e : Declaration}
  {a a' b : Owned}

/-! ### Reordered declarations -/

/-- A declaration **reordered**: mixins change places in it, or in declarations written in place in
it, at any depth. -/
inductive Declaration.Reordered : Declaration → Declaration → Prop where
  /-- The mixins change places. -/
  | order {mixins mixins' : List Mixin} {sets : FieldSets} {mega : Option Bool}
      (h : mixins.Perm mixins') : Reordered (.mk mixins sets mega) (.mk mixins' sets mega)
  /-- A declaration written in place is reordered. -/
  | inside {d e : Declaration} {before after : List Mixin} {sets : FieldSets} {mega : Option Bool}
      (h : Reordered d e) : Reordered (.mk (before ++ .inline d :: after) sets mega)
        (.mk (before ++ .inline e :: after) sets mega)
  /-- One change comes after another. -/
  | trans {d e d' : Declaration} (h : Reordered d e) (h' : Reordered e d') : Reordered d d'

/-- A mixin with the declaration reordered that is written there, if any. -/
inductive Mixin.Reordered : Mixin → Mixin → Prop where
  /-- The mixin is as it was. -/
  | refl (m : Mixin) : Reordered m m
  /-- The declaration in place is reordered. -/
  | inline {d e : Declaration} (h : d.Reordered e) : Reordered (.inline d) (.inline e)

namespace Declaration.Reordered

/-- A declaration left as it is counts as reordered. -/
theorem refl (d : Declaration) : d.Reordered d := by
  cases d
  exact .order (.refl _)

/-- What has been reordered can be put back. -/
theorem symm (h : d.Reordered e) : e.Reordered d := by
  induction h with
  | order h => exact .order h.symm
  | inside h ih => exact .inside ih
  | trans h h' ih ih' => exact ih'.trans ih

/-- Reordering leaves the literal sets as they are. -/
theorem sets_eq (h : d.Reordered e) : d.sets = e.sets := by
  induction h with
  | order h => rfl
  | inside h ih => rfl
  | trans h h' ih ih' => exact ih.trans ih'

/-- Reordering keeps every mixin, reordered itself. -/
theorem exists_mixin (h : d.Reordered e) {m : Mixin} (hm : m ∈ d.mixins) :
    ∃ m' ∈ e.mixins, m.Reordered m' := by
  induction h generalizing m with
  | order h => exact ⟨m, h.mem_iff.1 hm, .refl m⟩
  | @inside d e before after sets mega h ih =>
    obtain hm | hm := List.mem_append.1 hm
    · exact ⟨m, List.mem_append_left _ hm, .refl m⟩
    · obtain rfl | hm := List.mem_cons.1 hm
      · exact ⟨.inline e, List.mem_append_right _ List.mem_cons_self, .inline h⟩
      · exact ⟨m, List.mem_append_right _ (List.mem_cons_of_mem _ hm), .refl m⟩
  | trans h h' ih ih' =>
    obtain ⟨m₁, hm₁, hfirst⟩ := ih hm
    obtain ⟨m₂, hm₂, hsecond⟩ := ih' hm₁
    refine ⟨m₂, hm₂, ?_⟩
    cases hfirst with
    | refl => exact hsecond
    | inline hfirst =>
      cases hsecond with
      | refl => exact .inline hfirst
      | inline hsecond => exact .inline (hfirst.trans hsecond)

end Declaration.Reordered

/-- A mixin names what one of a list of mixins names. -/
theorem Mixin.mem_mentionedIn {mixins : List Mixin} :
    name ∈ mentionedIn mixins ↔ ∃ m ∈ mixins, name ∈ m.mentioned := by
  induction mixins with
  | nil => simp [mentionedIn]
  | cons m rest ih => simp [mentionedIn, ih]

/-- Reordered declarations name the same mixins. -/
theorem Declaration.Reordered.mem_mentioned (h : d.Reordered e) :
    name ∈ d.mentioned ↔ name ∈ e.mentioned := by
  induction h with
  | order h => simp only [mentioned, Mixin.mem_mentionedIn, h.mem_iff]
  | inside h ih =>
    simp only [mentioned, Mixin.mem_mentionedIn, List.mem_append, List.mem_cons, or_and_right,
      exists_or, exists_eq_left, Mixin.mentioned, ih]
  | trans h h' ih ih' => exact ih.trans ih'

/-! ### Reordered tables -/

/-- Tables declare the same names, with **reordered** declarations. -/
def Reorders (table table' : RuleTable) : Prop :=
  ∀ name, Option.Rel Declaration.Reordered (table.get? name) (table'.get? name)

namespace Reorders

/-- What is declared in a table is declared in the other, reordered. -/
theorem exists_declaration (h : Reorders table table') (hd : table.get? name = some d) :
    ∃ d', table'.get? name = some d' ∧ d.Reordered d' := by
  have hname := h name
  rw [hd] at hname
  generalize table'.get? name = found at hname
  cases hname with
  | some hreordered => exact ⟨_, rfl, hreordered⟩

/-- Tables are reordered in both directions. -/
theorem symm (h : Reorders table table') : Reorders table' table := by
  intro name
  have hname := h name
  generalize table.get? name = found at hname ⊢
  generalize table'.get? name = found' at hname ⊢
  cases hname with
  | some hreordered => exact .some hreordered.symm
  | none => exact .none

/-- In reordered tables names mix in the same names. -/
theorem mixes (h : Reorders table table') {a b : TypeName} (hmixes : Mixes table a b) :
    Mixes table' a b := by
  obtain ⟨d, hd, hb, hdeclared⟩ := hmixes
  obtain ⟨d', hd', hreordered⟩ := h.exists_declaration hd
  obtain ⟨e, he⟩ := Option.isSome_iff_exists.1 hdeclared
  obtain ⟨e', he', -⟩ := h.exists_declaration he
  exact ⟨d', hd', hreordered.mem_mentioned.1 hb, contains_of_get? he'⟩

/-- In reordered tables the same names are grounded. -/
theorem grounded (h : Reorders table table') (hgrounded : Grounded table n) :
    Grounded table' n :=
  fun m hm hcircle => hgrounded m (ReflTransGen.mono (fun _ _ => h.symm.mixes) _ _ hm)
    (TransGen.mono (fun _ _ => h.symm.mixes) _ _ hcircle)

end Reorders

/-- A declaration with its owner is **reordered** when its owner stays and the declaration is
reordered. -/
structure Owned.Reordered (a b : Owned) : Prop where
  owner : a.owner = b.owner
  declaration : a.declaration.Reordered b.declaration

namespace Reorders

/-- A reordered declaration leads to reordered ones. -/
theorem leadsTo (h : Reorders table table') (ha : a.Reordered a') (hlead : a.LeadsTo table b) :
    ∃ b', a'.LeadsTo table' b' ∧ b.Reordered b' := by
  obtain ⟨m, hm, hbrings⟩ := hlead
  obtain ⟨m', hm', hreordered⟩ := ha.declaration.exists_mixin hm
  cases hbrings with
  | named he =>
    cases hreordered
    obtain ⟨e', he', hreordered⟩ := h.exists_declaration he
    exact ⟨_, ⟨_, hm', .named he'⟩, rfl, hreordered⟩
  | inline =>
    cases hreordered with
    | refl => exact ⟨_, ⟨_, hm', .inline⟩, ha.owner, .refl _⟩
    | inline hreordered => exact ⟨_, ⟨_, hm', .inline⟩, ha.owner, hreordered⟩

/-- So do paths. -/
theorem path (h : Reorders table table') (ha : a.Reordered a')
    (hpath : ReflTransGen (Owned.LeadsTo table) a b) :
    ∃ b', ReflTransGen (Owned.LeadsTo table') a' b' ∧ b.Reordered b' := by
  induction hpath with
  | refl => exact ⟨a', .refl, ha⟩
  | tail _ hlead ih =>
    obtain ⟨c', hpath', hc⟩ := ih
    obtain ⟨b', hlead', hb⟩ := h.leadsTo hc hlead
    exact ⟨b', hpath'.tail hlead', hb⟩

/-- **Reordered declarations receive the same types.** -/
theorem receives (h : Reorders table table') (ha : a.Reordered a')
    (hreceives : a.Receives table f x) : a'.Receives table' f x := by
  obtain ⟨b, hpath, hlisted⟩ := hreceives
  induction hpath using ReflTransGen.head_induction_on generalizing a' with
  | refl =>
    rw [Declaration.literal, ha.declaration.sets_eq] at hlisted
    exact ⟨a', .refl, hlisted⟩
  | head htakes _ ih =>
    obtain ⟨hlead, hkept⟩ := htakes
    obtain ⟨c', hlead', hc⟩ := h.leadsTo ha hlead
    rw [ha.owner] at hkept
    exact Owned.receives_iff.2 (.inr ⟨⟨c', hlead', ih hc⟩, hkept⟩)

/-- Reordered declarations are free of the same transforms. -/
theorem freeOfTransforms (h : Reorders table table') (hd : d.Reordered d')
    (hfree : FreeOfTransforms table d) : FreeOfTransforms table' d' := by
  intro e' he' t ht
  -- paths need an owner to start with, and any will do
  have hstart : Owned.Reordered ⟨⟨""⟩, d'⟩ ⟨⟨""⟩, d⟩ := ⟨rfl, hd.symm⟩
  obtain ⟨owner, hpath'⟩ := (reflTransGen_leadsTo_iff ⟨""⟩).2 he'
  obtain ⟨b, hpath, hb⟩ := h.symm.path hstart hpath'
  obtain ⟨m, hm, hreordered⟩ := hb.declaration.exists_mixin ht
  cases hreordered
  exact hfree b.declaration ((reflTransGen_leadsTo_iff _).1 ⟨_, hpath⟩) t hm

end Reorders

/-! ### What is dropped on the way -/

/-- A declaration **leads on** to another one for an owner when the first is the owner's. -/
def Owned.LeadsOnFor (table : RuleTable) (owner : TypeName) (a b : Owned) : Prop :=
  a.LeadsTo table b ∧ a.owner = owner

mutual

/-- A path leads to a declaration that is named, through declarations of one owner alone. -/
theorem Declaration.path_to_mentioned (he : table.get? name = some e) (owner : TypeName) :
    (d : Declaration) → name ∈ d.mentioned →
      ReflTransGen (Owned.LeadsOnFor table owner) ⟨owner, d⟩ ⟨name, e⟩
  | .mk mixins sets mega, h => by
    obtain ⟨m, hm, b, hbrings, hpath⟩ := Mixin.path_to_mentionedIn he owner mixins h
    exact hpath.head ⟨⟨m, hm, hbrings⟩, rfl⟩

/-- So it does from what a mixin brings in. -/
theorem Mixin.path_to_mentioned (he : table.get? name = some e) (owner : TypeName) :
    (m : Mixin) → name ∈ m.mentioned → ∃ b, m.Brings table owner b ∧
      ReflTransGen (Owned.LeadsOnFor table owner) b ⟨name, e⟩
  | .named _, h => by
    obtain rfl := List.mem_singleton.1 h
    exact ⟨_, .named he, .refl⟩
  | .inline d, h => ⟨_, .inline, Declaration.path_to_mentioned he owner d h⟩
  | .transform _, h => by cases h

/-- So it does from what one of a list of mixins brings in. -/
theorem Mixin.path_to_mentionedIn (he : table.get? name = some e) (owner : TypeName) :
    (mixins : List Mixin) → name ∈ Mixin.mentionedIn mixins →
      ∃ m ∈ mixins, ∃ b, m.Brings table owner b ∧ ReflTransGen (Owned.LeadsOnFor table owner) b ⟨name, e⟩
  | [], h => by cases h
  | m :: rest, h => by
    obtain h | h := List.mem_append.1 h
    · exact ⟨m, List.mem_cons_self, Mixin.path_to_mentioned he owner m h⟩
    · obtain ⟨m', hm', hpath⟩ := Mixin.path_to_mentionedIn he owner rest h
      exact ⟨m', List.mem_cons_of_mem _ hm', hpath⟩

end

/-- **A name drops nothing but itself** of what the names receive that its declaration names. -/
theorem self_of_dropped (he : table.get? name = some e) (hmem : name ∈ d.mentioned)
    (hname : Owned.Receives table f x ⟨name, e⟩) (hn : ¬ Owned.Receives table f x ⟨n, d⟩) :
    (f = .map ∨ f = .unmap) ∧ x = n := by
  by_contra hkept
  obtain ⟨b, hpath, hlisted⟩ := hname
  have hhead : ReflTransGen (Owned.TakesOver table f x) ⟨n, d⟩ ⟨name, e⟩ := by
    refine ReflTransGen.mono (fun a b h => ?_) _ _ (Declaration.path_to_mentioned he n d hmem)
    exact ⟨h.1, h.2 ▸ hkept⟩
  exact hn ⟨b, hhead.trans hpath, hlisted⟩

/-- **What is listed at the end of a path is received at its beginning**, unless on the way the type
is dropped from `map` or `unmap` by a declaration of its own that does not list it. -/
theorem exists_dropping (hpath : ReflTransGen (Owned.LeadsTo table) a b)
    (hlisted : x ∈ b.declaration.literal f) (ha : ¬ a.Receives table f x) :
    (f = .map ∨ f = .unmap) ∧ ∃ c, ReflTransGen (Owned.LeadsTo table) a c ∧
      TransGen (Owned.LeadsTo table) c b ∧ c.owner = x ∧ x ∉ c.declaration.literal f := by
  induction hpath using ReflTransGen.head_induction_on with
  | refl => exact absurd ⟨b, .refl, hlisted⟩ ha
  | @head a c hlead hrest ih =>
    by_cases hc : c.Receives table f x
    · -- the first declaration on the path drops the type
      have hdropped : (f = .map ∨ f = .unmap) ∧ x = a.owner := by
        by_contra hkept
        exact ha (Owned.receives_iff.2 (.inr ⟨⟨c, hlead, hc⟩, hkept⟩))
      exact ⟨hdropped.1, a, .refl, .head' hlead hrest, hdropped.2.symm,
        fun hself => ha ⟨a, .refl, hself⟩⟩
    · obtain ⟨hf, c', hreach, hback, hdropped⟩ := ih hc
      exact ⟨hf, c', hreach.head hlead, hback, hdropped⟩

/-! ### The rules of a name -/

/-- What a declaration free of transforms names is free of them. -/
theorem FreeOfTransforms.mentioned (h : FreeOfTransforms table d) (hmem : name ∈ d.mentioned)
    (he : table.get? name = some e) : FreeOfTransforms table e := by
  have hpath : ReflTransGen (Owned.LeadsTo table) ⟨name, d⟩ ⟨name, e⟩ :=
    ReflTransGen.mono (fun _ _ h => h.1) _ _ (Declaration.path_to_mentioned he name d hmem)
  exact fun e' he' => h e' (((reflTransGen_leadsTo_iff _).1 ⟨_, hpath⟩).trans he')

/-- A declaration without transforms is free of them if what it draws on is. -/
theorem FreeOfTransforms.of_drawsOn (htransform : ∀ t, .transform t ∉ d.mixins)
    (h : ∀ e, DrawsOn table d e → FreeOfTransforms table e) : FreeOfTransforms table d := by
  intro e he
  obtain rfl | ⟨e', hdraws, hrest⟩ := he.cases_head
  · exact htransform
  · exact h e' hdraws e hrest

/-- **The rules of a name by paths of mixins.** Let a declared name be grounded and its declaration
free of transforms. The types in its fields `create`, `externalMap`, `externalUnmap` and `indirect`
are those that its declaration lists, or one that it draws on. The types in its fields `map` and
`unmap` are those that a declaration lists to which mixins lead without passing through another one
that the type owns. So a name drops nothing but itself of the rules of what it mixes in, and
nothing that is listed anywhere below it is missing unless it has been dropped as a self-reference on
the way; and reordering mixins anywhere in the table leaves its fields as they are. -/
theorem inherited_along_paths (hd : table.get? n = some d) (hgrounded : Grounded table n)
    (hfree : FreeOfTransforms table d) (forbidden : Forbidden) :
    (∀ f ∈ [.create, .externalMap, .externalUnmap, .indirect], ∀ x,
      x ∈ ((RuleBook.ofTable table forbidden).resolve n).get f ↔
        ∃ e, ReflTransGen (DrawsOn table) d e ∧ x ∈ e.literal f) ∧
    (∀ f ∈ [.map, .unmap], ∀ x,
      x ∈ ((RuleBook.ofTable table forbidden).resolve n).get f ↔
        ∃ b, ReflTransGen (Owned.LeadsPast table x) ⟨n, d⟩ b ∧ x ∈ b.declaration.literal f) ∧
    (∀ m, Mixes table n m → ∀ f x,
      x ∈ ((RuleBook.ofTable table forbidden).resolve m).get f →
      x ∉ ((RuleBook.ofTable table forbidden).resolve n).get f → (f = .map ∨ f = .unmap) ∧ x = n) ∧
    (∀ b, ReflTransGen (Owned.LeadsTo table) ⟨n, d⟩ b → ∀ f, ∀ x ∈ b.declaration.literal f,
      x ∉ ((RuleBook.ofTable table forbidden).resolve n).get f →
      (f = .map ∨ f = .unmap) ∧ ∃ c, ReflTransGen (Owned.LeadsTo table) ⟨n, d⟩ c ∧
        TransGen (Owned.LeadsTo table) c b ∧ c.owner = x ∧ x ∉ c.declaration.literal f) ∧
    ∀ table' forbidden', Reorders table table' →
      ((RuleBook.ofTable table' forbidden').resolve n).sets =
        ((RuleBook.ofTable table forbidden).resolve n).sets := by
  have hrules : ∀ f x, x ∈ ((RuleBook.ofTable table forbidden).resolve n).get f ↔
      Owned.Receives table f x ⟨n, d⟩ :=
    fun f x => mem_resolve_iff hd hgrounded hfree forbidden
  refine ⟨fun f hf x => ?_, fun f hf x => ?_, fun m hmixes f x hm hn => ?_,
    fun b hpath f x hlisted hn => ?_, fun table' forbidden' hreorders => ?_⟩
  · have hkept : ¬ (f = .map ∨ f = .unmap) := by
      rintro (rfl | rfl) <;> revert hf <;> decide
    rw [hrules, Owned.receives_iff_of_kept hkept]
  · have hdropped : f = .map ∨ f = .unmap := by simpa using hf
    rw [hrules, Owned.receives_iff_of_dropped hdropped]
  · obtain ⟨d₁, hd₁, hmem, hdeclared⟩ := hmixes
    cases hd.symm.trans hd₁
    obtain ⟨e, he⟩ := Option.isSome_iff_exists.1 hdeclared
    have hgroundedM := hgrounded.mixes ⟨d, hd, hmem, hdeclared⟩
    have hfreeM := hfree.mentioned hmem he
    rw [mem_resolve_iff he hgroundedM hfreeM] at hm
    rw [hrules] at hn
    exact self_of_dropped he hmem hm hn
  · rw [hrules] at hn
    exact exists_dropping hpath hlisted hn
  · obtain ⟨d', hd', hreordered⟩ := hreorders.exists_declaration hd
    have hstart : Owned.Reordered ⟨n, d⟩ ⟨n, d'⟩ := ⟨rfl, hreordered⟩
    have hback : Owned.Reordered ⟨n, d'⟩ ⟨n, d⟩ := ⟨rfl, hreordered.symm⟩
    refine FieldSets.ext fun f => SortedSet.ext fun x => ?_
    refine (mem_resolve_iff hd' (hreorders.grounded hgrounded)
      (hreorders.freeOfTransforms hreordered hfree) forbidden').trans ?_
    refine Iff.trans ?_ (hrules f x).symm
    exact ⟨hreorders.symm.receives hback, hreorders.receives hstart⟩

/-- A name drops itself from what it inherits. The second name is dropped by itself on one path and
comes along another one, through a declaration in place; and the first two mixins may change places. -/
theorem inherited_along_paths_around_drop : ∃ (table : RuleTable) (d d' : Declaration),
    table.get? ⟨"A"⟩ = some d ∧ d.mixins ≠ d'.mixins ∧ ∀ forbidden,
      ⟨"B"⟩ ∈ ((RuleBook.ofTable table forbidden).resolve ⟨"A"⟩).get .create ∧
      ⟨"B"⟩ ∈ ((RuleBook.ofTable table forbidden).resolve ⟨"A"⟩).get .map ∧
      ⟨"A"⟩ ∉ ((RuleBook.ofTable table forbidden).resolve ⟨"A"⟩).get .map ∧
      ((RuleBook.ofTable (table.insert ⟨"A"⟩ d') forbidden).resolve ⟨"A"⟩).sets =
        ((RuleBook.ofTable table forbidden).resolve ⟨"A"⟩).sets := by
  let inner : Declaration := .mk [.named ⟨"C"⟩] ∅ none
  let a : Declaration := .mk [.named ⟨"B"⟩, .inline inner] ∅ none
  let a' : Declaration := .mk [.inline inner, .named ⟨"B"⟩] ∅ none
  let b : Declaration := inner.listing .map [⟨"A"⟩]
  let c : Declaration := (Declaration.empty.listing .map [⟨"B"⟩]).listing .create [⟨"B"⟩]
  let table : RuleTable := .ofList [(⟨"A"⟩, a), (⟨"B"⟩, b), (⟨"C"⟩, c)]
  have ha : table.get? ⟨"A"⟩ = some a := by simp [table, SortedMap.ofList, SortedMap.insertAll]
  have hb : table.get? ⟨"B"⟩ = some b := by simp [table, SortedMap.ofList, SortedMap.insertAll]
  have hc : table.get? ⟨"C"⟩ = some c := by simp [table, SortedMap.ofList, SortedMap.insertAll]
  have hgrounded : Grounded table ⟨"A"⟩ := by
    have groundedC : Grounded table ⟨"C"⟩ := by
      refine .of_mixes ?_
      rintro y ⟨d, hd, hy, -⟩
      cases hc.symm.trans hd
      cases hy
    have groundedB : Grounded table ⟨"B"⟩ := by
      refine .of_mixes ?_
      rintro y ⟨d, hd, hy, -⟩
      cases hb.symm.trans hd
      obtain rfl := List.mem_singleton.1 hy
      exact groundedC
    refine .of_mixes ?_
    rintro y ⟨d, hd, hy, -⟩
    cases hd.symm.trans ha
    obtain rfl | rfl : y = ⟨"B"⟩ ∨ y = ⟨"C"⟩ := by
      simpa [a, inner, Declaration.mentioned, Mixin.mentionedIn, Mixin.mentioned] using hy
    · exact groundedB
    · exact groundedC
  have hfree : FreeOfTransforms table a := by
    have freeC : FreeOfTransforms table c := by
      refine .of_drawsOn (fun t ht => by cases ht) fun e he => ?_
      obtain hmem | ⟨name, hmem, -⟩ := he
      · cases hmem
      · cases hmem
    have freeB : ∀ sets, FreeOfTransforms table (.mk [.named ⟨"C"⟩] sets none) := by
      intro sets
      refine .of_drawsOn (fun t ht => by cases List.mem_singleton.1 ht) fun e he => ?_
      obtain hmem | ⟨name, hmem, he⟩ := he
      · cases List.mem_singleton.1 hmem
      · cases List.mem_singleton.1 hmem
        cases hc.symm.trans he
        exact freeC
    refine .of_drawsOn (fun t ht => ?_) fun e he => ?_
    · obtain ht | ht := List.mem_cons.1 ht
      · cases ht
      · cases List.mem_singleton.1 ht
    · obtain hmem | ⟨name, hmem, he⟩ := he
      · obtain hmem | hmem := List.mem_cons.1 hmem
        · cases hmem
        · cases List.mem_singleton.1 hmem
          exact freeB ∅
      · obtain hmem | hmem := List.mem_cons.1 hmem
        · cases hmem
          cases hb.symm.trans he
          exact freeB _
        · cases List.mem_singleton.1 hmem
  have hleads : Owned.LeadsTo table ⟨⟨"A"⟩, a⟩ ⟨⟨"A"⟩, inner⟩ :=
    ⟨_, List.mem_cons_of_mem _ List.mem_cons_self, .inline⟩
  have hleads' : Owned.LeadsTo table ⟨⟨"A"⟩, inner⟩ ⟨⟨"C"⟩, c⟩ :=
    ⟨_, List.mem_cons_self, .named hc⟩
  have hpath : ReflTransGen (Owned.LeadsPast table ⟨"B"⟩) ⟨⟨"A"⟩, a⟩ ⟨⟨"C"⟩, c⟩ :=
    .head ⟨hleads, by decide⟩ (.single ⟨hleads', by decide⟩)
  have hreorders : Reorders table (table.insert ⟨"A"⟩ a') := by
    intro name
    rw [SortedMap.get?_insert]
    split
    · next hname =>
      rw [hname, ha]
      exact .some (.order (.swap _ _ _))
    · cases table.get? name with
      | none => exact .none
      | some d => exact .some (.refl d)
  refine ⟨table, a, a', ha, by simp [a, a', Declaration.mixins], fun forbidden => ?_⟩
  obtain ⟨hkept, hdropped, -, -, hsame⟩ := inherited_along_paths ha hgrounded hfree forbidden
  refine ⟨?_, ?_, ?_, hsame _ forbidden hreorders⟩
  · have hdraws : ReflTransGen (DrawsOn table) a c := .head hleads.drawsOn (.single hleads'.drawsOn)
    exact (hkept .create (by decide) _).2 ⟨c, hdraws, by decide⟩
  · exact (hdropped .map (by decide) _).2 ⟨_, hpath, by decide⟩
  · -- the first declaration on any path is one that the type owns, and it lists nothing
    rw [hdropped .map (by decide)]
    rintro ⟨e, hpath, hlisted⟩
    obtain rfl | ⟨_, ⟨-, howner⟩, -⟩ := hpath.cases_head
    · exact absurd hlisted (SortedSet.not_mem_empty _)
    · exact howner rfl

end ObjectMapping
