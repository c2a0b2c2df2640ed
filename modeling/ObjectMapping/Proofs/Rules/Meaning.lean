import ObjectMapping.Proofs.Rules.Run
import Mathlib.Logic.Relation

/-! # The meaning of a declaration

What a declaration means is said here without a cache, a stack or an order of names: one goes
through its mixins, takes in what each of them means, adds what the declaration lists itself and
drops the owner from what it did not list (`Declaration.Means`). Where the mixins of a table lead
round in a circle there may be no such meaning. A name is `Grounded` when no circle can be reached
from it, and then the resolver finds the meaning, whatever it has resolved before.

* **`Accumulates.unique`** — a declaration has one meaning at most.
* **`Runs.means`** — a run keeps only meanings of grounded names, and goes through meanings where
  its mixins name grounded names alone.
* **`resolve_eq_meaning`** — the rules that are kept for a grounded name are its meaning. -/

namespace ObjectMapping

/-! ### The graph of mixins -/

mutual

/-- The mixins that a declaration names, also in declarations written in place. -/
def Declaration.mentioned : Declaration → List TypeName
  | .mk mixins _ _ => Mixin.mentionedIn mixins

/-- The mixins that a mixin names. -/
def Mixin.mentioned : Mixin → List TypeName
  | .named name => [name]
  | .inline d => Declaration.mentioned d
  | .transform _ => []

/-- The mixins that a list of mixins names. -/
def Mixin.mentionedIn : List Mixin → List TypeName
  | [] => []
  | m :: rest => Mixin.mentioned m ++ Mixin.mentionedIn rest

end

/-- A property of the declared names that mixins name. -/
def Mixin.AllMentioned (table : RuleTable) (P : TypeName → Prop) (mixins : List Mixin) : Prop :=
  ∀ b ∈ Mixin.mentionedIn mixins, table.contains b = true → P b

section AllMentioned

variable {table : RuleTable} {P : TypeName → Prop} {rest : List Mixin}

/-- A named mixin names itself. -/
theorem Mixin.allMentioned_named {name : TypeName} :
    AllMentioned table P (.named name :: rest) ↔
      (table.contains name = true → P name) ∧ AllMentioned table P rest := by
  simp [AllMentioned, mentionedIn, mentioned, or_imp, forall_and]

/-- A declaration in place names what its mixins name. -/
theorem Mixin.allMentioned_inline {d : Declaration} :
    AllMentioned table P (.inline d :: rest) ↔
      AllMentioned table P d.mixins ∧ AllMentioned table P rest := by
  cases d
  simp [AllMentioned, mentionedIn, mentioned, Declaration.mentioned, Declaration.mixins, or_imp,
    forall_and]

/-- A transform names nothing. -/
theorem Mixin.allMentioned_transform {t : Transform} :
    AllMentioned table P (.transform t :: rest) ↔ AllMentioned table P rest := by
  simp [AllMentioned, mentionedIn, mentioned]

end AllMentioned

/-- A declared name **mixes in** another one that its declaration names. -/
def Mixes (table : RuleTable) (a b : TypeName) : Prop :=
  ∃ d, table.get? a = some d ∧ b ∈ d.mentioned ∧ table.contains b = true

/-- Whether a name mixes in another one can be read off its declaration. -/
theorem mixes_iff {table : RuleTable} {a b : TypeName} :
    Mixes table a b ↔
      b ∈ (table.get? a).elim [] Declaration.mentioned ∧ table.contains b = true := by
  unfold Mixes
  cases table.get? a <;> simp

instance (table : RuleTable) (a b : TypeName) : Decidable (Mixes table a b) :=
  decidable_of_iff _ mixes_iff.symm

/-- The declared names that the mixins of a declared name name are those that it mixes in. -/
theorem allMentioned_mixes {table : RuleTable} {name : TypeName} {d : Declaration}
    (hd : table.get? name = some d) : Mixin.AllMentioned table (Mixes table name) d.mixins := by
  intro b hb hdeclared
  refine ⟨d, hd, ?_, hdeclared⟩
  cases d
  rwa [Declaration.mentioned]

/-- A name is **grounded** when mixins do not lead from it into a circle. -/
def Grounded (table : RuleTable) (n : TypeName) : Prop :=
  ∀ m, Relation.ReflTransGen (Mixes table) n m → ¬ Relation.TransGen (Mixes table) m m

/-- What a grounded name mixes in is grounded. -/
theorem Grounded.mixes {table : RuleTable} {a b : TypeName} (ha : Grounded table a)
    (h : Mixes table a b) : Grounded table b :=
  fun m hm => ha m (.head h hm)

/-! ### Meanings -/

/-- Rules **take in** others: their types are those of both, and a direction of the others replaces
the present one. -/
structure TakesIn (p q result : PartialRules) : Prop where
  mem : ∀ f x, x ∈ result.get f ↔ x ∈ p.get f ∨ x ∈ q.get f
  mega : result.mega = match q.mega with
    | some mega => some mega
    | none => p.mega

/-- Inherited rules are **completed** by a declaration: the types are those that are inherited and
those that the declaration lists itself, but for the owner, which is in the fields `map` and `unmap`
only if the declaration lists it itself; and a literal direction replaces the inherited one. -/
structure Completes (owner : TypeName) (d : Declaration) (inherited result : PartialRules) :
    Prop where
  mem : ∀ f x, x ∈ result.get f ↔
    x ∈ d.literal f ∨ x ∈ inherited.get f ∧ ¬ ((f = .map ∨ f = .unmap) ∧ x = owner)
  mega : result.mega = match d.mega with
    | some mega => some mega
    | none => inherited.mega

/-- Going through **mixins** of an owner leads from rules to rules. -/
inductive Accumulates (table : RuleTable) :
    (owner : TypeName) → List Mixin → PartialRules → PartialRules → Prop where
  /-- There are no mixins left. -/
  | nil {owner : TypeName} {p : PartialRules} : Accumulates table owner [] p p
  /-- The meaning of a declaration that is named is taken in. -/
  | named {owner name : TypeName} {d : Declaration} {rest : List Mixin}
      {p inherited meaning taken result : PartialRules} (hname : table.get? name = some d)
      (hinherited : Accumulates table name d.mixins .empty inherited)
      (hmeaning : Completes name d inherited meaning) (htaken : TakesIn p meaning taken)
      (hrest : Accumulates table owner rest taken result) :
      Accumulates table owner (.named name :: rest) p result
  /-- A name that is not declared adds nothing. -/
  | undeclared {owner name : TypeName} {rest : List Mixin} {p result : PartialRules}
      (hname : table.get? name = none) (hrest : Accumulates table owner rest p result) :
      Accumulates table owner (.named name :: rest) p result
  /-- The meaning of a declaration in place is taken in, which has the same owner. -/
  | inline {owner : TypeName} {d : Declaration} {rest : List Mixin}
      {p inherited meaning taken result : PartialRules}
      (hinherited : Accumulates table owner d.mixins .empty inherited)
      (hmeaning : Completes owner d inherited meaning) (htaken : TakesIn p meaning taken)
      (hrest : Accumulates table owner rest taken result) :
      Accumulates table owner (.inline d :: rest) p result
  /-- A transform is applied. -/
  | transform {owner : TypeName} {t : Transform} {rest : List Mixin} {p result : PartialRules}
      (hrest : Accumulates table owner rest (t.apply p) result) :
      Accumulates table owner (.transform t :: rest) p result

/-- **What a declaration means** for an owner. -/
def Declaration.Means (table : RuleTable) (owner : TypeName) (d : Declaration)
    (meaning : PartialRules) : Prop :=
  ∃ inherited, Accumulates table owner d.mixins .empty inherited ∧
    Completes owner d inherited meaning

/-- Rules that agree in every field and in the direction are equal. -/
theorem PartialRules.ext_of_mem {p q : PartialRules} (hsets : ∀ f x, x ∈ p.get f ↔ x ∈ q.get f)
    (hmega : p.mega = q.mega) : p = q := by
  obtain ⟨sets, mega⟩ := p
  obtain ⟨sets', mega'⟩ := q
  obtain rfl : sets = sets' := FieldSets.ext fun f => SortedSet.ext (hsets f)
  obtain rfl : mega = mega' := hmega
  rfl

/-- Merging is the way to take in. -/
theorem takesIn_iff {p q result : PartialRules} : TakesIn p q result ↔ result = p.merge q := by
  have hmerge : TakesIn p q (p.merge q) := by
    refine ⟨fun f x => ?_, ?_⟩
    · rw [PartialRules.get_merge, SortedSet.mem_union]
    · unfold PartialRules.merge
      cases q.mega <;> rfl
  constructor
  · intro h
    refine PartialRules.ext_of_mem (fun f x => ?_) (h.mega.trans hmerge.mega.symm)
    rw [h.mem, hmerge.mem]
  · rintro rfl
    exact hmerge

/-- The rules that a declaration makes of inherited ones are the completed ones. -/
theorem completes_iff {owner : TypeName} {d : Declaration} {inherited result : PartialRules} :
    Completes owner d inherited result ↔ result = inherited.complete owner d := by
  have hcomplete : Completes owner d inherited (inherited.complete owner d) := by
    refine ⟨fun f x => ?_, ?_⟩
    · unfold PartialRules.complete
      simp only [PartialRules.get, FieldSets.get_build]
      split
      -- the owner is dropped from the field, which does not list it
      · next h =>
        rw [SortedSet.mem_erase, SortedSet.mem_union]
        constructor
        · rintro ⟨hx | hx, hne⟩
          · exact .inr ⟨hx, fun hf => hne hf.2⟩
          · exact .inl hx
        · rintro (hx | ⟨hx, hf⟩)
          · exact ⟨.inr hx, fun hne => h.2 (hne ▸ hx)⟩
          · exact ⟨.inl hx, fun hne => hf ⟨h.1, hne⟩⟩
      -- nothing is dropped: the field is another one, or lists the owner itself
      · next h =>
        rw [SortedSet.mem_union]
        constructor
        · rintro (hx | hx)
          · by_cases hlisted : x ∈ d.literal f
            · exact .inl hlisted
            · exact .inr ⟨hx, fun hf => h ⟨hf.1, hf.2 ▸ hlisted⟩⟩
          · exact .inl hx
        · rintro (hx | ⟨hx, -⟩)
          · exact .inr hx
          · exact .inl hx
    · unfold PartialRules.complete
      cases d.mega <;> rfl
  constructor
  · intro h
    refine PartialRules.ext_of_mem (fun f x => ?_) (h.mega.trans hcomplete.mega.symm)
    rw [h.mem, hcomplete.mem]
  · rintro rfl
    exact hcomplete

/-- **Going through mixins leads to one result at most.** -/
theorem Accumulates.unique {table : RuleTable} {owner : TypeName} {mixins : List Mixin}
    {p result result' : PartialRules} (h : Accumulates table owner mixins p result)
    (h' : Accumulates table owner mixins p result') : result = result' := by
  induction h generalizing result' with
  | nil => cases h'; rfl
  | named hname hinherited hmeaning htaken hrest ihinherited ihrest =>
    cases h' with
    | named hname' hinherited' hmeaning' htaken' hrest' =>
      cases hname.symm.trans hname'
      obtain rfl := ihinherited hinherited'
      rw [completes_iff] at hmeaning hmeaning'
      rw [takesIn_iff] at htaken htaken'
      subst hmeaning hmeaning' htaken htaken'
      exact ihrest hrest'
    | undeclared hname' _ => cases hname.symm.trans hname'
  | undeclared hname hrest ih =>
    cases h' with
    | named hname' _ _ _ _ => cases hname.symm.trans hname'
    | undeclared _ hrest' => exact ih hrest'
  | inline hinherited hmeaning htaken hrest ihinherited ihrest =>
    cases h' with
    | inline hinherited' hmeaning' htaken' hrest' =>
      obtain rfl := ihinherited hinherited'
      rw [completes_iff] at hmeaning hmeaning'
      rw [takesIn_iff] at htaken htaken'
      subst hmeaning hmeaning' htaken htaken'
      exact ihrest hrest'
  | transform hrest ih =>
    cases h' with
    | transform hrest' => exact ih hrest'

/-- **A declaration has one meaning at most.** -/
theorem Declaration.Means.unique {table : RuleTable} {owner : TypeName} {d : Declaration}
    {p q : PartialRules} (hp : d.Means table owner p) (hq : d.Means table owner q) : p = q := by
  obtain ⟨inherited, hinherited, hcomplete⟩ := hp
  obtain ⟨inherited', hinherited', hcomplete'⟩ := hq
  obtain rfl := hinherited.unique hinherited'
  exact (completes_iff.1 hcomplete).trans (completes_iff.1 hcomplete').symm

/-! ### What the resolver keeps -/

/-- What is kept of grounded names is their meaning. -/
def KeepsMeanings (table : RuleTable) (r : Resolver) : Prop :=
  ∀ name q, r.done.get? name = some q → Grounded table name →
    ∃ d, table.get? name = some d ∧ d.Means table name q

/-- A name that has a declaration is declared. -/
theorem contains_of_get? {table : RuleTable} {name : TypeName} {d : Declaration}
    (h : table.get? name = some d) : table.contains name = true :=
  Option.isSome_iff_exists.2 ⟨d, h⟩

/-- A name is **below** the names of a stack when mixins lead to it from each of them. -/
def Below (table : RuleTable) (stack : List TypeName) (b : TypeName) : Prop :=
  ∀ a ∈ stack, Relation.TransGen (Mixes table) a b

/-- A grounded name that is below the names of a stack is none of them, for it would be on a
circle. -/
theorem Grounded.not_mem_of_below {table : RuleTable} {stack : List TypeName} {b : TypeName}
    (hb : Grounded table b) (hbelow : Below table stack b) : b ∉ stack :=
  fun hmem => hb b .refl (hbelow b hmem)

/-- What a name mixes in is below the stack when the name has been put there. -/
theorem Below.mixes {table : RuleTable} {stack : List TypeName} {name b : TypeName}
    (hname : Below table stack name) (h : Mixes table name b) :
    Below table (stack ++ [name]) b := by
  intro a ha
  obtain ha | ha := List.mem_append.1 ha
  · exact .tail (hname a ha) h
  · obtain rfl := List.mem_singleton.1 ha
    exact .single h

/-- Keeping the rules of one more name keeps only meanings, if these are its meaning where it is
grounded. -/
theorem KeepsMeanings.leave {table : RuleTable} {r : Resolver} {name : TypeName} {d : Declaration}
    {q : PartialRules} (hkeeps : KeepsMeanings table r) (hd : table.get? name = some d)
    (hmeans : Grounded table name → d.Means table name q) :
    KeepsMeanings table (r.leave name q) :=
  Resolver.forall_done_leave hkeeps fun hgrounded => ⟨d, hd, hmeans hgrounded⟩

/-- **A run keeps only meanings of grounded names**, and goes through meanings where its mixins name
grounded names alone. It may begin with names on the stack, as long as what its mixins name is below
them. -/
theorem Runs.means {table : RuleTable} {owner : TypeName} {mixins : List Mixin}
    {p p' : PartialRules} {r r' : Resolver} (h : Runs table owner mixins p r p' r')
    (hkeeps : KeepsMeanings table r)
    (hbelow : Mixin.AllMentioned table (Below table r.stack) mixins) :
    KeepsMeanings table r' ∧ (Mixin.AllMentioned table (Grounded table) mixins →
      Accumulates table owner mixins p p') := by
  induction h with
  | nil => exact ⟨hkeeps, fun _ => .nil⟩
  | undeclared hname hrest ih =>
    obtain ⟨-, hbelow⟩ := Mixin.allMentioned_named.1 hbelow
    rw [← Resolver.stack_report] at hbelow
    obtain ⟨hkeeps', hrest'⟩ := ih (by rwa [KeepsMeanings, Resolver.done_report]) hbelow
    refine ⟨hkeeps', fun hgrounded => ?_⟩
    exact .undeclared (SortedMap.contains_eq_false_iff.1 hname)
      (hrest' (Mixin.allMentioned_named.1 hgrounded).2)
  | known hname hq hrest ih =>
    -- what is kept of a grounded name is its meaning
    obtain ⟨hkeeps', hrest'⟩ := ih hkeeps (Mixin.allMentioned_named.1 hbelow).2
    refine ⟨hkeeps', fun hgrounded => ?_⟩
    obtain ⟨hname', hgrounded⟩ := Mixin.allMentioned_named.1 hgrounded
    obtain ⟨d, hd, inherited, hinherited, hcomplete⟩ := hkeeps _ _ hq (hname' hname)
    exact .named hd hinherited hcomplete (takesIn_iff.2 rfl) (hrest' hgrounded)
  | cycle hname hq hmem hrest ih =>
    -- a grounded name is not on the stack, which leads to it
    obtain ⟨hname', hbelow⟩ := Mixin.allMentioned_named.1 hbelow
    rw [← Resolver.stack_report] at hbelow
    obtain ⟨hkeeps', -⟩ := ih (by rwa [KeepsMeanings, Resolver.done_report]) hbelow
    refine ⟨hkeeps', fun hgrounded => ?_⟩
    have hgrounded := (Mixin.allMentioned_named.1 hgrounded).1 hname
    exact absurd hmem (hgrounded.not_mem_of_below (hname' hname))
  | @taken owner name d rest p p' inherited r r₁ r' hname hq hmem hd hrest ihd ih =>
    obtain ⟨hname', hbelow⟩ := Mixin.allMentioned_named.1 hbelow
    have hmixes := allMentioned_mixes hname
    -- what the declaration names is below the stack with the name on it, and grounded with it
    obtain ⟨hkeeps₁, hinner⟩ := ihd hkeeps fun b hb hdeclared =>
      (hname' (contains_of_get? hname)).mixes (hmixes b hb hdeclared)
    have hmeans : Grounded table name → d.Means table name (inherited.complete name d) :=
      fun hgrounded => ⟨inherited, hinner fun b hb hdeclared =>
        hgrounded.mixes (hmixes b hb hdeclared), completes_iff.2 rfl⟩
    rw [← hd.stack_leave (inherited.complete name d)] at hbelow
    obtain ⟨hkeeps', hrest'⟩ := ih (hkeeps₁.leave hname hmeans) hbelow
    refine ⟨hkeeps', fun hgrounded => ?_⟩
    obtain ⟨hgroundedName, hgrounded⟩ := Mixin.allMentioned_named.1 hgrounded
    obtain ⟨inherited', hinherited', hcomplete'⟩ :=
      hmeans (hgroundedName (contains_of_get? hname))
    exact .named hname hinherited' hcomplete' (takesIn_iff.2 rfl) (hrest' hgrounded)
  | inline hd hrest ihd ih =>
    obtain ⟨hinner, hbelow⟩ := Mixin.allMentioned_inline.1 hbelow
    obtain ⟨hkeeps₁, hinherited⟩ := ihd hkeeps hinner
    rw [← hd.stack_eq] at hbelow
    obtain ⟨hkeeps', hrest'⟩ := ih hkeeps₁ hbelow
    refine ⟨hkeeps', fun hgrounded => ?_⟩
    obtain ⟨hgroundedInner, hgrounded⟩ := Mixin.allMentioned_inline.1 hgrounded
    exact .inline (hinherited hgroundedInner) (completes_iff.2 rfl) (takesIn_iff.2 rfl)
      (hrest' hgrounded)
  | transform hrest ih =>
    obtain ⟨hkeeps', hrest'⟩ := ih hkeeps (Mixin.allMentioned_transform.1 hbelow)
    exact ⟨hkeeps', fun hgrounded =>
      .transform (hrest' (Mixin.allMentioned_transform.1 hgrounded))⟩

/-- The state before anything is resolved keeps nothing, so it keeps only meanings. -/
theorem keepsMeanings_start {table : RuleTable} : KeepsMeanings table {} := nofun

/-- With nothing on the stack every name is below it. -/
theorem below_nil {table : RuleTable} {mixins : List Mixin} :
    Mixin.AllMentioned table (Below table []) mixins :=
  fun _ _ _ _ hmem => by cases hmem

/-- **What is kept of a grounded name is its meaning**, whatever declared names are resolved with it
and in which order. -/
theorem exists_meaning {table : RuleTable} {name : TypeName} {d : Declaration}
    (hd : table.get? name = some d) (hgrounded : Grounded table name) {names : List TypeName}
    (hnames : ∀ m ∈ names, table.contains m = true) (hmem : name ∈ names) :
    ∃ p, d.Means table name p ∧ (Resolver.resolveAll table names {}).done.get? name = some p := by
  obtain ⟨p', hrun⟩ := Runs.names name names hnames .empty (r := {}) rfl
  obtain ⟨p, hp⟩ := hrun.exists_done (List.mem_map_of_mem hmem) (contains_of_get? hd)
    List.not_mem_nil
  obtain ⟨d', hd', hmeans⟩ := (hrun.means keepsMeanings_start below_nil).1 name p hp hgrounded
  cases hd.symm.trans hd'
  exact ⟨p, hmeans, hp⟩

/-- **The rules of a grounded name are its meaning.** A declared name from which mixins do not lead
into a circle has one meaning; this is what is kept of the name, whatever declared names are
resolved with it and in which order; and the rule book gives its types for the name and its
direction, where an undecided one is none. -/
theorem resolve_eq_meaning {table : RuleTable} {name : TypeName} {d : Declaration}
    (hd : table.get? name = some d) (hgrounded : Grounded table name) :
    ∃ p, d.Means table name p ∧ (∀ q, d.Means table name q → q = p) ∧
      (∀ names, (∀ m ∈ names, table.contains m = true) → name ∈ names →
        (Resolver.resolveAll table names {}).done.get? name = some p) ∧
      ∀ forbidden, (∀ f x, x ∈ ((RuleBook.ofTable table forbidden).resolve name).get f ↔
          x ∈ p.get f) ∧
        ((RuleBook.ofTable table forbidden).resolve name).mega = p.mega.getD false := by
  have hkeys : ∀ m ∈ table.keys, table.contains m = true :=
    fun m hm => SortedMap.contains_iff_mem_keys.2 hm
  have hname : name ∈ table.keys := SortedMap.contains_iff_mem_keys.1 (contains_of_get? hd)
  obtain ⟨p, hmeans, hp⟩ := exists_meaning hd hgrounded hkeys hname
  refine ⟨p, hmeans, fun q hq => hq.unique hmeans, fun names hnames hmem => ?_, fun forbidden => ?_⟩
  · obtain ⟨q, hq, hdone⟩ := exists_meaning hd hgrounded hnames hmem
    rw [hdone, hq.unique hmeans]
  · have hrules : (RuleBook.ofTable table forbidden).resolve name = p.finish := by
      have hdone : (RuleBook.ofTable table forbidden).rules.get? name = some p := hp
      rw [RuleBook.resolve, hdone]
    rw [hrules]
    exact ⟨fun f x => Iff.rfl, rfl⟩

/-- Of three names the last mixes itself in, and nothing leads there from the first, which mixes in
the second and one that is not declared: its direction is that of the second. -/
theorem resolve_eq_meaning_beside_circle : ∃ table : RuleTable,
    Mixes table ⟨"c"⟩ ⟨"c"⟩ ∧ Grounded table ⟨"a"⟩ ∧
      ∀ forbidden, ((RuleBook.ofTable table forbidden).resolve ⟨"a"⟩).mega = true := by
  let table : RuleTable := .ofList
    [(⟨"a"⟩, .mk [.named ⟨"b"⟩, .named ⟨"d"⟩] ∅ none), (⟨"b"⟩, .mk [] ∅ (some true)),
      (⟨"c"⟩, .mk [.named ⟨"c"⟩] ∅ none)]
  have ha : table.get? ⟨"a"⟩ = some (.mk [.named ⟨"b"⟩, .named ⟨"d"⟩] ∅ none) := by rfl
  have hb : table.get? ⟨"b"⟩ = some (.mk [] ∅ (some true)) := by rfl
  have hc : table.get? ⟨"c"⟩ = some (.mk [.named ⟨"c"⟩] ∅ none) := by rfl
  have hd : table.get? ⟨"d"⟩ = none := by rfl
  have mixes_b : ∀ y, ¬ Mixes table ⟨"b"⟩ y := by
    rintro y ⟨d, hd, hy, -⟩
    cases hb.symm.trans hd
    cases hy
  have mixes_a : ∀ y, Mixes table ⟨"a"⟩ y → y = ⟨"b"⟩ := by
    rintro y ⟨d, hd', hy, hdeclared⟩
    cases ha.symm.trans hd'
    obtain rfl | rfl : y = ⟨"b"⟩ ∨ y = ⟨"d"⟩ := by
      simpa [Declaration.mentioned, Mixin.mentionedIn, Mixin.mentioned] using hy
    · rfl
    · rw [SortedMap.contains, hd] at hdeclared
      cases hdeclared
  have reach_b : ∀ y, Relation.ReflTransGen (Mixes table) ⟨"b"⟩ y → y = ⟨"b"⟩ := by
    intro y h
    obtain rfl | ⟨z, hz, -⟩ := h.cases_head
    · rfl
    · exact absurd hz (mixes_b z)
  have hgrounded : Grounded table ⟨"a"⟩ := by
    intro m hm hcircle
    obtain ⟨z, hz, hback⟩ := Relation.TransGen.head'_iff.1 hcircle
    obtain rfl | ⟨y, hy, hm⟩ := hm.cases_head
    · obtain rfl := mixes_a z hz
      exact absurd (reach_b _ hback) (by decide)
    · obtain rfl := mixes_a y hy
      obtain rfl := reach_b m hm
      exact mixes_b z hz
  refine ⟨table, ⟨_, hc, List.mem_cons_self, rfl⟩, hgrounded, fun forbidden => ?_⟩
  obtain ⟨p, -, hunique, -, hbook⟩ := resolve_eq_meaning ha hgrounded
  have hmeans := hunique _ ⟨_, .named hb .nil (completes_iff.2 rfl) (takesIn_iff.2 rfl)
    (.undeclared hd .nil), completes_iff.2 rfl⟩
  rw [(hbook forbidden).2, ← hmeans]
  rfl

end ObjectMapping
