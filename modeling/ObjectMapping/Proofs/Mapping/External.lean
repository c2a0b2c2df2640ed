import ObjectMapping.Proofs.Mapping.Gate
import ObjectMapping.Proofs.Rules.Compatibility
import ObjectMapping.Rules.Standard

/-! # Relationships that another system keeps

The rules of a type list the types to which, or from which, another system maps or unmaps its
objects. A broker sets such targets aside, so that a relationship of the other system is not changed
behind its back. But it asks the rules of the parent alone, while the rules that allow a change are
asked from both sides. So a relationship that is set aside when one type is the parent may be
changed when the other one is.

Which changes a broker makes itself is told by types: some call makes or stages a change of an
object of one type for a parent of another exactly when the gate admits such an object for such a
parent (`Broker.mapsLocally_iff`, `Broker.unmapsLocally_iff`). And the gate admits one when the
rules leave the change to a broker and the user holds the rights on such an object
(`Broker.changesLocally_iff`).

* **`RuleBook.LeftOpen`** — a change that the rules of a type give to another system, and that the
  rules of both leave to a broker when the other type is the parent.
* **`Broker.changed_from_other_side`** — the standard rules leave changes open in this way.
* **`Broker.changed_from_other_side_iff`** — a broker changes a relationship of another system from
  the other side exactly where its rules leave the change open, and the pairs that the standard
  rules leave open. -/

namespace ObjectMapping

variable {σ α : Type}

namespace Broker

namespace Procedure

variable {P : Procedure σ α} {targets : List α} {mode : MapMode} {w : Workspace σ} {t : α}
  {answer : Except MappingError MapOutcome × Workspace σ} {sent : List MappingCall}
  {o : MapOutcome} {r : ObjectRef} {p : LedgerParent}

/-- A call that succeeds refuses nothing. -/
theorem Goes.refused?_of_ok (h : P.Goes targets mode w answer sent) (ho : answer.1 = .ok o) :
    P.refused? targets = none := by
  cases h with
  | refused => cases ho
  | _ hrefused => exact hrefused

/-- **What a call tells as applied or as staged is neither external nor refused.** -/
theorem Goes.passes_of_ok (h : P.Goes targets mode w answer sent) (ho : answer.1 = .ok o)
    (hr : r ∈ o.applied ++ o.staged) : P.isExternal r = false ∧ P.isAllowed r = true := by
  rw [h.applied_append_staged o ho] at hr
  obtain ⟨hmem, hexternal⟩ := List.mem_filter.1 hr
  rw [Bool.not_eq_true'] at hexternal
  have hpasses := List.find?_eq_none.1 (h.refused?_of_ok ho) r hmem
  rw [hexternal] at hpasses
  exact ⟨hexternal, by simpa using hpasses⟩

/-- A call that defers a change and refuses nothing succeeds. -/
theorem Goes.exists_ok_of_deferred (h : P.Goes targets (.deferred p) w answer sent)
    (hrefused : P.refused? targets = none) : ∃ o, answer.1 = .ok o := by
  cases h with
  | refused hsome =>
    rw [hrefused] at hsome
    cases hsome
  | idle => exact ⟨_, rfl⟩
  | stages => exact ⟨_, rfl⟩
  | _ _ _ hmode => cases hmode

/-- **A target that is neither external nor refused can be staged.** -/
theorem exists_staged (P : Procedure σ α) (t : α) (hexternal : P.isExternal (P.object t) = false)
    (hallowed : P.isAllowed (P.object t) = true) (p : LedgerParent) (w : Workspace σ) :
    ∃ o, (P.run [t] (.deferred p) w).1 = .ok o ∧ P.object t ∈ o.applied ++ o.staged := by
  have hrefused : P.refused? [t] = none := by
    simp [refused?, hallowed]
  obtain ⟨_, hgoes, -⟩ := P.exists_goes [t] (.deferred p) w
  obtain ⟨o, ho⟩ := hgoes.exists_ok_of_deferred hrefused
  refine ⟨o, ho, ?_⟩
  rw [hgoes.applied_append_staged o ho]
  exact List.mem_filter.2 ⟨List.mem_singleton_self _, by rw [hexternal]; rfl⟩

end Procedure

/-! ### Local changes between types -/

/-- Objects of a target type are **mapped locally** to parents of a source type: some call to map
tells such an object as applied or as staged. -/
def MapsLocally (b : Broker) (source target : TypeName) : Prop :=
  ∃ (σ : Type) (service : MappingService σ) (parent : Endpoint) (targets : List MappingTarget)
    (mode : MapMode) (w : Workspace σ) (o : MapOutcome) (r : ObjectRef),
    parent.effectiveType = source ∧ r.effectiveType = target ∧
      (b.map service parent targets mode w).1 = .ok o ∧ r ∈ o.applied ++ o.staged

/-- Objects of a target type are **unmapped locally** from parents of a source type: some call to
unmap tells such an object as applied or as staged. -/
def UnmapsLocally (b : Broker) (source target : TypeName) : Prop :=
  ∃ (σ : Type) (service : MappingService σ) (parent : Endpoint) (objects : List ObjectRef)
    (mode : MapMode) (w : Workspace σ) (o : MapOutcome) (r : ObjectRef),
    parent.effectiveType = source ∧ r.effectiveType = target ∧
      (b.unmap service parent objects mode w).1 = .ok o ∧ r ∈ o.applied ++ o.staged

variable (b : Broker) (source target : TypeName)

/-- **Objects are mapped locally where the gate admits one.** -/
theorem mapsLocally_iff : b.MapsLocally source target ↔
    ∃ parent r, parent.effectiveType = source ∧ r.effectiveType = target ∧
      b.Admits .map parent r := by
  constructor
  · rintro ⟨σ, service, parent, targets, mode, w, o, r, hsource, htarget, ho, hr⟩
    rw [map_eq_run] at ho
    obtain ⟨_, hgoes, -⟩ := (b.mapping service parent).exists_goes targets mode w
    obtain ⟨hexternal, hallowed⟩ := hgoes.passes_of_ok ho hr
    exact ⟨parent, r, hsource, htarget, hallowed, hexternal⟩
  · rintro ⟨parent, r, hsource, htarget, hallowed, hexternal⟩
    let w : Workspace RelationStore := { service := {} }
    obtain ⟨o, ho, hr⟩ := (b.mapping RelationStore.service parent).exists_staged ⟨r, none⟩ hexternal
      hallowed (.draft "") w
    rw [← map_eq_run] at ho
    exact ⟨_, _, parent, _, _, w, o, r, hsource, htarget, ho, hr⟩

/-- **Objects are unmapped locally where the gate admits one.** -/
theorem unmapsLocally_iff : b.UnmapsLocally source target ↔
    ∃ parent r, parent.effectiveType = source ∧ r.effectiveType = target ∧
      b.Admits .unmap parent r := by
  constructor
  · rintro ⟨σ, service, parent, objects, mode, w, o, r, hsource, htarget, ho, hr⟩
    rw [unmap_eq_run] at ho
    obtain ⟨_, hgoes, -⟩ := (b.unmapping service parent).exists_goes objects mode w
    obtain ⟨hexternal, hallowed⟩ := hgoes.passes_of_ok ho hr
    exact ⟨parent, r, hsource, htarget, hallowed, hexternal⟩
  · rintro ⟨parent, r, hsource, htarget, hallowed, hexternal⟩
    let w : Workspace RelationStore := { service := {} }
    obtain ⟨o, ho, hr⟩ := (b.unmapping RelationStore.service parent).exists_staged r hexternal
      hallowed (.draft "") w
    rw [← unmap_eq_run] at ho
    exact ⟨_, _, parent, _, _, w, o, r, hsource, htarget, ho, hr⟩

/-- A **change is made locally** to objects of a target type for parents of a source type. -/
def ChangesLocally (b : Broker) : Change → TypeName → TypeName → Prop
  | .map => b.MapsLocally
  | .unmap => b.UnmapsLocally

end Broker

/-! ### What the rules leave to a broker -/

/-- The field of the rules that lists the types between which a change is allowed. -/
def Change.allowedField : Change → RuleField
  | .map => .map
  | .unmap => .unmap

/-- The field of the rules that lists the types between which another system makes a change. -/
def Change.externalField : Change → RuleField
  | .map => .externalMap
  | .unmap => .externalUnmap

/-- The rules **leave a change local**: no other system makes it for parents of the source type, the
rules of one of the types allow it, and the types are not forbidden. -/
structure RuleBook.LeavesLocal (book : RuleBook) (change : Change) (source target : TypeName) :
    Prop where
  unlisted : book.allows source change.externalField target = false
  allowed : book.allows source change.allowedField target = true ∨
    book.allows target change.allowedField source = true
  notTwoWay : book.forbidden.isTwoWay source target = false
  notOneWay : change = .map → book.forbidden.isOneWay source target = false

/-- The rules **leave a change open**: they give it to another system when the first type is the
source, and leave it local when the second one is. -/
structure RuleBook.LeftOpen (book : RuleBook) (change : Change) (a b : TypeName) : Prop where
  listed : book.allows a change.externalField b = true
  leavesLocal : book.LeavesLocal change b a

namespace Broker

variable {b : Broker} {change : Change} {source target : TypeName}

/-- **The gate in terms of the rules**: it admits an object for a parent if the rules leave the
change of their types local, the rights suffice, and the parent is no snapshot to which the object
is to be mapped. -/
theorem admits_iff {parent : Endpoint} {r : ObjectRef} : b.Admits change parent r ↔
    b.policy.book.LeavesLocal change parent.effectiveType r.effectiveType ∧
      b.policy.permits parent (.object r) = true ∧
      (change = .map → parent.isSnapshot = false) := by
  cases change with
  | map =>
    show b.policy.canMap _ _ _ = true ∧ _ ↔ _
    rw [Policy.canMap_iff, Policy.ruleAllows, Bool.or_eq_true]
    constructor
    · rintro ⟨⟨honeWay, htwoWay, hsnapshot, hallowed, hpermits⟩, hunlisted⟩
      have honeWay := honeWay.resolve_left Bool.false_ne_true
      exact ⟨⟨hunlisted, hallowed, htwoWay, fun _ => honeWay⟩, hpermits, fun _ => hsnapshot⟩
    · rintro ⟨⟨hunlisted, hallowed, htwoWay, honeWay⟩, hpermits, hsnapshot⟩
      exact ⟨⟨.inr (honeWay rfl), htwoWay, hsnapshot rfl, hallowed, hpermits⟩, hunlisted⟩
  | unmap =>
    show b.policy.canUnmap _ _ = true ∧ _ ↔ _
    rw [Policy.canUnmap_iff, Policy.ruleAllows, Bool.or_eq_true]
    constructor
    · rintro ⟨⟨htwoWay, hallowed, hpermits⟩, hunlisted⟩
      exact ⟨⟨hunlisted, hallowed, htwoWay, fun h => by cases h⟩, hpermits, fun h => by cases h⟩
    · rintro ⟨⟨hunlisted, hallowed, htwoWay, -⟩, hpermits, -⟩
      exact ⟨⟨htwoWay, hallowed, hpermits⟩, hunlisted⟩

/-- **A change is made locally** where the rules leave it local and the rights on some object of the
target type suffice. -/
theorem changesLocally_iff : b.ChangesLocally change source target ↔
    b.policy.book.LeavesLocal change source target ∧ ∃ r : ObjectRef,
      r.effectiveType = target ∧ b.policy.permits (.draft source) (.object r) = true := by
  have hadmits : b.ChangesLocally change source target ↔ ∃ parent r,
      parent.effectiveType = source ∧ r.effectiveType = target ∧ b.Admits change parent r := by
    cases change with
    | map => exact b.mapsLocally_iff source target
    | unmap => exact b.unmapsLocally_iff source target
  rw [hadmits]
  constructor
  · rintro ⟨parent, r, rfl, rfl, h⟩
    obtain ⟨hrules, hpermits, -⟩ := admits_iff.1 h
    exact ⟨hrules, r, rfl, Policy.permits_draft hpermits⟩
  · -- a draft is no snapshot
    rintro ⟨hrules, r, rfl, hpermits⟩
    exact ⟨.draft source, r, rfl, rfl, admits_iff.2 ⟨hrules, hpermits, fun _ => rfl⟩⟩

end Broker

/-! ### The standard rules -/

namespace RuleBook

instance (book : RuleBook) (change : Change) (source target : TypeName) :
    Decidable (book.LeavesLocal change source target) :=
  decidable_of_iff
    (book.allows source change.externalField target = false ∧
      (book.allows source change.allowedField target = true ∨
        book.allows target change.allowedField source = true) ∧
      book.forbidden.isTwoWay source target = false ∧
      (change = .map → book.forbidden.isOneWay source target = false))
    ⟨fun h => ⟨h.1, h.2.1, h.2.2.1, h.2.2.2⟩,
      fun h => ⟨h.unlisted, h.allowed, h.notTwoWay, h.notOneWay⟩⟩

/-- The rules that a book has for a name list a type only if the name is declared. -/
theorem contains_of_allows {book : RuleBook} {source target : TypeName} {f : RuleField}
    (h : book.allows source f target = true) : book.contains source = true := by
  cases hrules : book.rules.get? source with
  | none =>
    rw [allows, RuleSet.allows_iff, resolve, hrules, RuleSet.get, RuleSet.empty,
      FieldSets.get_empty] at h
    exact absurd h (SortedSet.not_mem_empty target)
  | some q => exact Option.isSome_iff_exists.2 ⟨q, hrules⟩

/-- The types that are listed in a field are those that are allowed. -/
theorem mem_listed_of_allows {book : RuleBook} {source target : TypeName} {f : RuleField}
    (h : book.allows source f target = true) : target ∈ book.listed source f :=
  RuleSet.allows_iff.1 h

/-- In the standard rules the only types that list others as managed by another system are types
whose objects can be frozen, and those of the other system list none. -/
theorem standard_listed : ∀ a ∈ standard.rules.keys, ∀ f ∈ [RuleField.externalMap, .externalUnmap],
    ∀ b ∈ standard.listed a f,
      (a ∈ frozenTypes ∧ a ∉ externallyManaged) ∧ b ∈ externallyManaged := by
  decide +kernel

/-- All these types list those of the other system, and when one of the latter is the parent the
standard rules leave the change local. -/
theorem standard_leavesLocal : ∀ change ∈ [Change.map, .unmap], ∀ a ∈ frozenTypes,
    a ∉ externallyManaged → ∀ b ∈ externallyManaged,
      standard.allows a change.externalField b = true ∧ standard.LeavesLocal change b a := by
  decide +kernel

/-- **What the standard rules leave open**: the relationships of the types that another system
manages with the other types whose objects can be frozen. -/
theorem standard_leftOpen_iff {change : Change} {a b : TypeName} :
    standard.LeftOpen change a b ↔
      (a ∈ frozenTypes ∧ a ∉ externallyManaged) ∧ b ∈ externallyManaged := by
  constructor
  · intro h
    have ha : a ∈ standard.rules.keys :=
      SortedMap.contains_iff_mem_keys.1 (contains_of_allows h.listed)
    exact standard_listed a ha _ (by cases change <;> simp [Change.externalField]) b
      (mem_listed_of_allows h.listed)
  · rintro ⟨⟨ha, hother⟩, hb⟩
    obtain ⟨hlisted, hlocal⟩ :=
      standard_leavesLocal change (by cases change <;> simp) a ha hother b hb
    exact ⟨hlisted, hlocal⟩

end RuleBook

namespace Broker

/-- **What one side gives to another system may be changed from the other side.** By the standard
rules another system maps risks to controls and unmaps them. With a risk as the parent a control is
mapped or unmapped all the same, for the rules of risks list no control as external. -/
theorem changed_from_other_side :
    (¬ ∀ (b : Broker) (A B : TypeName), b.policy.book = .standard →
      b.policy.isExternallyMapped A B = true → ¬ b.MapsLocally B A) ∧
    ¬ ∀ (b : Broker) (A B : TypeName), b.policy.book = .standard →
      b.policy.isExternallyUnmapped A B = true → ¬ b.UnmapsLocally B A := by
  let b : Broker := ⟨⟨⟨[], List.nodup_nil⟩, ⟨.standard, Permissions.all⟩, none, .snapshot⟩, {}⟩
  have hopen : ∀ change, b.policy.book.LeftOpen change ⟨"Control"⟩ ⟨"Risk"⟩ :=
    fun change => RuleBook.standard_leftOpen_iff.2 (by decide)
  have hchanges : ∀ change, b.ChangesLocally change ⟨"Risk"⟩ ⟨"Control"⟩ :=
    fun change => changesLocally_iff.2 ⟨(hopen change).leavesLocal, .plain 1 ⟨"Control"⟩, rfl, rfl⟩
  exact ⟨fun h => h b _ _ rfl (hopen .map).listed (hchanges .map),
    fun h => h b _ _ rfl (hopen .unmap).listed (hchanges .unmap)⟩

/-- **Where a change of another system is made from the other side.** Let the rules of a type `A`
give a change of objects of a type `B` to another system. With a parent of type `A` no call makes or
stages it. With a parent of type `B` some call makes or stages it for an object of type `A` exactly
when the rules leave it open and the rights on some object of type `A` suffice. The standard rules
leave open the relationships of the types that another system manages with all other types whose
objects can be frozen. -/
theorem changed_from_other_side_iff (change : Change) :
    (∀ (b : Broker) (A B : TypeName),
      ¬ (b.policy.book.allows A change.externalField B = true ∧ b.ChangesLocally change A B) ∧
      (b.policy.book.allows A change.externalField B = true ∧ b.ChangesLocally change B A ↔
        b.policy.book.LeftOpen change A B ∧ ∃ r : ObjectRef,
          r.effectiveType = A ∧ b.policy.permits (.draft B) (.object r) = true)) ∧
    ∀ A B : TypeName, RuleBook.standard.LeftOpen change A B ↔
      (A ∈ RuleBook.frozenTypes ∧ A ∉ RuleBook.externallyManaged) ∧
        B ∈ RuleBook.externallyManaged := by
  refine ⟨fun b A B => ⟨?_, ?_⟩, fun A B => RuleBook.standard_leftOpen_iff⟩
  · rintro ⟨hlisted, hlocal⟩
    have hunlisted := (changesLocally_iff.1 hlocal).1.unlisted
    rw [hlisted] at hunlisted
    cases hunlisted
  · rw [changesLocally_iff]
    constructor
    · rintro ⟨hlisted, hlocal, hrights⟩
      exact ⟨⟨hlisted, hlocal⟩, hrights⟩
    · rintro ⟨⟨hlisted, hlocal⟩, hrights⟩
      exact ⟨hlisted, hlocal, hrights⟩

end Broker

end ObjectMapping
