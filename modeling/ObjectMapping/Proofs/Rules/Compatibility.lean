import ObjectMapping.Compatibility

/-! # What compatibility depends on

Whether two ends may be mapped is decided by several gates one after the other: the forbidden pairs,
the scope of a snapshot, the rules of both types, and the permissions. None of them turns a yes into
a no when more is allowed, and all but the last see only the types of the ends. So a policy that
allows more lets through all that another one does, and what is true of an object is true of its
type.

* **`Policy.canMap_iff`, `Policy.canUnmap_iff`** — what all gates together let through.
* **`Policy.more_allows_more`** — compatibility grows with the rules and the grants, and shrinks
  with the forbidden pairs.
* **`Policy.type_stands_for_object`** — a type may be mapped wherever one of its objects may be. -/

namespace ObjectMapping

/-! ### The gates -/

namespace Policy

variable {p q : Policy} {source target : Endpoint} {options : MapOptions}

/-- The rules let through what either type lists. -/
theorem ruleAllows_iff {f : RuleField} {a b : TypeName} :
    p.ruleAllows f a b = true ↔ b ∈ (p.book.resolve a).get f ∨ a ∈ (p.book.resolve b).get f := by
  rw [ruleAllows, Bool.or_eq_true, RuleBook.allows, RuleBook.allows, RuleSet.allows_iff,
    RuleSet.allows_iff]

/-- The permissions let through what is saved only if it may be updated; for a target it is enough
that relationships may be created in its context. -/
theorem permits_iff : p.permits source target = true ↔
    (∀ r, source = .object r → p.permissions .update source none = true) ∧
    ∀ r, target = .object r → p.permissions .update target none = true ∨
      ∃ c, r.context = some c ∧ p.permissions .create (.type relationshipType) (some c) = true := by
  unfold permits
  rw [Bool.and_eq_true]
  refine and_congr ?_ ?_
  · cases source <;> simp
  · cases target <;> simp [Endpoint.ref?, Option.any_eq_true]

/-- **What may be mapped** is let through by all gates. -/
theorem canMap_iff : p.canMap source target options = true ↔
    (options.unmapContext = true ∨
      p.book.forbidden.isOneWay source.effectiveType target.effectiveType = false) ∧
    p.book.forbidden.isTwoWay source.effectiveType target.effectiveType = false ∧
    options.parentIsSnapshot = false ∧
    p.ruleAllows .map source.effectiveType target.effectiveType = true ∧
    p.permits source target = true := by
  simp [canMap, and_assoc]

/-- **What may be unmapped** is let through by all gates but those for new mappings. -/
theorem canUnmap_iff : p.canUnmap source target = true ↔
    p.book.forbidden.isTwoWay source.effectiveType target.effectiveType = false ∧
    p.ruleAllows .unmap source.effectiveType target.effectiveType = true ∧
    p.permits source target = true := by
  simp [canUnmap, and_assoc]

/-- A type is offered when the source lists it and it may be mapped as a whole. -/
theorem mem_mappableTargets_iff {t : TypeName} : t ∈ p.mappableTargets source options ↔
    t ∈ (p.book.resolve source.effectiveType).get .map ∧
      p.canMap source (.type t) options = true :=
  List.mem_filter

end Policy

/-! ### More allows more -/

/-- Permissions are **within** others: whatever right is held, the others give it too. -/
def Permissions.Within (p q : Permissions) : Prop :=
  ∀ access subject context, p access subject context = true → q access subject context = true

/-- Which rights a list of grants gives: within a context those for the context, and elsewhere those
on the type and on the object. -/
theorem Grant.permissions_iff {grants : List Grant} {access : Access} {subject : Endpoint}
    {context : Option Int} : Grant.permissions grants access subject context = true ↔
      match context with
      | some c => .context access (subjectType subject) c ∈ grants
      | none => .type access (subjectType subject) ∈ grants ∨
          ∃ r, subject.ref? = some r ∧ .object access (subjectType subject) r.id ∈ grants := by
  cases context with
  | some c => exact List.contains_iff_mem
  | none =>
    show (grants.contains _ || _) = true ↔ _
    rw [Bool.or_eq_true, List.contains_iff_mem]
    cases subject.ref? <;> simp

/-- More grants give more rights. -/
theorem Grant.permissions_within {few many : List Grant} (h : few ⊆ many) :
    (Grant.permissions few).Within (Grant.permissions many) := by
  intro access subject context hheld
  rw [permissions_iff] at hheld ⊢
  cases context with
  | some c => exact h hheld
  | none => exact hheld.imp (fun htype => h htype) fun ⟨r, hr, hobject⟩ => ⟨r, hr, h hobject⟩

/-- A rule book is **within** another one: what a type lists for mapping, or for unmapping, it lists
there too, and whatever pairs are forbidden there are forbidden here. -/
structure RuleBook.Within (b c : RuleBook) : Prop where
  /-- What may be mapped. -/
  map : ∀ name, ∀ t ∈ (b.resolve name).get .map, t ∈ (c.resolve name).get .map
  /-- What may be unmapped. -/
  unmap : ∀ name, ∀ t ∈ (b.resolve name).get .unmap, t ∈ (c.resolve name).get .unmap
  /-- What is forbidden in one direction. -/
  oneWay : ∀ x y, c.forbidden.isOneWay x y = true → b.forbidden.isOneWay x y = true
  /-- What is forbidden in both directions. -/
  twoWay : ∀ x y, c.forbidden.isTwoWay x y = true → b.forbidden.isTwoWay x y = true

namespace RuleBook.Within

variable {b c : RuleBook} {x y : TypeName}

/-- What is free in one direction stays so. -/
theorem oneWay_eq_false (h : b.Within c) (hfree : b.forbidden.isOneWay x y = false) :
    c.forbidden.isOneWay x y = false := by
  refine Bool.eq_false_iff.2 fun hforbidden => ?_
  rw [h.oneWay x y hforbidden] at hfree
  cases hfree

/-- What is free in both directions stays so. -/
theorem twoWay_eq_false (h : b.Within c) (hfree : b.forbidden.isTwoWay x y = false) :
    c.forbidden.isTwoWay x y = false := by
  refine Bool.eq_false_iff.2 fun hforbidden => ?_
  rw [h.twoWay x y hforbidden] at hfree
  cases hfree

end RuleBook.Within

namespace Policy

variable {p q : Policy} {source target : Endpoint} {options : MapOptions}

/-- More permissions let more through. -/
theorem permits_of_within (h : p.permissions.Within q.permissions)
    (hpermits : p.permits source target = true) : q.permits source target = true := by
  rw [permits_iff] at hpermits ⊢
  obtain ⟨hsource, htarget⟩ := hpermits
  refine ⟨fun r hr => h _ _ _ (hsource r hr), fun r hr => ?_⟩
  exact (htarget r hr).imp (h _ _ _) fun ⟨c, hc, hcreate⟩ => ⟨c, hc, h _ _ _ hcreate⟩

/-- Longer lists let more through. -/
theorem ruleAllows_of_subset {f : RuleField} {a b : TypeName}
    (h : ∀ name, ∀ t ∈ (p.book.resolve name).get f, t ∈ (q.book.resolve name).get f)
    (hrules : p.ruleAllows f a b = true) : q.ruleAllows f a b = true := by
  rw [ruleAllows_iff] at hrules ⊢
  exact hrules.imp (h a b) (h b a)

/-- More may be mapped where more is allowed. -/
theorem canMap_of_within (hbook : p.book.Within q.book)
    (hpermissions : p.permissions.Within q.permissions)
    (h : p.canMap source target options = true) : q.canMap source target options = true := by
  rw [canMap_iff] at h ⊢
  obtain ⟨honeWay, htwoWay, hscope, hrules, hpermits⟩ := h
  exact ⟨honeWay.imp_right hbook.oneWay_eq_false, hbook.twoWay_eq_false htwoWay, hscope,
    ruleAllows_of_subset hbook.map hrules, permits_of_within hpermissions hpermits⟩

/-- More may be unmapped where more is allowed. -/
theorem canUnmap_of_within (hbook : p.book.Within q.book)
    (hpermissions : p.permissions.Within q.permissions)
    (h : p.canUnmap source target = true) : q.canUnmap source target = true := by
  rw [canUnmap_iff] at h ⊢
  obtain ⟨htwoWay, hrules, hpermits⟩ := h
  exact ⟨hbook.twoWay_eq_false htwoWay, ruleAllows_of_subset hbook.unmap hrules,
    permits_of_within hpermissions hpermits⟩

/-- More types are offered where more is allowed. -/
theorem mappableTargets_subset_of_within (hbook : p.book.Within q.book)
    (hpermissions : p.permissions.Within q.permissions) :
    p.mappableTargets source options ⊆ q.mappableTargets source options := by
  intro t ht
  rw [mem_mappableTargets_iff] at ht ⊢
  exact ⟨hbook.map _ t ht.1, canMap_of_within hbook hpermissions ht.2⟩

/-- The policy with other pairs forbidden in one direction. -/
def withOneWay (p : Policy) (pairs : List (TypeName × TypeName)) : Policy :=
  { p with book := { p.book with forbidden := { p.book.forbidden with oneWay := pairs } } }

/-- **Compatibility grows with what is allowed**, whatever the ends and the circumstances. Where a
rule book is within another one and its user holds no grant that the other's does not hold, whatever
may be mapped, or unmapped, may be so under the other, and whatever type is offered is offered there
too. Under any policy the pairs forbidden in one direction do not matter for unmapping, and what may
be mapped may be unmapped if either type lists the other for that. -/
theorem more_allows_more {b c : RuleBook} {few many : List Grant} (hbook : b.Within c)
    (hgrants : few ⊆ many) :
    (∀ source target options, canMap ⟨b, Grant.permissions few⟩ source target options = true →
      canMap ⟨c, Grant.permissions many⟩ source target options = true) ∧
    (∀ source target, canUnmap ⟨b, Grant.permissions few⟩ source target = true →
      canUnmap ⟨c, Grant.permissions many⟩ source target = true) ∧
    (∀ source options, mappableTargets ⟨b, Grant.permissions few⟩ source options ⊆
      mappableTargets ⟨c, Grant.permissions many⟩ source options) ∧
    ∀ p : Policy,
      (∀ pairs source target,
        (p.withOneWay pairs).canUnmap source target = p.canUnmap source target) ∧
      (∀ pairs source target options, options.unmapContext = true →
        (p.withOneWay pairs).canMap source target options = p.canMap source target options) ∧
      ∀ source target options, p.canMap source target options = true →
        target.effectiveType ∈ (p.book.resolve source.effectiveType).get .unmap ∨
          source.effectiveType ∈ (p.book.resolve target.effectiveType).get .unmap →
        p.canUnmap source target = true := by
  have hpermissions := Grant.permissions_within hgrants
  refine ⟨fun _ _ _ => canMap_of_within hbook hpermissions,
    fun _ _ => canUnmap_of_within hbook hpermissions,
    fun _ _ => mappableTargets_subset_of_within hbook hpermissions, fun p => ⟨?_, ?_, ?_⟩⟩
  · -- unmapping does not ask for these pairs at all
    intro pairs source target
    rfl
  · intro pairs source target options hcontext
    rw [canMap, canMap, hcontext, Bool.true_or, Bool.true_or]
    rfl
  · intro source target options h hlisted
    -- the gates for unmapping are among those for mapping, but for the rules
    obtain ⟨-, htwoWay, -, -, hpermits⟩ := canMap_iff.1 h
    exact canUnmap_iff.2 ⟨htwoWay, ruleAllows_iff.2 hlisted, hpermits⟩

/-- Without a forbidden pair, and with a grant on all risks in place of one on a single risk beside
it, risks may be mapped to controls too, and what could be mapped before still may be. -/
theorem more_allows_more_without_pair :
    ∃ (b c : RuleBook) (few many : List Grant) (control risk : Endpoint),
      b.Within c ∧ few ⊆ many ∧
      canMap ⟨b, Grant.permissions few⟩ control risk {} = true ∧
      canMap ⟨c, Grant.permissions many⟩ control risk {} = true ∧
      canMap ⟨b, Grant.permissions many⟩ risk control {} = false ∧
      canMap ⟨c, Grant.permissions many⟩ risk control {} = true := by
  let lists : FieldSets := (∅ : FieldSets).adding .map [⟨"Risk"⟩]
  let rules : SortedMap TypeName PartialRules := .ofList [(⟨"Control"⟩, { sets := lists })]
  let b : RuleBook := ⟨rules, { oneWay := [(⟨"risk"⟩, ⟨"control"⟩)] }, []⟩
  let c : RuleBook := ⟨rules, {}, []⟩
  let few : List Grant := [.type .update ⟨"Control"⟩, .object .update ⟨"Risk"⟩ 5]
  let many : List Grant := .type .update ⟨"Risk"⟩ :: few
  let control : Endpoint := .object (.plain 1 ⟨"Control"⟩)
  let risk : Endpoint := .object (.plain 5 ⟨"Risk"⟩)
  have hbook : b.Within c := ⟨fun _ _ h => h, fun _ _ h => h, nofun, nofun⟩
  have hgrants : few ⊆ many := List.subset_cons_self _ _
  have hbefore : canMap ⟨b, Grant.permissions few⟩ control risk {} = true := by decide
  obtain ⟨hmap, -⟩ := more_allows_more hbook hgrants
  exact ⟨b, c, few, many, control, risk, hbook, hgrants, hbefore, hmap control risk {} hbefore,
    by decide, by decide⟩

/-! ### A type stands for its objects -/

/-- The gates see the types of the ends, and the permissions the ends themselves. -/
theorem canMap_of_permits {source' target' : Endpoint}
    (hsource : source'.effectiveType = source.effectiveType)
    (htarget : target'.effectiveType = target.effectiveType)
    (hpermits : p.permits source' target' = true) (h : p.canMap source target options = true) :
    p.canMap source' target' options = true := by
  rw [canMap_iff] at h ⊢
  rw [hsource, htarget]
  exact ⟨h.1, h.2.1, h.2.2.1, h.2.2.2.1, hpermits⟩

/-- No right is needed on a target that is not saved. -/
theorem permits_type {t : TypeName} (h : p.permits source target = true) :
    p.permits source (.type t) = true :=
  permits_iff.2 ⟨(permits_iff.1 h).1, nofun⟩

/-- No right is needed on a source that is not saved. -/
theorem permits_draft {t : TypeName} (h : p.permits source target = true) :
    p.permits (.draft t) target = true :=
  permits_iff.2 ⟨nofun, (permits_iff.1 h).2⟩

/-- **A type stands for its objects.** Whoever holds which rights and whatever is forbidden, where a
saved object may be mapped, a snapshot or not, the type may be mapped whose rules apply to it; the
source may be a draft of its type; and the type is offered, if the source lists it. The types that
are offered are listed by the source, may be mapped as a whole, and come in order, each once. -/
theorem type_stands_for_object (p : Policy) (source : Endpoint) (options : MapOptions) :
    (∀ t : ObjectRef, p.canMap source (.object t) options = true →
      p.canMap source (.type t.effectiveType) options = true ∧
      p.canMap (.draft source.effectiveType) (.object t) options = true ∧
      (t.effectiveType ∈ (p.book.resolve source.effectiveType).get .map →
        t.effectiveType ∈ p.mappableTargets source options)) ∧
    (∀ t ∈ p.mappableTargets source options,
      t ∈ (p.book.resolve source.effectiveType).get .map ∧
        p.canMap source (.type t) options = true) ∧
    (p.mappableTargets source options).Pairwise (· < ·) := by
  refine ⟨fun t h => ?_, fun t ht => mem_mappableTargets_iff.1 ht, ?_⟩
  · -- the type has the rules of the object, and no right is needed on it
    have hpermits := (canMap_iff.1 h).2.2.2.2
    have hsame : (Endpoint.type t.effectiveType).effectiveType =
      (Endpoint.object t).effectiveType := rfl
    have hdraft : (Endpoint.draft source.effectiveType).effectiveType =
      source.effectiveType := rfl
    have htype : p.canMap source (.type t.effectiveType) options = true :=
      canMap_of_permits rfl hsame (permits_type hpermits) h
    refine ⟨htype, canMap_of_permits hdraft rfl (permits_draft hpermits) h, fun hlisted => ?_⟩
    exact mem_mappableTargets_iff.2 ⟨hlisted, htype⟩
  · exact ((p.book.resolve source.effectiveType).get .map).increasing.filter _

/-- The type of a frozen risk is offered, although the only right on the target that is held is one
on the snapshot. -/
theorem type_stands_for_snapshot :
    ∃ (p : Policy) (source : Endpoint) (t : ObjectRef),
      p.canMap source (.object t) {} = true ∧ t.type = .snapshot ∧ t.effectiveType = ⟨"Risk"⟩ ∧
      p.canMap source (.type ⟨"Risk"⟩) {} = true ∧
      p.canMap (.draft source.effectiveType) (.object t) {} = true ∧
      p.mappableTargets source {} = [⟨"Issue"⟩, ⟨"Risk"⟩] ∧
      ⟨"Risk"⟩ ∈ p.mappableTargets source {} ∧
      (p.mappableTargets source {}).Pairwise (· < ·) := by
  let lists : FieldSets := (∅ : FieldSets).adding .map [⟨"Risk"⟩, ⟨"Issue"⟩]
  let book : RuleBook := ⟨.ofList [(⟨"Control"⟩, { sets := lists })], {}, []⟩
  let grants : List Grant := [.type .update ⟨"Control"⟩, .object .update .snapshot 9]
  let p : Policy := ⟨book, Grant.permissions grants⟩
  let source : Endpoint := .object (.plain 1 ⟨"Control"⟩)
  let t : ObjectRef := .snapshotOf 9 ⟨"Risk"⟩ 5
  have hmap : p.canMap source (.object t) {} = true := by decide
  have hlisted : t.effectiveType ∈ (p.book.resolve source.effectiveType).get .map := by decide
  obtain ⟨hobjects, -, hincreasing⟩ := type_stands_for_object p source {}
  obtain ⟨htype, hdraft, hoffered⟩ := hobjects t hmap
  exact ⟨p, source, t, hmap, rfl, rfl, htype, hdraft, by decide, hoffered hlisted, hincreasing⟩

end Policy

end ObjectMapping
