import ObjectMapping.Compatibility
import ObjectMapping.Proofs.Rules.Locality

/-! # What a declaration lists itself

Whatever a name inherits, and however the mixins of the table lead round in circles, what is kept of
the name in the end is something inherited that its own declaration has completed. So its literal
types and its literal direction are always there. And the name itself is in its fields `map` and
`unmap` only if its declaration lists it literally, for all else is dropped when the declaration is
completed, after mixins and transforms have had their say.

* **`Runs.keepsCompleted`** — what a run keeps of a name has been completed by its declaration.
* **`contains_ofTable`**, **`exists_completed`** — the rule book has rules for the declared names
  alone, and they are completed ones.
* **`self_mapping_literal`** — objects of one type are mapped to one another, or unmapped, only if
  the declaration of the type lists it itself. -/

namespace ObjectMapping

variable {table : RuleTable} {owner name : TypeName} {mixins : List Mixin} {p p' : PartialRules}
  {r r' : Resolver}

/-! ### What is kept of a name -/

/-- What is kept of each name has been **completed** by its declaration. -/
def KeepsCompleted (table : RuleTable) (r : Resolver) : Prop :=
  ∀ name q, r.done.get? name = some q →
    ∃ d inherited, table.get? name = some d ∧ Completes name d inherited q

/-- **What a run keeps of a name has been completed by its declaration.** -/
theorem Runs.keepsCompleted (h : Runs table owner mixins p r p' r')
    (hkeeps : KeepsCompleted table r) : KeepsCompleted table r' := by
  induction h with
  | nil => exact hkeeps
  | undeclared hname hrest ih => exact ih (by rwa [KeepsCompleted, Resolver.done_report])
  | known hname hq hrest ih => exact ih hkeeps
  | cycle hname hq hstack hrest ih => exact ih (by rwa [KeepsCompleted, Resolver.done_report])
  | taken hname hq hstack hd hrest ihd ih =>
    exact ih (Resolver.forall_done_leave (ihd hkeeps) ⟨_, _, hname, completes_iff.2 rfl⟩)
  | inline hd hrest ihd ih => exact ih (ihd hkeeps)
  | transform hrest ih => exact ih hkeeps

/-- What is kept of a name when a whole table has been resolved has been completed by its
declaration. -/
theorem keepsCompleted_run (table : RuleTable) : KeepsCompleted table (Resolver.run table) := by
  obtain ⟨p', hrun⟩ := Runs.run table ⟨""⟩
  exact hrun.keepsCompleted nofun

/-- The rules of a name of which something is kept. -/
theorem resolve_ofTable {q : PartialRules} (hq : (Resolver.run table).done.get? name = some q)
    (forbidden : Forbidden) : (RuleBook.ofTable table forbidden).resolve name = q.finish := by
  have hrules : (RuleBook.ofTable table forbidden).rules.get? name = some q := hq
  rw [RuleBook.resolve, hrules]

/-- **The rule book has rules for the declared names alone.** -/
theorem contains_ofTable (table : RuleTable) (forbidden : Forbidden) (name : TypeName) :
    (RuleBook.ofTable table forbidden).contains name = table.contains name := by
  rw [Bool.eq_iff_iff]
  constructor
  · intro h
    obtain ⟨q, hq⟩ := Option.isSome_iff_exists.1 h
    obtain ⟨d, -, hd, -⟩ := keepsCompleted_run table name q hq
    exact contains_of_get? hd
  · intro h
    exact Option.isSome_iff_exists.2 (exists_done_run h)

/-- The rules of a name that is not declared allow nothing. -/
theorem resolve_of_undeclared (h : table.contains name = false) (forbidden : Forbidden) :
    (RuleBook.ofTable table forbidden).resolve name = .empty := by
  rw [← contains_ofTable table forbidden] at h
  rw [RuleBook.resolve, SortedMap.contains_eq_false_iff.1 h]

/-- **The rules of a declared name are completed ones.** -/
theorem exists_completed {d : Declaration} (hd : table.get? name = some d) :
    ∃ inherited q, (Resolver.run table).done.get? name = some q ∧
      Completes name d inherited q := by
  obtain ⟨q, hq⟩ := exists_done_run (contains_of_get? hd)
  obtain ⟨e, inherited, he, hcompletes⟩ := keepsCompleted_run table name q hq
  cases hd.symm.trans he
  exact ⟨inherited, q, hq, hcompletes⟩

section Completes

variable {d : Declaration} {inherited q : PartialRules}

/-- Literal types are among the completed ones. -/
theorem Completes.mem_of_literal (h : Completes name d inherited q) {f : RuleField} {x : TypeName}
    (hx : x ∈ d.literal f) : x ∈ q.get f :=
  (h.mem f x).2 (.inl hx)

/-- A literal direction is the completed one. -/
theorem Completes.mega_of_literal (h : Completes name d inherited q) {mega : Bool}
    (hmega : d.mega = some mega) : q.mega = some mega := by
  rw [h.mega, hmega]

/-- In the fields `map` and `unmap` the owner is there only if it is listed literally. -/
theorem Completes.mem_owner_iff (h : Completes name d inherited q) {f : RuleField}
    (hf : f = .map ∨ f = .unmap) : name ∈ q.get f ↔ name ∈ d.literal f := by
  rw [h.mem]
  constructor
  · rintro (hlisted | ⟨-, hother⟩)
    · exact hlisted
    · exact absurd ⟨hf, rfl⟩ hother
  · exact .inl

end Completes

/-! ### Self-mapping -/

/-- A name **lists itself** in a field when it is declared and its own declaration lists it there
literally. -/
def ListsItself (table : RuleTable) (f : RuleField) (name : TypeName) : Prop :=
  ∃ d, table.get? name = some d ∧ name ∈ d.literal f

/-- **A name is in its own fields `map` and `unmap` only if it lists itself there.** -/
theorem mem_resolve_self_iff {f : RuleField} (hf : f = .map ∨ f = .unmap) (forbidden : Forbidden) :
    name ∈ ((RuleBook.ofTable table forbidden).resolve name).get f ↔ ListsItself table f name := by
  cases hname : table.get? name with
  | none =>
    rw [resolve_of_undeclared (SortedMap.contains_eq_false_iff.2 hname)]
    constructor
    · intro h
      rw [RuleSet.get, RuleSet.empty, FieldSets.get_empty] at h
      exact absurd h (SortedSet.not_mem_empty name)
    · rintro ⟨d, hd, -⟩
      cases hname.symm.trans hd
  | some d =>
    obtain ⟨inherited, q, hq, hcompletes⟩ := exists_completed hname
    rw [resolve_ofTable hq]
    refine (hcompletes.mem_owner_iff hf).trans ⟨fun h => ⟨d, hname, h⟩, ?_⟩
    rintro ⟨e, he, hlisted⟩
    cases hname.symm.trans he
    exact hlisted

/-- The rules of two ends of one type allow a field only if the type is in it itself. -/
theorem Policy.ruleAllows_self_iff {policy : Policy} {f : RuleField} :
    policy.ruleAllows f name name = true ↔ name ∈ (policy.book.resolve name).get f := by
  rw [ruleAllows, Bool.or_self, RuleBook.allows, RuleSet.allows_iff]

/-- Ends that may be mapped have rules that allow it. -/
theorem Policy.ruleAllows_of_canMap {policy : Policy} {source target : Endpoint}
    {options : MapOptions} (h : policy.canMap source target options = true) :
    policy.ruleAllows .map source.effectiveType target.effectiveType = true := by
  simp only [canMap, Bool.and_eq_true] at h
  exact h.1.2

/-- Ends that may be unmapped have rules that allow it. -/
theorem Policy.ruleAllows_of_canUnmap {policy : Policy} {source target : Endpoint}
    (h : policy.canUnmap source target = true) :
    policy.ruleAllows .unmap source.effectiveType target.effectiveType = true := by
  simp only [canUnmap, Bool.and_eq_true] at h
  exact h.1.2

/-- **Self-mapping has to be declared literally.** A name is in its own field `map`, or `unmap`,
exactly when it lists itself there, whatever it inherits. So of two ends of that type, whoever holds
which rights, one can be mapped to the other, or unmapped from it, only if the name lists itself. -/
theorem self_mapping_literal (table : RuleTable) (forbidden : Forbidden) (name : TypeName) :
    (name ∈ ((RuleBook.ofTable table forbidden).resolve name).get .map ↔
        ListsItself table .map name) ∧
      (name ∈ ((RuleBook.ofTable table forbidden).resolve name).get .unmap ↔
        ListsItself table .unmap name) ∧
      ∀ (permissions : Permissions) (source target : Endpoint), source.effectiveType = name →
        target.effectiveType = name →
        (¬ ListsItself table .map name → ∀ options,
          Policy.canMap ⟨.ofTable table forbidden, permissions⟩ source target options = false) ∧
        (¬ ListsItself table .unmap name →
          Policy.canUnmap ⟨.ofTable table forbidden, permissions⟩ source target = false) := by
  have hmap := @mem_resolve_self_iff table name .map (.inl rfl) forbidden
  have hunmap := @mem_resolve_self_iff table name .unmap (.inr rfl) forbidden
  refine ⟨hmap, hunmap, fun permissions source target hsource htarget => ⟨?_, ?_⟩⟩
  · intro hlists options
    rw [← Bool.not_eq_true]
    intro hcan
    have hallows := Policy.ruleAllows_of_canMap hcan
    rw [hsource, htarget, Policy.ruleAllows_self_iff] at hallows
    exact hlists (hmap.1 hallows)
  · intro hlists
    rw [← Bool.not_eq_true]
    intro hcan
    have hallows := Policy.ruleAllows_of_canUnmap hcan
    rw [hsource, htarget, Policy.ruleAllows_self_iff] at hallows
    exact hlists (hunmap.1 hallows)

/-- A type inherits itself from another one with which it is on a circle, from a declaration written
in place, which lists it literally, and from a transform that adds it behind all others. It does not
list itself, and so its objects cannot be mapped to one another; the other type lists itself. -/
theorem self_mapping_inherited : ∃ table : RuleTable,
    Mixes table ⟨"Risk"⟩ ⟨"Threat"⟩ ∧ Mixes table ⟨"Threat"⟩ ⟨"Risk"⟩ ∧
      ¬ ListsItself table .map ⟨"Risk"⟩ ∧ ListsItself table .map ⟨"Threat"⟩ ∧
      ∀ forbidden permissions options,
        Policy.canMap ⟨.ofTable table forbidden, permissions⟩ (.draft ⟨"Risk"⟩) (.type ⟨"Risk"⟩)
          options = false ∧
        ⟨"Threat"⟩ ∈ ((RuleBook.ofTable table forbidden).resolve ⟨"Threat"⟩).get .map := by
  let listing : List TypeName → Declaration := Declaration.empty.listing .map
  let risk : Declaration := .mk
    [.named ⟨"Threat"⟩, .inline (listing [⟨"Risk"⟩]),
      .transform (.ofEdits "self" [.insert .map ⟨"Risk"⟩])] ∅ none
  let threat : Declaration := (listing [⟨"Risk"⟩, ⟨"Threat"⟩]).mixin (.named ⟨"Risk"⟩)
  let table : RuleTable := .ofList [(⟨"Risk"⟩, risk), (⟨"Threat"⟩, threat)]
  have hrisk : table.get? ⟨"Risk"⟩ = some risk := by
    simp [table, SortedMap.ofList, SortedMap.insertAll]
  have hthreat : table.get? ⟨"Threat"⟩ = some threat := by
    simp [table, SortedMap.ofList, SortedMap.insertAll]
  have hself : ¬ ListsItself table .map ⟨"Risk"⟩ := by
    rintro ⟨d, hd, hlisted⟩
    cases hrisk.symm.trans hd
    exact absurd hlisted (by decide)
  have hother : ListsItself table .map ⟨"Threat"⟩ := ⟨threat, hthreat, by decide⟩
  refine ⟨table, ⟨risk, hrisk, by decide, contains_of_get? hthreat⟩,
    ⟨threat, hthreat, by decide, contains_of_get? hrisk⟩, hself, hother,
    fun forbidden permissions options => ⟨?_, ?_⟩⟩
  · obtain ⟨-, -, hcan⟩ := self_mapping_literal table forbidden ⟨"Risk"⟩
    exact (hcan permissions (.draft ⟨"Risk"⟩) (.type ⟨"Risk"⟩) rfl rfl).1 hself options
  · exact (self_mapping_literal table forbidden ⟨"Threat"⟩).1.2 hother

end ObjectMapping
