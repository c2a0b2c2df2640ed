import ObjectMapping.Proofs.Rules.Literal

/-! # The order of declarations

A table of declarations is resolved by look-ups and in the order of the names, so nothing depends on
the order in which the declarations have been listed, nor on the order in which a table lists its
names. This holds whatever is wrong with the table: which member of a circle goes without the others,
and which problems are reported first, is decided by the names alone. Of several declarations with
one name the last one counts (`lastEntries`).

* **`SortedMap.ofList_eq_of_perm`** — entries with distinct keys make one map in any order.
* **`SortedMap.ofList_lastEntries`** — and so do the last entries of all keys.
* **`declaration_order_irrelevant`** — the rule book of a list of declarations. -/

namespace ObjectMapping

/-! ### Maps of listed entries -/

namespace SortedMap

variable {κ α : Type} [DecidableEq κ] {key : κ} {l l' : List (κ × α)}

/-- The **last entries** of a list: those after which no other one with the same key comes. -/
def lastEntries : List (κ × α) → List (κ × α)
  | [] => []
  | entry :: rest =>
    if entry.1 ∈ rest.map Prod.fst then lastEntries rest else entry :: lastEntries rest

/-- The last entries are entries. -/
theorem lastEntries_sublist (l : List (κ × α)) : (lastEntries l).Sublist l := by
  induction l with
  | nil => exact .slnil
  | cons entry rest ih =>
    unfold lastEntries
    split
    · exact ih.cons entry
    · exact ih.cons_cons entry

/-- The last entries have distinct keys. -/
theorem nodup_lastEntries (l : List (κ × α)) : ((lastEntries l).map Prod.fst).Nodup := by
  induction l with
  | nil => exact List.nodup_nil
  | cons entry rest ih =>
    unfold lastEntries
    split
    · exact ih
    · next hnew =>
      have hsub := (lastEntries_sublist rest).map Prod.fst
      exact List.nodup_cons.2 ⟨fun hmem => hnew (hsub.subset hmem), ih⟩

/-- What is found from behind is found among the last entries. -/
theorem find?_reverse_lastEntries :
    find? (lastEntries l).reverse key = find? l.reverse key := by
  induction l with
  | nil => rfl
  | cons entry rest ih =>
    unfold lastEntries
    split
    · next hlater =>
      -- the first entry is not found, since there is a later one with its key
      rw [ih, List.reverse_cons, find?_append]
      by_cases hkey : entry.1 = key
      · have hfound : find? rest.reverse key ≠ none := fun hnone =>
          find?_eq_none_iff.1 hnone (by rwa [List.map_reverse, List.mem_reverse, ← hkey])
        obtain ⟨value, hvalue⟩ := Option.ne_none_iff_exists'.1 hfound
        rw [hvalue, Option.some_or]
      · simp [find?, hkey]
    · rw [List.reverse_cons, List.reverse_cons, find?_append, find?_append, ih]

variable [LinearlyOrdered κ]

/-- What is found in the map of a list is what is found from behind. -/
theorem get?_ofList : (ofList l).get? key = find? l.reverse key := by
  rw [ofList, get?_insertAll, get?_empty, Option.or_none]

/-- The map of a list has the keys of its entries. -/
theorem contains_ofList : (ofList l).contains key = true ↔ key ∈ l.map Prod.fst := by
  rw [← Bool.not_eq_false, contains_eq_false_iff, get?_ofList, find?_eq_none_iff, Decidable.not_not,
    List.map_reverse, List.mem_reverse]

/-- What is found in the map of entries with distinct keys is what has been listed. -/
theorem get?_ofList_eq_some_iff (hdistinct : (l.map Prod.fst).Nodup) {value : α} :
    (ofList l).get? key = some value ↔ (key, value) ∈ l := by
  have hreverse : (l.reverse.map Prod.fst).Nodup := by
    rw [List.map_reverse]
    exact List.nodup_reverse.2 hdistinct
  rw [get?_ofList, find?_eq_some_iff hreverse, List.mem_reverse]

/-- **Entries with distinct keys make one map**, in whatever order they are listed. -/
theorem ofList_eq_of_perm (hdistinct : (l.map Prod.fst).Nodup) (h : l.Perm l') :
    ofList l = ofList l' := by
  have hdistinct' : (l'.map Prod.fst).Nodup := (h.map Prod.fst).nodup_iff.1 hdistinct
  refine ext fun key => Option.ext fun value => ?_
  rw [get?_ofList_eq_some_iff hdistinct, get?_ofList_eq_some_iff hdistinct', h.mem_iff]

/-- **The last entries make the same map** as all entries. -/
theorem ofList_lastEntries (l : List (κ × α)) : ofList (lastEntries l) = ofList l :=
  ext fun key => by rw [get?_ofList, get?_ofList, find?_reverse_lastEntries]

/-- Put in order, the keys of a map are the same however they have been listed. -/
theorem toList_ofList_keys {m : SortedMap κ α} {keys : List κ}
    (h : ∀ key, key ∈ keys ↔ m.contains key = true) : (SortedSet.ofList keys).toList = m.keys := by
  let sorted : SortedSet κ := ⟨m.keys, m.increasing⟩
  have hsame : SortedSet.ofList keys = sorted := SortedSet.ext fun key => by
    rw [SortedSet.mem_ofList, h, contains_iff_mem_keys]
    exact Iff.rfl
  rw [hsame]

end SortedMap

/-! ### Rule books -/

/-- A name that is listed has the rules that its last declaration lists itself. -/
theorem mem_resolve_of_lastEntries {l : List (TypeName × Declaration)} {name x : TypeName}
    {d : Declaration} {f : RuleField} (hlast : (name, d) ∈ SortedMap.lastEntries l)
    (hlisted : x ∈ d.literal f) (forbidden : Forbidden) :
    x ∈ ((RuleBook.ofDeclarations l forbidden).resolve name).get f := by
  have hd : (SortedMap.ofList l).get? name = some d := by
    rw [← SortedMap.ofList_lastEntries]
    exact (SortedMap.get?_ofList_eq_some_iff (SortedMap.nodup_lastEntries l)).2 hlast
  obtain ⟨inherited, q, hq, hcompletes⟩ := exists_completed hd
  rw [RuleBook.ofDeclarations, resolve_ofTable hq]
  exact hcompletes.mem_of_literal hlisted

/-- **The order of declarations is irrelevant.** Declarations with distinct names make the same rule
book in any order: the same rules for every name, and the same problems in the same order. Of
declarations with repeated names the last ones make the rule book, and what these list themselves
is in the rules of their names. And the names of a table may be met in any order before they are
sorted: the resolver goes the same way. -/
theorem declaration_order_irrelevant :
    (∀ (l l' : List (TypeName × Declaration)) (forbidden : Forbidden),
      (l.map Prod.fst).Nodup → l.Perm l' →
        RuleBook.ofDeclarations l forbidden = RuleBook.ofDeclarations l' forbidden) ∧
    (∀ (l : List (TypeName × Declaration)) (forbidden : Forbidden),
      RuleBook.ofDeclarations l forbidden =
        RuleBook.ofDeclarations (SortedMap.lastEntries l) forbidden) ∧
    (∀ (l : List (TypeName × Declaration)) (forbidden : Forbidden),
      ∀ entry ∈ SortedMap.lastEntries l, ∀ f, ∀ x ∈ entry.2.literal f,
        x ∈ ((RuleBook.ofDeclarations l forbidden).resolve entry.1).get f) ∧
    ∀ (l : List (TypeName × Declaration)) (names : List TypeName),
      (∀ name, name ∈ names ↔ name ∈ l.map Prod.fst) →
        Resolver.resolveAll (.ofList l) (SortedSet.ofList names).toList {} =
          Resolver.run (.ofList l) := by
  refine ⟨fun l l' forbidden hdistinct hperm => ?_, fun l forbidden => ?_,
    fun l forbidden entry hlast f x hlisted => mem_resolve_of_lastEntries hlast hlisted forbidden,
    fun l names hnames => ?_⟩
  · rw [RuleBook.ofDeclarations, SortedMap.ofList_eq_of_perm hdistinct hperm,
      ← RuleBook.ofDeclarations]
  · rw [RuleBook.ofDeclarations, RuleBook.ofDeclarations, SortedMap.ofList_lastEntries]
  · have hkeys : ∀ name, name ∈ names ↔ (SortedMap.ofList l).contains name = true :=
      fun name => (hnames name).trans SortedMap.contains_ofList.symm
    rw [SortedMap.toList_ofList_keys hkeys, Resolver.run]

/-- Two names on a circle, the first of which also names a mixin that is not declared. Gone through in
another order than that of the names they would have other problems; but their declarations may be
listed in any order, behind others with the same names, and the last ones count. -/
theorem declaration_order_irrelevant_on_circle :
    let b : Declaration := .mk [.named ⟨"C"⟩, .named ⟨"D"⟩] { create := .ofList [⟨"X"⟩] } none
    let c : Declaration := .mk [.named ⟨"B"⟩] ∅ (some true)
    let table : RuleTable := .ofList [(⟨"B"⟩, b), (⟨"C"⟩, c)]
    (Resolver.resolveAll table [⟨"C"⟩, ⟨"B"⟩] {}).diagnostics ≠
        (Resolver.resolveAll table [⟨"B"⟩, ⟨"C"⟩] {}).diagnostics ∧
      Resolver.resolveAll table (SortedSet.ofList [⟨"C"⟩, ⟨"B"⟩]).toList {} = Resolver.run table ∧
      ∀ forbidden, RuleBook.ofDeclarations [(⟨"B"⟩, c), (⟨"C"⟩, c), (⟨"B"⟩, b)] forbidden =
          RuleBook.ofDeclarations [(⟨"B"⟩, b), (⟨"C"⟩, c)] forbidden ∧
        ⟨"X"⟩ ∈ ((RuleBook.ofDeclarations [(⟨"B"⟩, c), (⟨"C"⟩, c), (⟨"B"⟩, b)] forbidden).resolve
          ⟨"B"⟩).get .create := by
  intro b c table
  refine ⟨by decide, declaration_order_irrelevant.2.2.2 _ _ (by simp [or_comm]),
    fun forbidden => ⟨?_, ?_⟩⟩
  · calc RuleBook.ofDeclarations [(⟨"B"⟩, c), (⟨"C"⟩, c), (⟨"B"⟩, b)] forbidden
        = RuleBook.ofDeclarations [(⟨"C"⟩, c), (⟨"B"⟩, b)] forbidden :=
          declaration_order_irrelevant.2.1 _ forbidden
      _ = RuleBook.ofDeclarations [(⟨"B"⟩, b), (⟨"C"⟩, c)] forbidden :=
          declaration_order_irrelevant.1 _ _ forbidden (by decide) (.swap _ _ _)
  · have hlast : ((⟨"B"⟩, b) : TypeName × Declaration) ∈
        SortedMap.lastEntries [(⟨"B"⟩, c), (⟨"C"⟩, c), (⟨"B"⟩, b)] :=
      List.mem_cons_of_mem _ List.mem_cons_self
    exact declaration_order_irrelevant.2.2.1 _ forbidden _ hlast .create _ (by decide)

end ObjectMapping
