import Mathlib.Data.Finset.Card
import Mathlib.Data.List.Induction
import ObjectMapping.Catalog
import ObjectMapping.SortedMap

/-! # The catalog of a list of declarations

Types are declared one after the other, and a name may be declared again by mistake. The catalog
keeps the declaration that is the first of its name, and lists what it keeps in the order in which it
was declared. Everything else that it answers follows from this list: what is known of a name, how
many names there are, which types belong to a group and which can be frozen.

A catalog can also be kept in two parts that are changed side by side, an index by name and the names
in order (`Catalog.Index`). A name that stood in the order and was missing from the index would be
lost without a word, so it matters that the two stay in step.

* **`Catalog.firsts_eq`** — the types that are kept are the first of their names.
* **`Catalog.Index.inStep_ofTypes`** — both parts of an index stay in step with the list.
* **`Catalog.sortedIn_pairwise`** — the types of a group are sorted by display name, and the order of
  declaration decides between equal ones.
* **`Catalog.ofTypes_declared`** — all of this together, for any list of declarations. -/

namespace ObjectMapping

/-- Every group is listed. -/
theorem Category.mem_all (category : Category) : category ∈ all := by cases category <;> decide

namespace Catalog

variable {declared known : List TypeInfo} {t : TypeInfo} {name : TypeName}

/-! ### The first of each name -/

/-- The names of a list of types, in order. -/
def names (types : List TypeInfo) : List TypeName := types.map TypeInfo.name

/-- The names of types with one more at the end. -/
theorem names_concat (types : List TypeInfo) (t : TypeInfo) :
    names (types ++ [t]) = names types ++ [t.name] :=
  List.map_append

/-- There are as many names as types. -/
theorem length_names (types : List TypeInfo) : (names types).length = types.length :=
  List.length_map _

/-- The declarations that are the **first of their name**: they stand where their name does for the
first time. -/
def firstOfNames (declared : List TypeInfo) : List TypeInfo :=
  (declared.zipIdx.filter fun e => (names declared).idxOf e.1.name = e.2).map Prod.fst

/-- A declaration at the end is the first of its name if the name has not been there before; what is
the first of its name in front of it stays so. -/
theorem firstOfNames_concat (declared : List TypeInfo) (t : TypeInfo) :
    firstOfNames (declared ++ [t]) =
      firstOfNames declared ++ if t.name ∈ names declared then [] else [t] := by
  have hbefore : ∀ e ∈ declared.zipIdx,
      ((names (declared ++ [t])).idxOf e.1.name = e.2 ↔
        (names declared).idxOf e.1.name = e.2) := by
    intro e he
    have hmem : e.1.name ∈ names declared :=
      List.mem_map_of_mem (List.fst_mem_of_mem_zipIdx he)
    rw [names_concat, List.idxOf_append_of_mem hmem]
  have hlast : (names (declared ++ [t])).idxOf t.name = declared.length ↔
      t.name ∉ names declared := by
    rw [names_concat]
    by_cases hmem : t.name ∈ names declared
    · have hlt := List.idxOf_lt_length_iff.2 hmem
      rw [length_names] at hlt
      rw [List.idxOf_append_of_mem hmem]
      exact iff_of_false (Nat.ne_of_lt hlt) (not_not_intro hmem)
    · rw [List.idxOf_append_of_notMem hmem, length_names, List.idxOf_cons_self]
      exact iff_of_true rfl hmem
  rw [firstOfNames, List.zipIdx_append, List.filter_append, List.map_append, firstOfNames,
    List.filter_congr fun e he => decide_eq_decide.2 (hbefore e he), Nat.zero_add]
  congr 1
  by_cases hmem : t.name ∈ names declared
  · simp [hlast, hmem]
  · simp [hlast, hmem]

/-- The names of the first of each name are all names. -/
theorem mem_names_firstOfNames : name ∈ names (firstOfNames declared) ↔ name ∈ names declared := by
  induction declared using List.reverseRecOn with
  | nil => rfl
  | append_singleton l t ih =>
    rw [firstOfNames_concat, names_concat, List.mem_append, List.mem_singleton, ← ih]
    split
    · next hmem =>
      rw [List.append_nil]
      exact ⟨.inl, fun h => h.elim id fun heq => ih.2 (heq ▸ hmem)⟩
    · rw [names_concat, List.mem_append, List.mem_singleton]

/-- A type whose name is there already is not added. -/
theorem addNew_of_mem (h : t.name ∈ names known) : addNew known t = known := if_pos h

/-- A type with a new name is added at the end. -/
theorem addNew_of_notMem (h : t.name ∉ names known) : addNew known t = known ++ [t] := if_neg h

/-- What is kept of one more declaration. -/
theorem firsts_concat (declared : List TypeInfo) (t : TypeInfo) :
    firsts (declared ++ [t]) = addNew (firsts declared) t := by
  rw [firsts, List.foldl_append]
  rfl

/-- **The types that a catalog keeps are the first of their names.** -/
theorem firsts_eq (declared : List TypeInfo) : firsts declared = firstOfNames declared := by
  induction declared using List.reverseRecOn with
  | nil => rfl
  | append_singleton l t ih =>
    rw [firsts_concat, ih, firstOfNames_concat]
    by_cases hmem : t.name ∈ names l
    · rw [if_pos hmem, List.append_nil, addNew_of_mem (mem_names_firstOfNames.2 hmem)]
    · rw [if_neg hmem, addNew_of_notMem (mt mem_names_firstOfNames.1 hmem)]

/-- The first of each name stand in the order in which their names are there for the first time. -/
theorem pairwise_firstOfNames (declared : List TypeInfo) : (firstOfNames declared).Pairwise
    fun a b => (names declared).idxOf a.name < (names declared).idxOf b.name := by
  have hplaces : declared.zipIdx.Pairwise fun e e' => e.2 < e'.2 := by
    have h : ((declared.zipIdx.map Prod.snd)).Pairwise (· < ·) := by
      rw [List.zipIdx_map_snd]
      exact List.pairwise_lt_range'
    exact List.pairwise_map.1 h
  rw [firstOfNames, List.pairwise_map]
  refine List.Pairwise.imp_of_mem ?_ (hplaces.filter _)
  intro e e' he he' hlt
  have hfirst := of_decide_eq_true (List.mem_filter.1 he).2
  have hfirst' := of_decide_eq_true (List.mem_filter.1 he').2
  rwa [hfirst, hfirst']

/-! ### What is known of a name -/

/-- What is found among types with distinct names is what stands there. -/
theorem find?_of_mem (hdistinct : (names known).Nodup) (hmem : t ∈ known) :
    (known.find? fun u => u.name = t.name) = some t := by
  induction known with
  | nil => cases hmem
  | cons u rest ih =>
    obtain ⟨hnew, hdistinct⟩ := List.nodup_cons.1 hdistinct
    obtain rfl | hmem := List.mem_cons.1 hmem
    · exact List.find?_cons_of_pos (decide_eq_true rfl)
    · have hne : u.name ≠ t.name := fun heq =>
        hnew (heq ▸ List.mem_map_of_mem (f := TypeInfo.name) hmem)
      rw [List.find?_cons_of_neg (by simpa using hne)]
      exact ih hdistinct hmem

/-- A name is found exactly when it is one of the names. -/
theorem isSome_find?_iff :
    (known.find? fun u => u.name = name).isSome = true ↔ name ∈ names known := by
  rw [List.find?_isSome, names, List.mem_map]
  simp only [decide_eq_true_eq]

/-- What is found of a name when one more type has been added. -/
theorem find?_addNew (known : List TypeInfo) (t : TypeInfo) (name : TypeName) :
    ((addNew known t).find? fun u => u.name = name) =
      (known.find? fun u => u.name = name).or (if t.name = name then some t else none) := by
  by_cases hmem : t.name ∈ names known
  · rw [addNew_of_mem hmem]
    split
    · next heq =>
      obtain ⟨u, hu⟩ := Option.isSome_iff_exists.1 (isSome_find?_iff.2 (heq ▸ hmem))
      rw [hu, Option.some_or]
    · rw [Option.or_none]
  · rw [addNew_of_notMem hmem, List.find?_append]
    congr 1
    by_cases heq : t.name = name
    · simp [heq]
    · simp [heq]

/-- **What is known of a name** is its first declaration. -/
theorem get?_ofTypes (declared : List TypeInfo) (name : TypeName) :
    (ofTypes declared).get? name = declared.find? fun t => t.name = name := by
  show ((firsts declared).find? fun t => t.name = name) = _
  induction declared using List.reverseRecOn with
  | nil => rfl
  | append_singleton l t ih =>
    rw [firsts_concat, find?_addNew, ih, List.find?_append]
    congr 1
    by_cases heq : t.name = name
    · simp [heq]
    · simp [heq]

/-- There are as many types as different names. -/
theorem size_ofTypes (declared : List TypeInfo) :
    (ofTypes declared).size = (names declared).toFinset.card := by
  have hsame : (names (firsts declared)).toFinset = (names declared).toFinset := by
    ext name
    rw [List.mem_toFinset, List.mem_toFinset, firsts_eq, mem_names_firstOfNames]
  have hdistinct : (names (firsts declared)).Nodup := firsts_distinct declared
  rw [← hsame, List.toFinset_card_of_nodup hdistinct, length_names]
  rfl

/-! ### An index beside the list -/

/-- An **index** of types: what is known of each name, and the names in order of declaration. -/
structure Index where
  /-- What is known of a type, by name. -/
  byName : SortedMap TypeName TypeInfo := ∅
  /-- The names in order of declaration. -/
  order : List TypeName := []

namespace Index

variable {x : Index}

/-- The index with one more type, unless its name is there already. -/
def add (x : Index) (t : TypeInfo) : Index :=
  if x.byName.contains t.name then x
  else { byName := x.byName.insert t.name t, order := x.order ++ [t.name] }

/-- The index of a list of types. -/
def ofTypes (types : List TypeInfo) : Index := types.foldl add {}

/-- The types of an index in order of declaration. A name that nothing is known of is passed over. -/
def types (x : Index) : List TypeInfo := x.order.filterMap x.byName.get?

/-- An index is **in step** with a list of types when it has their names in their order and knows of
each name what the list does. -/
structure InStep (x : Index) (known : List TypeInfo) : Prop where
  /-- The names are those of the list. -/
  order : x.order = names known
  /-- What is known of a name is what the list says. -/
  found : ∀ name, x.byName.get? name = known.find? fun t => t.name = name

/-- **One more type keeps an index in step.** -/
theorem InStep.add (h : x.InStep known) (t : TypeInfo) : (x.add t).InStep (addNew known t) := by
  have hcontains : x.byName.contains t.name = true ↔ t.name ∈ names known := by
    rw [SortedMap.contains, h.found, isSome_find?_iff]
  unfold Index.add
  by_cases hmem : t.name ∈ names known
  · rw [if_pos (hcontains.2 hmem), addNew_of_mem hmem]
    exact h
  · rw [if_neg (mt hcontains.1 hmem), addNew_of_notMem hmem]
    refine ⟨?_, fun name => ?_⟩
    · rw [h.order, names_concat]
    · rw [SortedMap.get?_insert, h.found, List.find?_append]
      by_cases heq : name = t.name
      · have hnone : known.find? (fun u => u.name = name) = none := by
          rw [← Option.not_isSome_iff_eq_none, isSome_find?_iff]
          exact heq ▸ hmem
        simp [heq, heq ▸ hnone]
      · simp [heq, Ne.symm heq]

/-- **The index of a list of declarations is in step with what is kept of them.** -/
theorem inStep_ofTypes (declared : List TypeInfo) : (ofTypes declared).InStep (firsts declared) := by
  induction declared using List.reverseRecOn with
  | nil => exact ⟨rfl, fun _ => rfl⟩
  | append_singleton l t ih =>
    have hstep : ofTypes (l ++ [t]) = (ofTypes l).add t := by
      rw [ofTypes, List.foldl_append]
      rfl
    rw [hstep, firsts_concat]
    exact ih.add t

/-- An index in step with types of distinct names lists them: there is no name that nothing is known
of. -/
theorem InStep.types_eq (h : x.InStep known) (hdistinct : (names known).Nodup) :
    x.types = known := by
  rw [Index.types, h.order, names, List.filterMap_map]
  have hself : ∀ t ∈ known, (x.byName.get? ∘ TypeInfo.name) t = some t := fun t ht =>
    (h.found t.name).trans (find?_of_mem hdistinct ht)
  rw [List.filterMap_congr hself, List.filterMap_some]

/-- An index in step with types of distinct names has as many of them. -/
theorem InStep.size_eq (h : x.InStep known) (hdistinct : (names known).Nodup) :
    x.byName.size = known.length := by
  have hsame : x.byName.keys.Perm (names known) := by
    refine (List.perm_ext_iff_of_nodup x.byName.nodup_keys hdistinct).2 fun name => ?_
    rw [← isSome_find?_iff, ← h.found]
    exact SortedMap.contains_iff_mem_keys.symm
  rw [← length_names, ← hsame.length_eq]
  exact (List.length_map _).symm

end Index

/-! ### The types of a group -/

/-- The types of a group as they are known, by display name. -/
def sortedIn (c : Catalog) (category : Category) : List TypeInfo :=
  (c.types.filter fun t => t.category = category).mergeSort fun a b => a.displayName ≤ b.displayName

/-- The types of a group are the names of those that are known. -/
theorem typesIn_eq (c : Catalog) (category : Category) :
    c.typesIn category = names (c.sortedIn category) := rfl

/-- The known types of a group. -/
theorem mem_sortedIn {c : Catalog} {category : Category} :
    t ∈ c.sortedIn category ↔ t ∈ c.types ∧ t.category = category := by
  rw [sortedIn, List.mem_mergeSort, List.mem_filter, decide_eq_true_eq]

section Sorting

variable {a b : TypeInfo}

/-- Display names are compared transitively. -/
theorem displayName_trans (a b c : TypeInfo) (hab : decide (a.displayName ≤ b.displayName) = true)
    (hbc : decide (b.displayName ≤ c.displayName) = true) :
    decide (a.displayName ≤ c.displayName) = true :=
  decide_eq_true (String.le_trans (of_decide_eq_true hab) (of_decide_eq_true hbc))

/-- Of two display names one comes first, or they are equal. -/
theorem displayName_total (a b : TypeInfo) :
    (decide (a.displayName ≤ b.displayName) || decide (b.displayName ≤ a.displayName)) = true := by
  simpa using String.le_total a.displayName b.displayName

/-- Sorting by display name leaves the types with one and the same display name in their order. -/
theorem filter_mergeSort (known : List TypeInfo) (displayName : String) :
    ((known.mergeSort fun a b => a.displayName ≤ b.displayName).filter
        fun t => t.displayName = displayName) =
      known.filter fun t => t.displayName = displayName := by
  have halike : (known.filter fun t => t.displayName = displayName).Pairwise
      fun a b => decide (a.displayName ≤ b.displayName) = true := by
    refine List.pairwise_of_forall_mem_list fun a ha b hb => ?_
    have ha := of_decide_eq_true (List.mem_filter.1 ha).2
    have hb := of_decide_eq_true (List.mem_filter.1 hb).2
    exact decide_eq_true (ha.trans hb.symm ▸ String.le_refl _)
  have hsublist := List.sublist_mergeSort displayName_trans displayName_total halike
    List.filter_sublist
  have hfiltered := hsublist.filter fun t => t.displayName = displayName
  rw [List.filter_filter] at hfiltered
  simp only [Bool.and_self] at hfiltered
  refine (hfiltered.eq_of_length ?_).symm
  exact ((List.mergeSort_perm known _).filter _).length_eq.symm

/-- **The types of a group are sorted by display name**, and those with one and the same display name
are in the order of the catalog. -/
theorem sortedIn_pairwise {R : TypeInfo → TypeInfo → Prop} {c : Catalog} (hR : c.types.Pairwise R)
    (category : Category) : (c.sortedIn category).Pairwise fun a b =>
      a.displayName < b.displayName ∨ a.displayName = b.displayName ∧ R a b := by
  have hsorted := List.pairwise_mergeSort displayName_trans displayName_total
    (c.types.filter fun t => t.category = category)
  refine List.pairwise_iff_forall_sublist.2 fun {a b} hab => ?_
  have hle : a.displayName ≤ b.displayName :=
    of_decide_eq_true (List.pairwise_iff_forall_sublist.1 hsorted hab)
  rcases LinearlyOrdered.connected a.displayName b.displayName with hlt | heq | hgt
  · exact .inl hlt
  · -- both have the display name of the second, so neither has changed places with the other
    have hkept := hab.filter fun t => t.displayName = b.displayName
    rw [sortedIn, filter_mergeSort] at hkept
    simp only [List.filter_cons, heq, decide_true, if_true, List.filter_nil] at hkept
    have hsublist := (hkept.trans List.filter_sublist).trans List.filter_sublist
    exact .inr ⟨heq, List.pairwise_iff_forall_sublist.1 hR hsublist⟩
  · exact absurd hgt (String.not_lt.2 hle)

end Sorting

variable {c : Catalog}

/-- What is known of the name of a known type. -/
theorem get?_of_mem (h : t ∈ c.types) : c.get? t.name = some t := find?_of_mem c.distinct h

/-- What is known of a name is a known type of that name. -/
theorem get?_eq_some_iff : c.get? name = some t ↔ t ∈ c.types ∧ t.name = name := by
  constructor
  · intro h
    exact ⟨List.mem_of_find?_eq_some h, by simpa using List.find?_some h⟩
  · rintro ⟨hmem, rfl⟩
    exact get?_of_mem hmem

/-- A name belongs to the group that is known of it. -/
theorem mem_typesIn_iff {category : Category} :
    name ∈ c.typesIn category ↔ c.category? name = some category := by
  rw [typesIn_eq, names, List.mem_map, category?, Option.map_eq_some_iff]
  simp only [mem_sortedIn, get?_eq_some_iff]
  constructor
  · rintro ⟨t, ⟨hmem, hcategory⟩, hname⟩
    exact ⟨t, ⟨hmem, hname⟩, hcategory⟩
  · rintro ⟨t, ⟨hmem, hname⟩, hcategory⟩
    exact ⟨t, ⟨hmem, hcategory⟩, hname⟩

/-- No name is there twice in a group. -/
theorem nodup_typesIn (c : Catalog) (category : Category) : (c.typesIn category).Nodup := by
  have hperm := List.mergeSort_perm (c.types.filter fun t => t.category = category)
    fun a b => a.displayName ≤ b.displayName
  refine (hperm.map TypeInfo.name).nodup_iff.2 ?_
  exact c.distinct.sublist (List.filter_sublist.map TypeInfo.name)

/-- All groups together have every known name, and each once. -/
theorem count_allTypes (c : Catalog) (name : TypeName) :
    (Category.all.flatMap c.typesIn).count name = if c.contains name then 1 else 0 := by
  have hnodup : (Category.all.flatMap c.typesIn).Nodup := by
    refine List.nodup_flatMap.2 ⟨fun category _ => c.nodup_typesIn category, ?_⟩
    refine List.Pairwise.imp (fun hne => ?_) (by decide : Category.all.Nodup)
    refine List.disjoint_left.2 fun m hm hm' => hne ?_
    rw [mem_typesIn_iff] at hm hm'
    exact Option.some.inj (hm.symm.trans hm')
  have hmem : name ∈ Category.all.flatMap c.typesIn ↔ c.contains name = true := by
    simp only [List.mem_flatMap, mem_typesIn_iff, Category.mem_all, true_and, category?, contains]
    cases c.get? name <;> simp
  rw [hnodup.count]
  exact if_congr hmem rfl rfl

/-- The types that can be frozen are those of which it is known, in the order of the catalog. -/
theorem snapshotableTypes_eq (c : Catalog) :
    c.snapshotableTypes = (names c.types).filter c.isSnapshotable := by
  have hknown : ∀ t ∈ c.types, (c.isSnapshotable ∘ TypeInfo.name) t = t.snapshotable := by
    intro t ht
    show (c.get? t.name).any TypeInfo.snapshotable = _
    rw [get?_of_mem ht, Option.any_some]
  rw [names, List.filter_map, List.filter_congr hknown]
  rfl

/-! ### The whole catalog -/

/-- How a catalog **goes with** the declarations that it was made from. -/
structure OfDeclared (c : Catalog) (declared : List TypeInfo) : Prop where
  /-- The types are the declarations that are the first of their name, in order. -/
  types : c.types = firstOfNames declared
  /-- What is known of a name is its first declaration. -/
  found : ∀ name, c.get? name = declared.find? fun t => t.name = name
  /-- There are as many types as different names. -/
  size : c.size = (names declared).toFinset.card
  /-- An index of the declarations lists the same types, knows the same of every name and has as many
  types; and the names that it lists are those of which it knows anything. -/
  index : (Index.ofTypes declared).types = c.types ∧
    (∀ name, (Index.ofTypes declared).byName.get? name = c.get? name) ∧
    (Index.ofTypes declared).byName.size = c.size ∧
    (Index.ofTypes declared).order.Nodup ∧
    ∀ name, name ∈ (Index.ofTypes declared).order ↔
      (Index.ofTypes declared).byName.contains name = true
  /-- The types of a group are sorted by display name; the order of declaration decides between equal
  ones. -/
  sorted : ∀ category, (c.typesIn category).Pairwise fun m n =>
    c.displayName m < c.displayName n ∨
      c.displayName m = c.displayName n ∧ (names declared).idxOf m < (names declared).idxOf n
  /-- A group has the names whose first declaration puts them there. -/
  grouped : ∀ category name, name ∈ c.typesIn category ↔ c.category? name = some category
  /-- All groups together have every declared name, and each once. -/
  once : ∀ name, (Category.all.flatMap c.typesIn).count name =
    if name ∈ names declared then 1 else 0
  /-- The types that can be frozen are those of which it is known, in the order of the catalog. -/
  snapshotable : c.snapshotableTypes = (names c.types).filter c.isSnapshotable

/-- **The catalog of a list of declarations goes with them**, however often a name is declared. -/
theorem ofTypes_declared (declared : List TypeInfo) : (ofTypes declared).OfDeclared declared where
  types := firsts_eq declared
  found := get?_ofTypes declared
  size := size_ofTypes declared
  index := by
    have hstep := Index.inStep_ofTypes declared
    have hdistinct : (names (firsts declared)).Nodup := firsts_distinct declared
    refine ⟨hstep.types_eq hdistinct, hstep.found, hstep.size_eq hdistinct, ?_, fun name => ?_⟩
    · rw [hstep.order]
      exact hdistinct
    · rw [hstep.order, SortedMap.contains, hstep.found, isSome_find?_iff]
  sorted category := by
    have hordered : (ofTypes declared).types.Pairwise fun a b =>
        (names declared).idxOf a.name < (names declared).idxOf b.name := by
      show (firsts declared).Pairwise _
      rw [firsts_eq]
      exact pairwise_firstOfNames declared
    have hdisplay : ∀ t ∈ (ofTypes declared).sortedIn category,
        (ofTypes declared).displayName t.name = t.displayName := by
      intro t ht
      rw [displayName, get?_of_mem (mem_sortedIn.1 ht).1]
    rw [typesIn_eq]
    refine List.pairwise_map.2 (List.Pairwise.imp_of_mem ?_ (sortedIn_pairwise hordered category))
    intro a b ha hb h
    rwa [hdisplay a ha, hdisplay b hb]
  grouped _ _ := mem_typesIn_iff
  once name := by
    rw [count_allTypes, contains, get?_ofTypes]
    exact if_congr isSome_find?_iff rfl rfl
  snapshotable := snapshotableTypes_eq _

end Catalog

end ObjectMapping
