import ObjectMapping.Search.Draft
import ObjectMapping.Search.Plan

/-! # The form in which queries are sent

A query is sent as JSON, where conditions and inner nodes of a filter have one shape, empty lists are
left out and so are parts without a value. Nothing is lost by this: what is left out is told from
what is there, and every member is found under its name whatever stands beside it.

* **`Filter.eq_of_toJson_eq`** — a filter is known from its JSON.
* **`Query.eq_of_toJson_eq`** — and so is a query.
* **`Query.page?_ne_none`** — what speaks of a page or of an order is a query with a page.
* **`sent_faithfully`** — all of this together, for queries put together from any parts. -/

namespace ObjectMapping

/-! ### The members of a value -/

namespace Json

mutual

/-- The names of the members in a value, at any depth. -/
def names : Json → List String
  | .arr items => itemNames items
  | .obj members => memberNames members
  | _ => []

/-- The names of the members in the items of a list. -/
def itemNames : List Json → List String
  | [] => []
  | j :: rest => names j ++ itemNames rest

/-- The names of members and of those in their values. -/
def memberNames : List (String × Json) → List String
  | [] => []
  | (name, j) :: rest => name :: (names j ++ memberNames rest)

end

mutual

/-- Whether the members in a value stand **in the order of their names**, at any depth, none of them
twice. Values in order are the same as soon as they are equal. -/
def InOrder : Json → Prop
  | .arr items => ItemsInOrder items
  | .obj members => (members.map Prod.fst).Pairwise (· < ·) ∧ MembersInOrder members
  | _ => True

/-- Whether the items of a list are in order. -/
def ItemsInOrder : List Json → Prop
  | [] => True
  | j :: rest => InOrder j ∧ ItemsInOrder rest

/-- Whether the values of members are in order. -/
def MembersInOrder : List (String × Json) → Prop
  | [] => True
  | (_, j) :: rest => InOrder j ∧ MembersInOrder rest

end

section Items

variable {α : Type} {toJson : α → Json} {l : List α}

/-- The names in a list of values are those in each of them. -/
theorem mem_itemNames_map {name : String} :
    name ∈ itemNames (l.map toJson) ↔ ∃ a ∈ l, name ∈ (toJson a).names := by
  induction l with
  | nil => simp [itemNames]
  | cons a rest ih => simp [itemNames, ih]

/-- A list of values is in order if each of them is. -/
theorem itemsInOrder_map (h : ∀ a, (toJson a).InOrder) : ItemsInOrder (l.map toJson) := by
  induction l with
  | nil => trivial
  | cons a rest ih => exact ⟨h a, ih⟩

end Items

/-- The names of members are their own and those in their values. -/
theorem mem_memberNames {members : List (String × Json)} {name : String} :
    name ∈ memberNames members ↔ ∃ m ∈ members, name = m.1 ∨ name ∈ m.2.names := by
  induction members with
  | nil => simp [memberNames]
  | cons m rest ih => simp [memberNames, ih, or_assoc]

/-- The values of members are in order if each of them is. -/
theorem membersInOrder_iff {members : List (String × Json)} :
    MembersInOrder members ↔ ∀ m ∈ members, m.2.InOrder := by
  induction members with
  | nil => simp [MembersInOrder]
  | cons m rest ih => simp [MembersInOrder, ih]

/-- An object is in order if its names are and each of its values is. -/
theorem inOrder_obj {members : List (String × Json)} (names : List String)
    (hnames : members.map Prod.fst = names) (horder : names.Pairwise (· < ·))
    (hmembers : MembersInOrder members) : (obj members).InOrder :=
  ⟨hnames ▸ horder, hmembers⟩

end Json

/-! ### Words -/

/-- Connectives with one word are equal. -/
theorem Connective.text_injective {a b : Connective} (h : a.text = b.text) : a = b := by
  cases a <;> cases b <;> revert h <;> decide

/-- Orders with one word are equal. -/
theorem SortOrder.text_injective {a b : SortOrder} (h : a.text = b.text) : a = b := by
  cases a <;> cases b <;> revert h <;> decide

/-- Ways of being related with one word are equal. -/
theorem Relevance.text_injective {a b : Relevance} (h : a.text = b.text) : a = b := by
  cases a <;> cases b <;> revert h <;> decide

/-- Rights with one word are equal. -/
theorem RequiredAccess.text_injective {a b : RequiredAccess} (h : a.text = b.text) : a = b := by
  cases a <;> cases b <;> revert h <;> decide

/-- Kinds of answers with one word are equal. -/
theorem ResultKind.text_injective {a b : ResultKind} (h : a.text = b.text) : a = b := by
  cases a <;> cases b <;> revert h <;> decide

/-! ### Filters -/

/-- A literal is known from its JSON. -/
theorem Literal.eq_of_toJson_eq {a b : Literal} (h : a.toJson = b.toJson) : a = b := by
  cases a with
  | text s => cases b <;> cases h; rfl
  | number n =>
    cases b with
    | number m => rw [Int64.toInt_inj.1 (Json.int.inj h)]
    | _ => cases h
  | bool v => cases b <;> cases h; rfl
  | list items =>
    cases b with
    | list items' =>
      rw [(List.map_inj_right fun _ _ => Json.str.inj).1 (Json.arr.inj h)]
    | _ => cases h

/-- The parts of a node are known from its JSON. -/
theorem Filter.nodeJson_inj {left left' right right' : Json} {sign sign' : String} :
    nodeJson left sign right = nodeJson left' sign' right' ↔
      left = left' ∧ sign = sign' ∧ right = right' := by
  simp [nodeJson]

/-- **A filter is known from its JSON.** Conditions and inner nodes have one shape, but what stands on
the left is a string in the one and an object in the other. -/
theorem Filter.eq_of_toJson_eq {f g : Filter} (h : f.toJson = g.toJson) : f = g := by
  induction f generalizing g with
  | empty => cases g <;> first | rfl | cases h
  | condition c =>
    cases g with
    | empty => cases h
    | condition c' =>
      obtain ⟨hfield, hsign, hliteral⟩ := nodeJson_inj.1 h
      obtain ⟨field, comparison, literal⟩ := c
      obtain ⟨field', comparison', literal'⟩ := c'
      obtain rfl : field = field' := Json.str.inj hfield
      obtain rfl : comparison = comparison' := Comparison.text_injective hsign
      obtain rfl : literal = literal' := Literal.eq_of_toJson_eq hliteral
      rfl
    | binary left connective right =>
      -- the JSON of a filter is an object, and the name of a field is not
      have hleft := (nodeJson_inj.1 h).1
      cases left <;> cases hleft
  | binary left connective right ihleft ihright =>
    cases g with
    | empty => cases h
    | condition c =>
      have hleft := (nodeJson_inj.1 h).1
      cases left <;> cases hleft
    | binary left' connective' right' =>
      obtain ⟨hleft, hsign, hright⟩ := nodeJson_inj.1 h
      rw [ihleft hleft, ihright hright, Connective.text_injective hsign]

/-- A literal has no members. -/
theorem Literal.names_toJson (a : Literal) : a.toJson.names = [] := by
  cases a with
  | list items =>
    refine List.eq_nil_iff_forall_not_mem.2 fun name hname => ?_
    obtain ⟨s, -, hname⟩ := Json.mem_itemNames_map.1 hname
    cases hname
  | _ => rfl

/-- The names in a node. -/
theorem Filter.names_nodeJson (left right : Json) (sign : String) :
    (nodeJson left sign right).names =
      "left" :: (left.names ++ "op" :: "name" :: "right" :: right.names) := by
  simp [nodeJson, Json.names, Json.memberNames]

/-- The names in the JSON of a filter are those of the parts of a node. -/
theorem Filter.mem_of_mem_names {f : Filter} {name : String} (h : name ∈ f.toJson.names) :
    name ∈ ["left", "op", "name", "right"] := by
  induction f with
  | empty => cases h
  | condition c =>
    rw [toJson, names_nodeJson, Literal.names_toJson] at h
    exact h
  | binary left connective right ihleft ihright =>
    rw [toJson, names_nodeJson] at h
    obtain rfl | h := List.mem_cons.1 h
    · decide
    · obtain h | h := List.mem_append.1 h
      · exact ihleft h
      · -- what stands behind the left side
        simp only [List.mem_cons] at h
        obtain rfl | rfl | rfl | h := h
        · decide
        · decide
        · decide
        · exact ihright h

/-- A literal is in order. -/
theorem Literal.inOrder_toJson (a : Literal) : a.toJson.InOrder := by
  cases a with
  | list items => exact Json.itemsInOrder_map fun _ => trivial
  | _ => trivial

/-- A node is in order if both its sides are. -/
theorem Filter.inOrder_nodeJson {left right : Json} (sign : String) (hleft : left.InOrder)
    (hright : right.InOrder) : (nodeJson left sign right).InOrder :=
  Json.inOrder_obj ["left", "op", "right"] rfl (by decide)
    ⟨hleft, Json.inOrder_obj ["name"] rfl (by decide) ⟨trivial, trivial⟩, hright, trivial⟩

/-- **The JSON of a filter is in order.** -/
theorem Filter.inOrder_toJson (f : Filter) : f.toJson.InOrder := by
  induction f with
  | empty => exact ⟨.nil, trivial⟩
  | condition c => exact inOrder_nodeJson _ trivial c.literal.inOrder_toJson
  | binary left connective right ihleft ihright => exact inOrder_nodeJson _ ihleft ihright

/-! ### Anchors and pages -/

/-- A name of a type is known from its JSON. -/
theorem TypeName.eq_of_toJson_eq {a b : TypeName} (h : a.toJson = b.toJson) : a = b := by
  obtain ⟨text⟩ := a
  obtain ⟨text'⟩ := b
  exact congrArg TypeName.mk (Json.str.inj h)

/-- An anchor is known from its JSON. -/
theorem Anchor.eq_of_toJson_eq {a b : Anchor} (h : a.toJson = b.toJson) : a = b := by
  obtain ⟨type, ids, relevance⟩ := a
  obtain ⟨type', ids', relevance'⟩ := b
  simp only [toJson, Json.obj.injEq, List.cons.injEq, Prod.mk.injEq, Json.arr.injEq,
    Json.str.injEq, true_and, and_true] at h
  obtain ⟨hids, htype, hrelevance⟩ := h
  obtain rfl := TypeName.eq_of_toJson_eq htype
  obtain rfl := (List.map_inj_right fun _ _ => Json.int.inj).1 hids
  obtain rfl := Relevance.text_injective hrelevance
  rfl

/-- The names in the JSON of an anchor. -/
theorem Anchor.names_toJson (a : Anchor) : a.toJson.names = ["ids", "object_name", "op"] := by
  have hids : Json.itemNames (a.ids.map Json.int) = [] := by
    refine List.eq_nil_iff_forall_not_mem.2 fun name hname => ?_
    obtain ⟨id, -, hname⟩ := Json.mem_itemNames_map.1 hname
    cases hname
  simp [toJson, Json.names, Json.memberNames, hids, TypeName.toJson]

/-- The JSON of an anchor is in order. -/
theorem Anchor.inOrder_toJson (a : Anchor) : a.toJson.InOrder :=
  Json.inOrder_obj ["ids", "object_name", "op"] rfl (by decide)
    ⟨Json.itemsInOrder_map fun _ => trivial, trivial, trivial, trivial⟩

/-- A field to sort by is known from its JSON. -/
theorem SortKey.eq_of_toJson_eq {a b : SortKey} (h : a.toJson = b.toJson) : a = b := by
  obtain ⟨field, order⟩ := a
  obtain ⟨field', order'⟩ := b
  simp only [toJson, Json.obj.injEq, List.cons.injEq, Prod.mk.injEq, Json.str.injEq, true_and,
    and_true] at h
  obtain ⟨horder, rfl⟩ := h
  rw [SortOrder.text_injective horder]

/-- The member for a list that is left out when it is empty is known by the list. -/
theorem Json.listMember_inj {α : Type} [DecidableEq α] {toJson : α → Json} {name : String}
    (hinj : ∀ a b, toJson a = toJson b → a = b) {l l' : List α}
    (h : (if l = [] then [] else [(name, Json.arr (l.map toJson))]) =
      if l' = [] then [] else [(name, Json.arr (l'.map toJson))]) : l = l' := by
  by_cases hl : l = [] <;> by_cases hl' : l' = []
  · rw [hl, hl']
  · rw [if_pos hl, if_neg hl'] at h
    cases h
  · rw [if_neg hl, if_pos hl'] at h
    cases h
  · simp only [if_neg hl, if_neg hl', List.cons.injEq, Prod.mk.injEq, Json.arr.injEq, true_and,
      and_true] at h
    exact (List.map_inj_right hinj).1 h

/-- A page is known from its JSON. -/
theorem Page.eq_of_toJson_eq {a b : Page} (h : a.toJson = b.toJson) : a = b := by
  obtain ⟨current, size, sort⟩ := a
  obtain ⟨current', size', sort'⟩ := b
  simp only [toJson, Json.obj.injEq, List.cons_append, List.nil_append, List.cons.injEq,
    Prod.mk.injEq, Json.int.injEq, Int.natCast_inj, true_and] at h
  obtain ⟨hcurrent, hsize, hsort⟩ := h
  obtain rfl := UInt32.toNat_inj.1 hcurrent
  obtain rfl := UInt32.toNat_inj.1 hsize
  obtain rfl := Json.listMember_inj (fun _ _ => SortKey.eq_of_toJson_eq) hsort
  rfl

/-- The JSON of a field to sort by is in order. -/
theorem SortKey.inOrder_toJson (k : SortKey) : k.toJson.InOrder :=
  Json.inOrder_obj ["direction", "field"] rfl (by decide) ⟨trivial, trivial, trivial⟩

/-- The JSON of a page is in order. -/
theorem Page.inOrder_toJson (p : Page) : p.toJson.InOrder := by
  unfold toJson
  split
  · exact Json.inOrder_obj ["current", "page_size"] rfl (by decide) ⟨trivial, trivial, trivial⟩
  · exact Json.inOrder_obj ["current", "page_size", "sort"] rfl (by decide)
      ⟨trivial, trivial, Json.itemsInOrder_map SortKey.inOrder_toJson, trivial⟩

/-! ### Queries -/

namespace Query

/-- The **members** of an object whose values may be missing: those that have one. -/
def present (parts : List (String × Option Json)) : List (String × Json) :=
  parts.flatMap fun part => member part.1 part.2

section Present

variable {parts : List (String × Option Json)} {name : String}

/-- A member is there when it is a part that has a value. -/
theorem mem_present {j : Json} : (name, j) ∈ present parts ↔ (name, some j) ∈ parts := by
  have hmember : ∀ key value, (name, j) ∈ member key value ↔ (name, some j) = (key, value) := by
    intro key value
    cases value <;> simp [member]
  simp [present, hmember]

/-- The names of the members that are there are those of parts, in their order. -/
theorem names_present_sublist (parts : List (String × Option Json)) :
    ((present parts).map Prod.fst).Sublist (parts.map Prod.fst) := by
  induction parts with
  | nil => exact .slnil
  | cons part rest ih =>
    obtain ⟨key, value⟩ := part
    cases value with
    | none => exact ih.cons key
    | some j => exact ih.cons_cons key

/-- Under each name stands the value of the part, if it has one. -/
theorem lookup_present (hdistinct : (parts.map Prod.fst).Nodup) :
    (present parts).lookup name = (parts.lookup name).join := by
  induction parts with
  | nil => rfl
  | cons part rest ih =>
    obtain ⟨key, value⟩ := part
    obtain ⟨hnew, hrest⟩ := List.nodup_cons.1 hdistinct
    have hrest := ih hrest
    by_cases hkey : name = key
    · subst hkey
      -- no other part has the name
      have hnone : (present rest).lookup name = none := by
        refine List.lookup_eq_none_iff.2 fun m hm => bne_iff_ne.2 fun heq => hnew ?_
        exact heq ▸ (names_present_sublist rest).subset (List.mem_map_of_mem hm)
      cases value with
      | none => simpa [present, member] using hnone
      | some j => simp [present, member]
    · cases value <;>
        simpa [present, member, List.lookup_cons, beq_false_of_ne hkey] using hrest

/-- The members that are there are in order if the names of the parts are and each value is. -/
theorem inOrder_present (hnames : (parts.map Prod.fst).Pairwise (· < ·))
    (hvalues : ∀ name j, (name, some j) ∈ parts → j.InOrder) :
    (Json.obj (present parts)).InOrder :=
  ⟨hnames.sublist (names_present_sublist parts), Json.membersInOrder_iff.2 fun m hm =>
    hvalues m.1 m.2 (mem_present.1 hm)⟩

end Present

/-- The **parts** of a query by the names of their members. -/
def parts (q : Query) : List (String × Option Json) :=
  [("filters", some q.filtersJson), ("object_name", some q.type.toJson),
    ("paging", q.demand.page?.map Page.toJson),
    ("permissions", q.access.map fun a => .str a.text), ("type", some (.str q.kind.text))]

/-- What the parts of a query are. -/
theorem mem_parts {q : Query} {name : String} {j : Json} : (name, some j) ∈ q.parts ↔
    name = "filters" ∧ q.filtersJson = j ∨ name = "object_name" ∧ q.type.toJson = j ∨
      name = "paging" ∧ (∃ page, q.demand.page? = some page ∧ page.toJson = j) ∨
      name = "permissions" ∧ (∃ a, q.access = some a ∧ .str a.text = j) ∨
      name = "type" ∧ .str q.kind.text = j := by
  simp only [parts, List.mem_cons, Prod.mk.injEq, Option.some.injEq, List.not_mem_nil, or_false,
    ← Option.map_eq_some_iff, eq_comm (a := some j)]

/-- A query is sent as the members that are there of its parts. -/
theorem toJson_eq (q : Query) : q.toJson = .obj (present q.parts) := by
  simp [toJson, present, parts, member]

/-- Each part of a query is found under its name, whatever other parts are missing. -/
theorem get?_toJson (q : Query) (name : String) :
    q.toJson.get? name = (q.parts.lookup name).join := by
  rw [toJson_eq, Json.get?, lookup_present (by simp [parts])]

end Query

/-- A demand is known from its kind and its page. -/
theorem Demand.ext_of_kind {a b : Demand} (hkind : a.kind = b.kind) (hpage : a.page? = b.page?) :
    a = b := by
  cases a <;> cases b <;> cases hkind <;> first | rfl | exact congrArg Demand.values hpage

/-- The filter and the anchors of queries are known from their JSON. -/
theorem Query.eq_of_filtersJson_eq {q q' : Query} (h : q.filtersJson = q'.filtersJson) :
    q.filter = q'.filter ∧ q.anchors = q'.anchors := by
  simp only [filtersJson, Json.obj.injEq, List.cons.injEq, Prod.mk.injEq, true_and] at h
  exact ⟨Filter.eq_of_toJson_eq h.1, Json.listMember_inj (fun _ _ => Anchor.eq_of_toJson_eq) h.2⟩

/-- **A query is known from its JSON.** -/
theorem Query.eq_of_toJson_eq {q q' : Query} (h : q.toJson = q'.toJson) : q = q' := by
  have hpart : ∀ name, (q.parts.lookup name).join = (q'.parts.lookup name).join := by
    intro name
    rw [← get?_toJson, ← get?_toJson, h]
  have hfilters : some q.filtersJson = some q'.filtersJson := hpart "filters"
  have htype : some q.type.toJson = some q'.type.toJson := hpart "object_name"
  have hpage : q.demand.page?.map Page.toJson = q'.demand.page?.map Page.toJson := hpart "paging"
  have haccess : (q.access.map fun a => Json.str a.text) = q'.access.map fun a => Json.str a.text :=
    hpart "permissions"
  have hkind : some (Json.str q.kind.text) = some (Json.str q'.kind.text) := hpart "type"
  obtain ⟨hfilter, hanchors⟩ := eq_of_filtersJson_eq (Option.some.inj hfilters)
  have htype := TypeName.eq_of_toJson_eq (Option.some.inj htype)
  have hpage := Option.map_injective (fun _ _ => Page.eq_of_toJson_eq) hpage
  have haccess := Option.map_injective
    (fun _ _ h => RequiredAccess.text_injective (Json.str.inj h)) haccess
  have hkind := ResultKind.text_injective (Json.str.inj (Option.some.inj hkind))
  have hdemand := Demand.ext_of_kind hkind hpage
  obtain ⟨type, filter, anchors, demand, access⟩ := q
  obtain ⟨type', filter', anchors', demand', access'⟩ := q'
  cases htype
  cases hfilter
  cases hanchors
  cases hdemand
  cases haccess
  rfl

/-- The names in the filter and the anchors of a query. -/
theorem Query.mem_of_mem_names_filtersJson {q : Query} {name : String}
    (h : name ∈ q.filtersJson.names) :
    name ∈ ["expression", "left", "op", "name", "right", "relevance", "ids", "object_name"] := by
  have hparts : ∀ n ∈ ["left", "op", "name", "right"],
      n ∈ ["expression", "left", "op", "name", "right", "relevance", "ids", "object_name"] := by
    decide
  have hanchor : ∀ n ∈ ["ids", "object_name", "op"],
      n ∈ ["expression", "left", "op", "name", "right", "relevance", "ids", "object_name"] := by
    decide
  unfold filtersJson at h
  split at h <;> simp only [Json.names, Json.memberNames, List.append_nil, List.mem_cons,
    List.mem_append] at h
  · obtain rfl | hfilter := h
    · decide
    · exact hparts _ (Filter.mem_of_mem_names hfilter)
  · obtain rfl | hfilter | rfl | hrelevance := h
    · decide
    · exact hparts _ (Filter.mem_of_mem_names hfilter)
    · decide
    · obtain ⟨a, -, ha⟩ := Json.mem_itemNames_map.1 hrelevance
      exact hanchor _ (a.names_toJson ▸ ha)

/-- The names in the JSON of a query without a page. -/
theorem Query.mem_of_mem_names {q : Query} {name : String} (hpage : q.demand.page? = none)
    (h : name ∈ q.toJson.names) :
    name ∈ ["filters", "object_name", "permissions", "type"] ∨ name ∈ q.filtersJson.names := by
  rw [toJson_eq] at h
  obtain ⟨⟨key, j⟩, hmem, hname⟩ := Json.mem_memberNames.1 h
  obtain ⟨rfl, rfl⟩ | ⟨rfl, rfl⟩ | ⟨-, page, hpage', -⟩ | ⟨rfl, a, -, rfl⟩ | ⟨rfl, rfl⟩ :=
    mem_parts.1 (mem_present.1 hmem)
  · exact hname.imp (fun heq => by simp [heq]) id
  · exact .inl (by simp [hname.resolve_right List.not_mem_nil])
  · cases hpage.symm.trans hpage'
  · exact .inl (by simp [hname.resolve_right List.not_mem_nil])
  · exact .inl (by simp [hname.resolve_right List.not_mem_nil])

/-- **What speaks of a page or of an order is a query with a page.** -/
theorem Query.page?_ne_none {q : Query} {name : String} (hname : name = "paging" ∨ name = "sort")
    (h : name ∈ q.toJson.names) : q.demand.page? ≠ none := by
  intro hpage
  obtain hmem | hfilters := mem_of_mem_names hpage h
  · obtain rfl | rfl := hname <;> revert hmem <;> decide
  · have hmem := mem_of_mem_names_filtersJson hfilters
    obtain rfl | rfl := hname <;> revert hmem <;> decide

/-- **The JSON of a query is in order.** -/
theorem Query.inOrder_toJson (q : Query) : q.toJson.InOrder := by
  have hfilters : q.filtersJson.InOrder := by
    unfold filtersJson
    split
    · exact Json.inOrder_obj ["expression"] rfl (by decide) ⟨q.filter.inOrder_toJson, trivial⟩
    · exact Json.inOrder_obj ["expression", "relevance"] rfl (by decide)
        ⟨q.filter.inOrder_toJson, Json.itemsInOrder_map Anchor.inOrder_toJson, trivial⟩
  rw [toJson_eq]
  refine inOrder_present (show ["filters", "object_name", "paging", "permissions",
    "type"].Pairwise (· < ·) by decide) fun name j hj => ?_
  obtain ⟨-, rfl⟩ | ⟨-, rfl⟩ | ⟨-, page, -, rfl⟩ | ⟨-, a, -, rfl⟩ | ⟨-, rfl⟩ := mem_parts.1 hj
  · exact hfilters
  · trivial
  · exact page.inOrder_toJson
  · trivial
  · trivial

/-! ### Queries put together from parts -/

/-- A query that has a page is one for the objects themselves. -/
theorem Query.kind_of_page? {q : Query} (h : q.demand.page? ≠ none) : q.kind = .values := by
  unfold kind
  cases hdemand : q.demand with
  | values page => rfl
  | _ => rw [hdemand] at h; exact absurd rfl h

/-- Anchors put into a draft stand behind those that are there. -/
theorem QueryDraft.addAll_anchors (anchors : List Anchor) (d : QueryDraft) :
    d.addAll (anchors.map .anchor) = { d with anchors := d.anchors ++ anchors } := by
  induction anchors generalizing d with
  | nil => simp [addAll]
  | cons a rest ih =>
    refine (ih (d.add (.anchor a))).trans ?_
    simp [add]

namespace Planner

variable (p : Planner) (s : SearchSpec) (base : ObjectRef)

/-- The query for the objects of a search is put together from its filter, the kind of its answer,
its page, its anchors and its right. -/
theorem primaryQuery_eq_build : p.primaryQuery s =
    .build (p.searchedType s)
      ([.filter (s.restrict (p.primaryFilter s)), .kind s.kind, .page s.page] ++
        (s.anchors ++ (p.ownerAnchor? s.target).toList).map .anchor ++
        (s.access.map .access).toList) := by
  rw [Query.build, QueryDraft.addAll, List.foldl_append, List.foldl_append, ← QueryDraft.addAll,
    ← QueryDraft.addAll, QueryDraft.addAll_anchors]
  cases haccess : s.access <;>
    simp [primaryQuery, QueryDraft.addAll, QueryDraft.add, QueryDraft.query, Filter.and, haccess]

/-- So is the query for the objects related to a base. -/
theorem relationQuery_eq_build (relevance : Relevance) : p.relationQuery s base relevance =
    .build (p.searchedType s)
      [.filter (s.restrict .empty), .anchor ⟨base.type, [base.id], relevance⟩, .kind .ids] := by
  simp [relationQuery, Query.build, QueryDraft.addAll, QueryDraft.add, QueryDraft.query,
    Filter.and, Demand.ofKind]

end Planner

/-- **Queries are sent faithfully.** However two queries have been put together, they are the same if
their JSON is, and any two filters are the same if theirs is; what speaks of a page or of an order,
at any depth, is a query for the objects themselves; and the JSON is written in the one order that
its names have. -/
theorem sent_faithfully :
    (∀ (type type' : TypeName) (parts parts' : List QueryPart),
      (Query.build type parts).toJson = (Query.build type' parts').toJson →
        Query.build type parts = Query.build type' parts') ∧
    (∀ f g : Filter, f.toJson = g.toJson → f = g) ∧
    (∀ (type : TypeName) (parts : List QueryPart) (name : String),
      name = "paging" ∨ name = "sort" → name ∈ (Query.build type parts).toJson.names →
        (Query.build type parts).toJson.get? "type" = some (.str "values")) ∧
    ∀ (type : TypeName) (parts : List QueryPart), (Query.build type parts).toJson.InOrder := by
  refine ⟨fun type type' parts parts' h => Query.eq_of_toJson_eq h,
    fun f g h => Filter.eq_of_toJson_eq h, fun type parts name hname h => ?_,
    fun type parts => Query.inOrder_toJson _⟩
  have hkind := Query.kind_of_page? (Query.page?_ne_none hname h)
  have hpart : (Query.build type parts).toJson.get? "type" =
      some (.str (Query.build type parts).kind.text) := Query.get?_toJson _ "type"
  rw [hpart, hkind]
  rfl

/-- A page given to a query for numbers is not sent, nor is it part of the query, and a query that
sends an order is one for the objects. -/
theorem sent_faithfully_without_page :
    let page : QueryPart := .page ⟨2, 5, [⟨"Name", .descending⟩]⟩
    let filter : QueryPart := .filter (.equal "archived" (.bool false))
    Query.build ⟨"Process"⟩ [page, filter, .kind .ids] =
        Query.build ⟨"Process"⟩ [.kind .ids, filter] ∧
      Filter.and .empty (.equal "archived" (.bool false)) = .equal "archived" (.bool false) ∧
      (Query.build ⟨"Process"⟩ [page, filter]).toJson.get? "type" = some (.str "values") := by
  intro page filter
  have hids : (Query.build ⟨"Process"⟩ [page, filter, .kind .ids]).toJson =
      (Query.build ⟨"Process"⟩ [.kind .ids, filter]).toJson := by decide
  have hsort : "sort" ∈ (Query.build ⟨"Process"⟩ [page, filter]).toJson.names := by decide
  exact ⟨sent_faithfully.1 _ _ _ _ hids, sent_faithfully.2.1 _ _ rfl,
    sent_faithfully.2.2.1 _ _ "sort" (Or.inr rfl) hsort⟩

end ObjectMapping
