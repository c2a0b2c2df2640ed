import ObjectMapping.SortedSet

/-! # Finite maps in order

A finite map over a strict linear order of keys, kept as its list of entries with strictly
increasing keys. Two such maps that answer every look-up alike are equal (`SortedMap.ext`). Each
operation comes with the lemma that says what a look-up finds after it. -/

namespace ObjectMapping

namespace SortedMap

variable {κ α : Type} [LinearlyOrdered κ]

/-- An entry put at the place of its key; an entry with the same key is replaced. -/
def place (key : κ) (value : α) : List (κ × α) → List (κ × α)
  | [] => [(key, value)]
  | entry :: rest =>
    if key < entry.1 then (key, value) :: entry :: rest
    else if entry.1 < key then entry :: place key value rest
    else (key, value) :: rest

/-- The keys after placing an entry are the placed one and the ones before. -/
theorem mem_keys_place {key k : κ} {value : α} {l : List (κ × α)} :
    k ∈ (place key value l).map Prod.fst ↔ k = key ∨ k ∈ l.map Prod.fst := by
  induction l with
  | nil => simp [place]
  | cons e rest ih =>
    unfold place
    split
    · simp
    · split
      · simp only [List.map_cons, List.mem_cons, ih]
        exact ⟨fun h => by rcases h with h | h | h <;> simp [h],
          fun h => by rcases h with h | h | h <;> simp [h]⟩
      · next h₁ h₂ =>
        have : key = e.1 := (LinearlyOrdered.connected key e.1).resolve_left h₁ |>.resolve_right h₂
        simp [this]

/-- Placing an entry keeps the keys increasing. -/
theorem place_increasing {key : κ} {value : α} {l : List (κ × α)}
    (h : (l.map Prod.fst).Pairwise (· < ·)) :
    ((place key value l).map Prod.fst).Pairwise (· < ·) := by
  induction l with
  | nil => simp [place]
  | cons e rest ih =>
    rw [List.map_cons, List.pairwise_cons] at h
    unfold place
    split
    · next hlt =>
      refine List.pairwise_cons.2 ⟨fun x hx => ?_, List.pairwise_cons.2 h⟩
      rcases List.mem_cons.1 hx with rfl | hx
      · exact hlt
      · exact LinearlyOrdered.trans hlt (h.1 x hx)
    · split
      · next hgt =>
        refine List.pairwise_cons.2 ⟨fun x hx => ?_, ih h.2⟩
        rcases mem_keys_place.1 hx with rfl | hx
        · exact hgt
        · exact h.1 x hx
      · next h₁ h₂ =>
        have : key = e.1 := (LinearlyOrdered.connected key e.1).resolve_left h₁ |>.resolve_right h₂
        rw [List.map_cons, this]
        exact List.pairwise_cons.2 h

/-- What a list of entries holds for a key. -/
def find? [DecidableEq κ] (l : List (κ × α)) (key : κ) : Option α :=
  (l.find? fun e => e.1 = key).map Prod.snd

omit [LinearlyOrdered κ] in
/-- Nothing is found without a key. -/
theorem find?_eq_none_iff [DecidableEq κ] {l : List (κ × α)} {key : κ} :
    find? l key = none ↔ key ∉ l.map Prod.fst := by
  unfold find?
  rw [Option.map_eq_none_iff, List.find?_eq_none]
  constructor
  · intro h hm
    obtain ⟨e, he, rfl⟩ := List.mem_map.1 hm
    exact h e he (by simp)
  · intro h e he hk
    exact h (List.mem_map.2 ⟨e, he, of_decide_eq_true hk⟩)

/-- What is found after placing an entry. -/
theorem find?_place [DecidableEq κ] {key k : κ} {value : α} {l : List (κ × α)}
    (h : (l.map Prod.fst).Pairwise (· < ·)) :
    find? (place key value l) k = if k = key then some value else find? l k := by
  induction l with
  | nil =>
    by_cases hk : k = key
    · simp [place, find?, hk]
    · simp [place, find?, hk, Ne.symm hk]
  | cons e rest ih =>
    rw [List.map_cons, List.pairwise_cons] at h
    unfold place
    split
    · by_cases hk : k = key
      · simp [find?, hk]
      · simp [find?, hk, Ne.symm hk]
    · split
      · next hgt =>
        by_cases he : e.1 = k
        · have hne : k ≠ key := fun hk => LinearlyOrdered.irrefl k (by
            rw [he] at hgt; rwa [← hk] at hgt)
          simp [find?, he, hne]
        · have := ih h.2
          unfold find? at this ⊢
          simpa [he] using this
      · next h₁ h₂ =>
        have hkey : key = e.1 :=
          (LinearlyOrdered.connected key e.1).resolve_left h₁ |>.resolve_right h₂
        by_cases hk : k = key
        · simp [find?, hk]
        · have : e.1 ≠ k := fun he => hk (by rw [hkey, he])
          simp [find?, hk, Ne.symm hk, this]

end SortedMap

/-- A **finite map**, kept as its entries with strictly increasing keys. -/
structure SortedMap (κ α : Type) [LinearlyOrdered κ] where
  /-- The entries, by increasing key. -/
  toList : List (κ × α)
  /-- The keys increase strictly. -/
  increasing : (toList.map Prod.fst).Pairwise (· < ·)

namespace SortedMap

variable {κ α : Type} [LinearlyOrdered κ]

/-- Maps are equal when their entries are. -/
theorem eq_of_toList_eq {m n : SortedMap κ α} (h : m.toList = n.toList) : m = n := by
  cases m; cases n; cases h; rfl

instance [DecidableEq κ] [DecidableEq α] : DecidableEq (SortedMap κ α) := fun m n =>
  decidable_of_iff (m.toList = n.toList) ⟨eq_of_toList_eq, fun h => h ▸ rfl⟩

/-- Without entries there is nothing out of order. -/
theorem increasing_nil : (([] : List (κ × α)).map Prod.fst).Pairwise (· < ·) := List.Pairwise.nil

/-- The map without entries. -/
def empty : SortedMap κ α := ⟨[], increasing_nil⟩

instance : EmptyCollection (SortedMap κ α) := ⟨empty⟩

instance : Inhabited (SortedMap κ α) := ⟨empty⟩

/-- What a map holds for a key. -/
def get? [DecidableEq κ] (m : SortedMap κ α) (key : κ) : Option α := find? m.toList key

/-- Whether a map has an entry for a key. -/
def contains [DecidableEq κ] (m : SortedMap κ α) (key : κ) : Bool := (m.get? key).isSome

/-- The number of entries. -/
def size (m : SortedMap κ α) : Nat := m.toList.length

/-- Whether a map has no entries. -/
def isEmpty (m : SortedMap κ α) : Bool := m.toList.isEmpty

/-- The keys, in increasing order. -/
def keys (m : SortedMap κ α) : List κ := m.toList.map Prod.fst

/-- The map with an entry set. -/
def insert (m : SortedMap κ α) (key : κ) (value : α) : SortedMap κ α :=
  ⟨place key value m.toList, place_increasing m.increasing⟩

/-- The map with the entry of a key taken out. -/
def erase [DecidableEq κ] (m : SortedMap κ α) (key : κ) : SortedMap κ α :=
  ⟨m.toList.filter fun e => e.1 ≠ key,
    m.increasing.sublist (List.filter_sublist.map Prod.fst)⟩

/-- The map with the entries of a list set one after the other. -/
def insertAll (m : SortedMap κ α) (l : List (κ × α)) : SortedMap κ α :=
  l.foldl (fun m e => m.insert e.1 e.2) m

/-- The map of a list of entries; of two entries with one key the last counts. -/
def ofList (l : List (κ × α)) : SortedMap κ α := (∅ : SortedMap κ α).insertAll l

section Lookup

variable [DecidableEq κ]

/-- Nothing is found in the empty map. -/
@[simp] theorem get?_empty (key : κ) : (∅ : SortedMap κ α).get? key = none := rfl

/-- What is found after setting an entry. -/
@[simp] theorem get?_insert (m : SortedMap κ α) (key k : κ) (value : α) :
    (m.insert key value).get? k = if k = key then some value else m.get? k :=
  find?_place m.increasing

/-- What is found after taking an entry out. -/
@[simp] theorem get?_erase (m : SortedMap κ α) (key k : κ) :
    (m.erase key).get? k = if k = key then none else m.get? k := by
  unfold get? erase find?
  by_cases hk : k = key
  · subst hk
    simp only [if_true, Option.map_eq_none_iff, List.find?_eq_none, List.mem_filter]
    rintro e ⟨-, he⟩ hk
    exact of_decide_eq_true he (of_decide_eq_true hk)
  · simp only [hk, if_false, List.find?_filter]
    congr 2
    funext e
    by_cases he : e.1 = k <;> simp [he, hk]

omit [LinearlyOrdered κ] in
/-- What is found in two lists one after the other. -/
theorem find?_append {l l' : List (κ × α)} {key : κ} :
    find? (l ++ l') key = (find? l key).or (find? l' key) := by
  unfold find?
  rw [List.find?_append, Option.map_or]

omit [LinearlyOrdered κ] in
/-- What is found is one of the entries. -/
theorem mem_of_find?_eq_some {l : List (κ × α)} {key : κ} {value : α}
    (h : find? l key = some value) : (key, value) ∈ l := by
  obtain ⟨entry, hfind, rfl⟩ := Option.map_eq_some_iff.1 h
  have hkey : entry.1 = key := by simpa using List.find?_some hfind
  exact hkey ▸ List.mem_of_find?_eq_some hfind

omit [LinearlyOrdered κ] in
/-- What is found among entries with distinct keys is what stands there. -/
theorem find?_eq_some_iff {l : List (κ × α)} (h : (l.map Prod.fst).Nodup) {key : κ} {value : α} :
    find? l key = some value ↔ (key, value) ∈ l := by
  refine ⟨mem_of_find?_eq_some, fun hmem => ?_⟩
  induction l with
  | nil => cases hmem
  | cons entry rest ih =>
    rw [List.map_cons, List.nodup_cons] at h
    obtain rfl | hmem := List.mem_cons.1 hmem
    · simp [find?]
    · have hne : entry.1 ≠ key := fun hkey => h.1 (hkey ▸ List.mem_map_of_mem hmem)
      have hfound := ih h.2 hmem
      unfold find? at hfound ⊢
      rwa [List.find?_cons_of_neg (by simpa using hne)]

omit [DecidableEq κ] in
/-- The keys of a map are distinct. -/
theorem nodup_keys (m : SortedMap κ α) : (m.toList.map Prod.fst).Nodup :=
  List.Pairwise.imp (fun {a b} (hlt : a < b) (heq : a = b) =>
    LinearlyOrdered.irrefl b (heq ▸ hlt)) m.increasing

omit [DecidableEq κ] in
/-- So are the entries. -/
theorem nodup_toList (m : SortedMap κ α) : m.toList.Nodup :=
  List.Pairwise.of_map Prod.fst (fun _ _ hne heq => hne (congrArg Prod.fst heq)) m.nodup_keys

/-- **Extensionality**: two maps in which the same is found for every key are equal. -/
theorem ext {m n : SortedMap κ α} (h : ∀ key, m.get? key = n.get? key) : m = n := by
  have hmem : ∀ entry, entry ∈ m.toList ↔ entry ∈ n.toList := fun ⟨key, value⟩ => by
    rw [← find?_eq_some_iff m.nodup_keys, ← find?_eq_some_iff n.nodup_keys, ← get?, ← get?, h]
  have hperm : m.toList.Perm n.toList :=
    (List.perm_ext_iff_of_nodup m.nodup_toList n.nodup_toList).2 hmem
  refine eq_of_toList_eq (hperm.eq_of_pairwise (fun a b _ _ hab hba => ?_)
    (List.pairwise_map.1 m.increasing) (List.pairwise_map.1 n.increasing))
  exact absurd (LinearlyOrdered.trans hab hba) (LinearlyOrdered.irrefl _)

/-- A map has entries for its keys alone. -/
theorem contains_iff_mem_keys {m : SortedMap κ α} {key : κ} :
    m.contains key = true ↔ key ∈ m.keys := by
  rw [contains, ← Option.not_isNone, Bool.not_eq_true', ← Bool.not_eq_true,
    Option.isNone_iff_eq_none, get?, find?_eq_none_iff, Decidable.not_not, keys]

/-- A key without an entry is not contained. -/
theorem contains_eq_false_iff {m : SortedMap κ α} {key : κ} :
    m.contains key = false ↔ m.get? key = none := by
  rw [contains, Option.isSome_eq_false_iff, Option.isNone_iff_eq_none]

/-- The keys of a map with an entry set for a new key are the old ones with the new one in its
place. -/
theorem keys_insert {m : SortedMap κ α} {key : κ} (hkey : m.get? key = none) (value : α) :
    ∃ before after, m.keys = before ++ after ∧
      (m.insert key value).keys = before ++ key :: after ∧ ∀ k ∈ after, ¬ k < key := by
  obtain ⟨l, hl⟩ := m
  replace hkey : key ∉ l.map Prod.fst := find?_eq_none_iff.1 hkey
  show ∃ before after, l.map Prod.fst = before ++ after ∧
    (place key value l).map Prod.fst = before ++ key :: after ∧ _
  induction l with
  | nil => exact ⟨[], [], rfl, rfl, fun k hk => by cases hk⟩
  | cons e rest ih =>
    rw [List.map_cons, List.mem_cons, not_or] at hkey
    rw [List.map_cons, List.pairwise_cons] at hl
    unfold place
    split
    · next hlt =>
      -- the new key comes first, and no key behind it is smaller
      refine ⟨[], (e :: rest).map Prod.fst, rfl, rfl, fun k hk hlt' => ?_⟩
      have hlt'' : ¬ e.1 < key := fun h =>
        LinearlyOrdered.irrefl key (LinearlyOrdered.trans hlt h)
      rw [List.map_cons, List.mem_cons] at hk
      obtain rfl | hk := hk
      · exact hlt'' hlt'
      · exact hlt'' (LinearlyOrdered.trans (hl.1 k hk) hlt')
    · next hnlt =>
      have hgt : e.1 < key :=
        ((LinearlyOrdered.connected key e.1).resolve_left hnlt).resolve_left hkey.1
      rw [if_pos hgt]
      obtain ⟨before, after, hkeys, hplaced, hafter⟩ := ih hl.2 hkey.2
      exact ⟨e.1 :: before, after, by rw [List.map_cons, hkeys]; rfl,
        by rw [List.map_cons, hplaced]; rfl, hafter⟩

/-- What is found after setting the entries of a list: the last one with the key. -/
theorem get?_insertAll (m : SortedMap κ α) (l : List (κ × α)) (key : κ) :
    (m.insertAll l).get? key = (find? l.reverse key).or (m.get? key) := by
  induction l generalizing m with
  | nil => rfl
  | cons entry rest ih =>
    show ((m.insert entry.1 entry.2).insertAll rest).get? key = _
    rw [ih, get?_insert, List.reverse_cons, find?_append, Option.or_assoc]
    congr 1
    by_cases hkey : key = entry.1
    · simp [find?, hkey]
    · simp [find?, hkey, Ne.symm hkey]

/-- What is found in the map of a list, if all its entries with the key agree. -/
theorem get?_ofList_of_forall {l : List (κ × α)} {key : κ} {value : α} (hmem : (key, value) ∈ l)
    (hall : ∀ other, (key, other) ∈ l → other = value) :
    (ofList l).get? key = some value := by
  rw [ofList, get?_insertAll, get?_empty, Option.or_none]
  cases hfind : find? l.reverse key with
  | none =>
    refine absurd (List.mem_map_of_mem (f := Prod.fst) (List.mem_reverse.2 hmem)) ?_
    exact find?_eq_none_iff.1 hfind
  | some other => rw [hall other (List.mem_reverse.1 (mem_of_find?_eq_some hfind))]

end Lookup

end SortedMap

end ObjectMapping
