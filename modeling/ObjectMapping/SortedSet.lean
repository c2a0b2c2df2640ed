/-! # Finite sets in order

A finite set over a strict linear order, kept as the strictly increasing list of its members. Two
such sets with the same members are equal (`SortedSet.ext`), so a set that an answer lists has one
written form, and laws about sets are equations. Each operation comes with the lemma that says what
it does to membership. -/

namespace ObjectMapping

/-- A **strict linear order** that can be decided. -/
class LinearlyOrdered (α : Type) extends LT α where
  /-- The order can be decided. -/
  decLt : ∀ a b : α, Decidable (a < b)
  /-- Nothing is below itself. -/
  irrefl : ∀ a : α, ¬ a < a
  /-- The order is transitive. -/
  trans : ∀ {a b c : α}, a < b → b < c → a < c
  /-- Two members are equal or one is below the other. -/
  connected : ∀ a b : α, a < b ∨ a = b ∨ b < a

/-- The order can be decided. -/
instance LinearlyOrdered.decidableLt {α : Type} [LinearlyOrdered α] (a b : α) :
    Decidable (a < b) := LinearlyOrdered.decLt a b

/-- Texts are ordered by code points, which is also the order of their encoded bytes. -/
instance : LinearlyOrdered String where
  decLt := inferInstance
  irrefl := String.lt_irrefl
  trans := String.lt_trans
  connected := Std.lt_trichotomy

/-- Natural numbers are ordered by size. -/
instance : LinearlyOrdered Nat where
  decLt := inferInstance
  irrefl := Nat.lt_irrefl
  trans := Nat.lt_trans
  connected := Nat.lt_trichotomy

/-- Integers are ordered by size. -/
instance : LinearlyOrdered Int where
  decLt := inferInstance
  irrefl := Int.lt_irrefl
  trans := Int.lt_trans
  connected := Int.lt_trichotomy

/-- A **finite set**, kept as the strictly increasing list of its members. -/
structure SortedSet (α : Type) [LinearlyOrdered α] where
  /-- The members, in increasing order. -/
  toList : List α
  /-- The members increase strictly. -/
  increasing : toList.Pairwise (· < ·)

namespace SortedSet

variable {α : Type} [LinearlyOrdered α]

/-- Whether a set has a member. -/
instance : Membership α (SortedSet α) := ⟨fun s a => a ∈ s.toList⟩

/-- The members of a set are the entries of its list. -/
@[simp] theorem mem_toList {s : SortedSet α} {a : α} : a ∈ s.toList ↔ a ∈ s := Iff.rfl

instance [DecidableEq α] (a : α) (s : SortedSet α) : Decidable (a ∈ s) :=
  inferInstanceAs (Decidable (a ∈ s.toList))

/-- Sets are equal when their lists are. -/
theorem eq_of_toList_eq {s t : SortedSet α} (h : s.toList = t.toList) : s = t := by
  cases s; cases t; cases h; rfl

/-- **Extensionality**: two sets with the same members are equal. -/
theorem ext {s t : SortedSet α} (h : ∀ a, a ∈ s ↔ a ∈ t) : s = t := by
  apply eq_of_toList_eq
  obtain ⟨l, hl⟩ := s
  obtain ⟨m, hm⟩ := t
  simp only [← mem_toList] at h
  show l = m
  induction l generalizing m with
  | nil => cases m with
    | nil => rfl
    | cons b m => exact absurd ((h b).2 (by simp)) (by simp)
  | cons a l ih => cases m with
    | nil => exact absurd ((h a).1 (by simp)) (by simp)
    | cons b m =>
      rw [List.pairwise_cons] at hl hm
      have hab : a = b := by
        rcases LinearlyOrdered.connected a b with hlt | rfl | hlt
        · have ha : a ∈ b :: m := (h a).1 (by simp)
          rcases List.mem_cons.1 ha with rfl | ha
          · rfl
          · exact absurd (LinearlyOrdered.trans hlt (hm.1 a ha)) (LinearlyOrdered.irrefl a)
        · rfl
        · have hb : b ∈ a :: l := (h b).2 (by simp)
          rcases List.mem_cons.1 hb with rfl | hb
          · rfl
          · exact absurd (LinearlyOrdered.trans hlt (hl.1 b hb)) (LinearlyOrdered.irrefl b)
      subst hab
      congr 1
      refine ih hl.2 m hm.2 fun x => ⟨fun hx => ?_, fun hx => ?_⟩
      · rcases List.mem_cons.1 ((h x).1 (List.mem_cons_of_mem _ hx)) with rfl | hx'
        · exact absurd (hl.1 x hx) (LinearlyOrdered.irrefl x)
        · exact hx'
      · rcases List.mem_cons.1 ((h x).2 (List.mem_cons_of_mem _ hx)) with rfl | hx'
        · exact absurd (hm.1 x hx) (LinearlyOrdered.irrefl x)
        · exact hx'

instance [DecidableEq α] : DecidableEq (SortedSet α) := fun s t =>
  decidable_of_iff (s.toList = t.toList) ⟨eq_of_toList_eq, fun h => h ▸ rfl⟩

/-- The set without members. -/
def empty : SortedSet α := ⟨[], .nil⟩

instance : EmptyCollection (SortedSet α) := ⟨empty⟩

instance : Inhabited (SortedSet α) := ⟨empty⟩

/-- Nothing is a member of the empty set. -/
@[simp] theorem not_mem_empty (a : α) : ¬ a ∈ (∅ : SortedSet α) := List.not_mem_nil

/-- Whether a set has no member. -/
def isEmpty (s : SortedSet α) : Bool := s.toList.isEmpty

/-- A set is empty exactly when it is the empty set. -/
theorem isEmpty_iff {s : SortedSet α} : s.isEmpty = true ↔ s = ∅ := by
  constructor
  · intro h
    exact eq_of_toList_eq (List.isEmpty_iff.1 h)
  · rintro rfl
    rfl

/-! ### Insertion -/

/-- A member put at its place in an increasing list. -/
def place (a : α) : List α → List α
  | [] => [a]
  | b :: rest => if a < b then a :: b :: rest else if b < a then b :: place a rest else b :: rest

/-- The entries after placing are the placed one and the ones before. -/
theorem mem_place {a x : α} {l : List α} : x ∈ place a l ↔ x = a ∨ x ∈ l := by
  induction l with
  | nil => simp [place]
  | cons b rest ih =>
    unfold place
    split
    · simp
    · split
      · simp only [List.mem_cons, ih]
        exact ⟨fun h => by rcases h with h | h | h <;> simp [h],
          fun h => by rcases h with h | h | h <;> simp [h]⟩
      · next h₁ h₂ =>
        have : a = b := (LinearlyOrdered.connected a b).resolve_left h₁ |>.resolve_right h₂
        simp [this]

/-- Placing a member keeps a list increasing. -/
theorem place_increasing {a : α} {l : List α} (h : l.Pairwise (· < ·)) :
    (place a l).Pairwise (· < ·) := by
  induction l with
  | nil => simp [place]
  | cons b rest ih =>
    rw [List.pairwise_cons] at h
    unfold place
    split
    · next hab =>
      refine List.pairwise_cons.2 ⟨fun x hx => ?_, List.pairwise_cons.2 h⟩
      rcases List.mem_cons.1 hx with rfl | hx
      · exact hab
      · exact LinearlyOrdered.trans hab (h.1 x hx)
    · split
      · next hba =>
        refine List.pairwise_cons.2 ⟨fun x hx => ?_, ih h.2⟩
        rcases mem_place.1 hx with rfl | hx
        · exact hba
        · exact h.1 x hx
      · exact List.pairwise_cons.2 h

/-- The set with one more member. -/
def insert (s : SortedSet α) (a : α) : SortedSet α :=
  ⟨place a s.toList, place_increasing s.increasing⟩

/-- The members after an insertion. -/
@[simp] theorem mem_insert {s : SortedSet α} {a x : α} : x ∈ s.insert a ↔ x = a ∨ x ∈ s := mem_place

/-- The set with all entries of a list added. -/
def insertAll (s : SortedSet α) (l : List α) : SortedSet α := l.foldl insert s

/-- The members after adding a list. -/
@[simp] theorem mem_insertAll {s : SortedSet α} {l : List α} {x : α} :
    x ∈ s.insertAll l ↔ x ∈ l ∨ x ∈ s := by
  unfold insertAll
  induction l generalizing s with
  | nil => simp
  | cons a l ih =>
    simp only [List.foldl_cons, ih, mem_insert, List.mem_cons]
    exact ⟨fun h => by rcases h with h | h | h <;> simp [h],
      fun h => by rcases h with (h | h) | h <;> simp [h]⟩

/-- The set of the entries of a list. -/
def ofList (l : List α) : SortedSet α := (∅ : SortedSet α).insertAll l

/-- The members of the set of a list. -/
@[simp] theorem mem_ofList {l : List α} {x : α} : x ∈ ofList l ↔ x ∈ l := by
  simp [ofList]

/-- The union of two sets. -/
def union (s t : SortedSet α) : SortedSet α := s.insertAll t.toList

instance : Union (SortedSet α) := ⟨union⟩

/-- The members of a union. -/
@[simp] theorem mem_union {s t : SortedSet α} {x : α} : x ∈ s ∪ t ↔ x ∈ s ∨ x ∈ t := by
  show x ∈ s.insertAll t.toList ↔ _
  simp [or_comm]

/-! ### Removal -/

/-- The members that pass a test. -/
def filter (p : α → Bool) (s : SortedSet α) : SortedSet α :=
  ⟨s.toList.filter p, s.increasing.filter p⟩

/-- The members of a filtered set. -/
@[simp] theorem mem_filter {p : α → Bool} {s : SortedSet α} {x : α} :
    x ∈ s.filter p ↔ x ∈ s ∧ p x = true := List.mem_filter

/-- The set without one member. -/
def erase [DecidableEq α] (s : SortedSet α) (a : α) : SortedSet α := s.filter fun x => x ≠ a

/-- The members after a removal. -/
@[simp] theorem mem_erase [DecidableEq α] {s : SortedSet α} {a x : α} :
    x ∈ s.erase a ↔ x ∈ s ∧ x ≠ a := by
  simp [erase]

end SortedSet

end ObjectMapping
