import ObjectMapping.ObjectRef

/-! # What describes a reference

The values that a service sends are JSON of any form. Read as references are exactly the objects and
lists that have the parts of one: the number and the type of an object, and perhaps those of a
frozen object and a context, each of which may be missing or `null`.

* **`ObjectRef.ofJson?_eq_some_iff`** — the JSON values that are read as a reference. -/

namespace ObjectMapping

/-! ### Scalars and records -/

namespace Json

variable {j : Json}

/-- A JSON value **is a signed integer of 64 bits**. -/
def IsInt64 (j : Json) (n : Int) : Prop := ∃ i : Int64, j = .int i.toInt ∧ i.toInt = n

/-- A JSON value **is an unsigned integer of 64 bits**. -/
def IsNat64 (j : Json) (n : Nat) : Prop := ∃ i : UInt64, j = .int i.toNat ∧ i.toNat = n

/-- The signed integers of 64 bits are read. -/
theorem int64?_eq_some_iff {n : Int} : j.int64? = some n ↔ j.IsInt64 n := by
  constructor
  · intro h
    unfold int64? intWithin? at h
    split at h
    · next z =>
      split at h
      · next hrange =>
        cases h
        have hz : (Int64.ofInt n).toInt = n := Int64.toInt_ofInt_of_le (by omega) (by omega)
        exact ⟨.ofInt n, by rw [hz], hz⟩
      · cases h
    · cases h
  · rintro ⟨i, rfl, rfl⟩
    have hlow := i.le_toInt
    have hhigh := i.toInt_lt
    exact if_pos (by omega)

/-- The unsigned integers of 64 bits are read. -/
theorem nat64?_eq_some_iff {n : Nat} : j.nat64? = some n ↔ j.IsNat64 n := by
  constructor
  · intro h
    obtain ⟨z, hz, rfl⟩ := Option.map_eq_some_iff.1 h
    unfold intWithin? at hz
    split at hz
    · split at hz
      · next hrange =>
        cases hz
        have hz : (UInt64.ofNat z.toNat).toNat = z.toNat :=
          UInt64.toNat_ofNat_of_lt (by rw [UInt64.size]; omega)
        exact ⟨.ofNat z.toNat, by rw [hz, Int.toNat_of_nonneg hrange.1], hz⟩
      · cases hz
    · cases hz
  · rintro ⟨i, rfl, rfl⟩
    have hhigh := i.toNat_lt
    have hrange : (Json.int i.toNat).intWithin? 0 0xFFFFFFFFFFFFFFFF = some (i.toNat : Int) :=
      if_pos (by omega)
    rw [nat64?, hrange]
    rfl

/-- An object **has an unsigned integer of 64 bits** under a name. -/
def HasNat64 (j : Json) (name : String) (n : Nat) : Prop :=
  ∃ part, j.get? name = some part ∧ part.IsNat64 n

/-- What is found under a name as an unsigned integer. -/
theorem bind_nat64?_eq_some_iff {name : String} {n : Nat} :
    (j.get? name).bind nat64? = some n ↔ j.HasNat64 name n := by
  rw [Option.bind_eq_some_iff]
  exact exists_congr fun part => and_congr_right fun _ => nat64?_eq_some_iff

/-- What is found under a name as a list. -/
theorem bind_items?_eq_some_iff {name : String} {items : List Json} :
    (j.get? name).bind items? = some items ↔ j.get? name = some (.arr items) := by
  rw [Option.bind_eq_some_iff]
  constructor
  · rintro ⟨part, hpart, h⟩
    unfold items? at h
    split at h
    · cases h
      exact hpart
    · cases h
  · exact fun h => ⟨_, h, rfl⟩

/-- A value **is a record** of at most so many parts. -/
def IsRecord (size : Nat) : Json → Prop
  | .obj _ => True
  | .arr items => items.length ≤ size
  | _ => False

/-- The part of a record with a name, which in a list has a place instead. -/
def part? (place : Nat) (name : String) : Json → Option Json
  | .obj members => members.lookup name
  | .arr items => items[place]?
  | _ => none

/-- The parts of a record. -/
theorem parts?_eq_some_iff {names : List String} {parts : List (Option Json)} :
    j.parts? names = some parts ↔
      j.IsRecord names.length ∧ names.mapIdx (fun place name => j.part? place name) = parts := by
  cases j with
  | obj members =>
    have hparts : names.mapIdx (fun _ name => members.lookup name) =
        names.map fun name => members.lookup name := by
      apply List.ext_getElem <;> simp
    simp [parts?, IsRecord, part?, hparts]
  | arr items =>
    rw [parts?]
    split
    · next hlength =>
      have hparts : items.map some ++ List.replicate (names.length - items.length) none =
          names.mapIdx fun place _ => items[place]? := by
        refine List.ext_getElem (by simp; omega) fun i h₁ h₂ => ?_
        by_cases hi : i < items.length
        · simp [List.getElem_append_left, hi]
        · simp [List.getElem_append_right, hi, Nat.le_of_not_lt hi]
      simp [IsRecord, part?, hlength, hparts]
    · next hlength => simp [IsRecord, hlength]
  | _ => simp [parts?, IsRecord]

/-- An **optional part** of a record: it is missing, or `null`, or it is given. -/
inductive OptionalPart {α : Type} (R : Json → α → Prop) : Option Json → Option α → Prop where
  /-- There is no such part. -/
  | missing : OptionalPart R none none
  /-- The part is `null`. -/
  | null : OptionalPart R (some .null) none
  /-- The part is there. -/
  | given {j : Json} {a : α} (hj : j ≠ .null) (h : R j a) : OptionalPart R (some j) (some a)

/-- Optional parts are read. -/
theorem optional_eq_some_iff {α : Type} {read : Json → Option α} {R : Json → α → Prop}
    (hread : ∀ {j a}, read j = some a ↔ R j a) {part : Option Json} {value : Option α} :
    optional read part = some value ↔ OptionalPart R part value := by
  constructor
  · intro h
    unfold optional at h
    split at h
    · cases h
      exact .missing
    · cases h
      exact .null
    · next j hj =>
      obtain ⟨a, ha, rfl⟩ := Option.map_eq_some_iff.1 h
      exact .given hj (hread.1 ha)
  · intro h
    cases h with
    | missing => rfl
    | null => rfl
    | @given j a hj h =>
      have hoptional : optional read (some j) = (read j).map some := by
        cases j <;> first | rfl | contradiction
      rw [hoptional, hread.2 h]
      rfl

end Json

/-! ### References -/

/-- A name is read from a text. -/
theorem TypeName.ofJson?_eq_some_iff {j : Json} {t : TypeName} :
    TypeName.ofJson? j = some t ↔ j = .str t.text := by
  cases j with
  | str s =>
    rw [Json.str.injEq]
    exact ⟨fun h => by cases h; rfl, fun h => by rw [h]; rfl⟩
  | _ => exact ⟨nofun, nofun⟩

namespace ObjectRef

/-- A JSON value **describes** a reference: it is an object or a list with the parts of the
reference. -/
structure DescribedBy (r : ObjectRef) (j : Json) : Prop where
  /-- In a list there are no more than the parts of a reference. -/
  record : j.IsRecord 5
  /-- The number of the object is given. -/
  id : ∃ part, j.part? 0 "id" = some part ∧ part.IsInt64 r.id
  /-- The type of the object is given. -/
  type : j.part? 1 "type" = some (.str r.type.text)
  /-- The type of a frozen object may be given. -/
  childType : Json.OptionalPart (fun part t => part = .str t.text) (j.part? 2 "child_type")
    r.childType
  /-- The number of a frozen object may be given. -/
  childId : Json.OptionalPart Json.IsInt64 (j.part? 3 "child_id") r.childId
  /-- The context may be given. -/
  context : Json.OptionalPart Json.IsInt64 (j.part? 4 "context_id") r.context

/-- **A reference is read from what describes it**, and from nothing else. -/
theorem ofJson?_eq_some_iff {j : Json} {r : ObjectRef} : ofJson? j = some r ↔ r.DescribedBy j := by
  constructor
  · intro h
    obtain ⟨parts, hparts, h⟩ := Option.bind_eq_some_iff.1 h
    obtain ⟨hrecord, rfl⟩ := Json.parts?_eq_some_iff.1 hparts
    split at h
    · next id type childType childId context heq =>
      obtain ⟨hid, htype, rfl, rfl, rfl⟩ :
          j.part? 0 "id" = some id ∧ j.part? 1 "type" = some type ∧
          j.part? 2 "child_type" = childType ∧ j.part? 3 "child_id" = childId ∧
            j.part? 4 "context_id" = context := by
        simpa [partNames] using heq
      obtain ⟨n, hn, h⟩ := Option.bind_eq_some_iff.1 h
      obtain ⟨t, ht, h⟩ := Option.bind_eq_some_iff.1 h
      obtain ⟨childType, hchildType, h⟩ := Option.bind_eq_some_iff.1 h
      obtain ⟨childId, hchildId, h⟩ := Option.bind_eq_some_iff.1 h
      obtain ⟨context, hcontext, h⟩ := Option.bind_eq_some_iff.1 h
      cases h
      rw [TypeName.ofJson?_eq_some_iff] at ht
      exact ⟨hrecord, ⟨id, hid, Json.int64?_eq_some_iff.1 hn⟩, by rw [htype, ht],
        (Json.optional_eq_some_iff TypeName.ofJson?_eq_some_iff).1 hchildType,
        (Json.optional_eq_some_iff Json.int64?_eq_some_iff).1 hchildId,
        (Json.optional_eq_some_iff Json.int64?_eq_some_iff).1 hcontext⟩
    · cases h
  · rintro ⟨hrecord, ⟨id, hid, hn⟩, htype, hchildType, hchildId, hcontext⟩
    have hparts : j.parts? partNames = some [some id, some (.str r.type.text),
        j.part? 2 "child_type", j.part? 3 "child_id", j.part? 4 "context_id"] := by
      refine Json.parts?_eq_some_iff.2 ⟨hrecord, ?_⟩
      rw [← hid, ← htype]
      rfl
    have hn := Json.int64?_eq_some_iff.2 hn
    have hchildType := (Json.optional_eq_some_iff TypeName.ofJson?_eq_some_iff).2 hchildType
    have hchildId := (Json.optional_eq_some_iff Json.int64?_eq_some_iff).2 hchildId
    have hcontext := (Json.optional_eq_some_iff Json.int64?_eq_some_iff).2 hcontext
    simp [ofJson?, hparts, hn, TypeName.ofJson?, Json.text?, hchildType, hchildId, hcontext]

end ObjectRef

end ObjectMapping
