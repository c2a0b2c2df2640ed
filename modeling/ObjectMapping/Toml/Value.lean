import ObjectMapping.SortedMap

/-! # TOML values

What a settings file in TOML holds: texts, integers, decimals, truth values, moments in time, lists
and tables. The functions below read records and choices out of such values. -/

namespace ObjectMapping.Toml

/-- A **TOML value**. Decimals and moments are kept as they were written. -/
inductive Value where
  /-- A text. -/
  | text (value : String)
  /-- An integer of 64 bits. -/
  | integer (value : Int)
  /-- A number with a fraction or an exponent. -/
  | decimal (written : String)
  /-- A truth value. -/
  | boolean (value : Bool)
  /-- A date, a time or both. -/
  | moment (written : String)
  /-- A list. -/
  | list (items : List Value)
  /-- A table of named values. -/
  | table (entries : List (String × Value))

namespace Value

instance : Inhabited Value := ⟨.table []⟩

/-- The text of a text. -/
def text? : Value → Option String
  | .text s => some s
  | _ => none

/-- The truth value of a truth value. -/
def boolean? : Value → Option Bool
  | .boolean b => some b
  | _ => none

/-- An unsigned integer of 32 bits. -/
def nat32? : Value → Option Nat
  | .integer n => if 0 ≤ n ∧ n ≤ 0xFFFFFFFF then some n.toNat else none
  | _ => none

/-- The items of a list. -/
def items? : Value → Option (List Value)
  | .list items => some items
  | _ => none

/-- The entries of a table. -/
def entries? : Value → Option (List (String × Value))
  | .table entries => some entries
  | _ => none

mutual

/-- How many lists and tables stand in one another in a value. -/
def depth : Value → Nat
  | .list items => itemsDepth items + 1
  | .table entries => entriesDepth entries + 1
  | _ => 0

/-- The greatest depth of the items of a list. -/
def itemsDepth : List Value → Nat
  | [] => 0
  | v :: rest => max v.depth (itemsDepth rest)

/-- The greatest depth of the entries of a table. -/
def entriesDepth : List (String × Value) → Nat
  | [] => 0
  | (_, v) :: rest => max v.depth (entriesDepth rest)

end

/-- An item is no deeper than the items together. -/
theorem depth_le_itemsDepth {v : Value} : ∀ {items : List Value}, v ∈ items →
    v.depth ≤ itemsDepth items
  | w :: rest, h => by
    rcases List.mem_cons.mp h with rfl | h
    · exact Nat.le_max_left _ _
    · exact Nat.le_trans (depth_le_itemsDepth h) (Nat.le_max_right _ _)

/-- An entry is no deeper than the entries together. -/
theorem depth_le_entriesDepth {name : String} {v : Value} :
    ∀ {entries : List (String × Value)}, (name, v) ∈ entries → v.depth ≤ entriesDepth entries
  | (_, w) :: rest, h => by
    rcases List.mem_cons.mp h with h | h
    · cases h
      exact Nat.le_max_left _ _
    · exact Nat.le_trans (depth_le_entriesDepth h) (Nat.le_max_right _ _)

/-- The texts of a list of texts. -/
def texts? (v : Value) : Option (List String) := do
  (← v.items?).mapM text?

/-- The name of a choice: a text, or a table whose only entry is an empty table or list. -/
def choice? : Value → Option String
  | .text s => some s
  | .table [(name, .table [])] => some name
  | .table [(name, .list [])] => some name
  | _ => none

/-- Whether a record written as a list may have more parts than it has names. -/
inductive Surplus where
  /-- Parts beyond the last name do not count. -/
  | ignored
  /-- Parts beyond the last name are refused. -/
  | refused
deriving DecidableEq

/-- The parts of a record in the order of the given names. A record is written as a table, whose
other entries do not count, or as a list of its parts, from which parts at the end may be missing; a
moment is a record without any of the parts. -/
def parts? (surplus : Surplus) (names : List String) : Value → Option (List (Option Value))
  | .table entries => some (names.map fun n => SortedMap.find? entries n)
  | .list items =>
    if surplus = .refused ∧ names.length < items.length then none
    else
      some ((items.take names.length).map some ++
        List.replicate (names.length - items.length) none)
  | .moment _ => some (names.map fun _ => none)
  | _ => none

/-- A part of a record is less deep than the record. -/
theorem depth_lt_of_mem_parts? {surplus : Surplus} {names : List String} {v part : Value}
    {parts : List (Option Value)} (h : v.parts? surplus names = some parts)
    (hm : some part ∈ parts) : part.depth < v.depth := by
  cases v with
  | table entries =>
    simp only [parts?, Option.some.injEq] at h
    subst h
    obtain ⟨name, -, hf⟩ := List.mem_map.mp hm
    simp only [SortedMap.find?, Option.map_eq_some_iff] at hf
    obtain ⟨⟨key, w⟩, hf, rfl⟩ := hf
    exact Nat.lt_succ_of_le (depth_le_entriesDepth (List.mem_of_find?_eq_some hf))
  | list items =>
    simp only [parts?] at h
    split at h
    · cases h
    · simp only [Option.some.injEq] at h
      subst h
      simp only [List.mem_append, List.mem_map, List.mem_replicate, reduceCtorEq, and_false,
        or_false, Option.some.injEq] at hm
      obtain ⟨w, hw, rfl⟩ := hm
      exact Nat.lt_succ_of_le (depth_le_itemsDepth (List.mem_of_mem_take hw))
  | moment written =>
    simp only [parts?, Option.some.injEq] at h
    subst h
    simp at hm
  | _ => simp [parts?] at h

/-- A part with a value to fall back on when it is missing. -/
def withDefault {α : Type} (fallback : α) (read : Value → Option α) : Option Value → Option α
  | none => some fallback
  | some v => read v

/-- An optional part. -/
def optional {α : Type} (read : Value → Option α) : Option Value → Option (Option α) :=
  withDefault none fun v => (read v).map some

end Value

end ObjectMapping.Toml
