import Mathlib.Data.List.Basic
import ObjectMapping.Search.Page

/-! # Pages one after the other

Where a page begins is the product of two numbers of 32 bits, and where it ends is a sum. Both are
computed with 64 bits, which is enough for the last page of the greatest size too. So every page
covers as many results as it is to show, each begins where the one before it ends, and the pages up
to any number cover the results from the first one on, in order and each once.

* **`Page.toNat_first`, `Page.toNat_last`** — the bounds of a page as numbers without a limit.
* **`Page.results_firstPages`** — the results on the first pages, one page after the other.
* **`Page.pages_tile`** — pages leave no gap and do not overlap. -/

namespace ObjectMapping

namespace Page

variable {size : UInt32} {sort : List SortKey}

/-! ### The bounds of a page -/

/-- How many pages stand in front of the one with a number. Without a number there are none. -/
theorem toNat_before (current : UInt32) :
    (if current = 0 then 0 else current - 1).toNat = current.toNat - 1 := by
  split
  · next hzero => simp [hzero]
  · next hpos =>
    have hne : current.toNat ≠ 0 := fun h => hpos (UInt32.toNat_inj.1 h)
    have hone : 1 ≤ current := UInt32.le_iff_toNat_le.2 (Nat.one_le_iff_ne_zero.2 hne)
    rw [UInt32.toNat_sub_of_le _ _ hone]
    rfl

/-- The end of a page fits into 64 bits, whatever its number and size. -/
theorem end_lt (current size : UInt32) :
    (current.toNat - 1) * size.toNat + size.toNat < UInt64.size := by
  have hcurrent := current.toNat_lt
  have hsize := size.toNat_lt
  -- with the page itself there are at most as many pages as there are numbers
  have hpages : current.toNat - 1 + 1 ≤ 4294967295 := by omega
  have hresults : (current.toNat - 1 + 1) * size.toNat ≤ 4294967295 * 4294967295 :=
    Nat.mul_le_mul hpages (by omega)
  rw [Nat.succ_mul] at hresults
  exact Nat.lt_of_le_of_lt hresults (by decide)

/-- A page begins behind the pages in front of it. -/
theorem toNat_first (p : Page) :
    p.limit.1.toNat = (p.current.toNat - 1) * p.size.toNat := by
  have hend := end_lt p.current p.size
  show (UInt64.toNat (_ * _)) = _
  rw [UInt64.toNat_mul, UInt32.toNat_toUInt64, UInt32.toNat_toUInt64, toNat_before,
    Nat.mod_eq_of_lt (Nat.lt_of_le_of_lt (Nat.le_add_right _ _) hend)]

/-- A page ends as many results behind its beginning as it is to show. -/
theorem toNat_last (p : Page) : p.limit.2.toNat = p.limit.1.toNat + p.size.toNat := by
  have hend := end_lt p.current p.size
  have hsum : p.limit.2 = p.limit.1 + p.size.toUInt64 := rfl
  rw [hsum, UInt64.toNat_add, UInt32.toNat_toUInt64, toNat_first, Nat.mod_eq_of_lt hend]

/-- What a page covers depends on its size and on how many pages stand in front of it. -/
theorem limit_eq_of_before {p q : Page} (hbefore : p.current.toNat - 1 = q.current.toNat - 1)
    (hsize : p.size = q.size) : p.limit = q.limit := by
  have hfirst : p.limit.1.toNat = q.limit.1.toNat := by
    rw [toNat_first, toNat_first, hbefore, hsize]
  have hlast : p.limit.2.toNat = q.limit.2.toNat := by
    rw [toNat_last, toNat_last, hfirst, hsize]
  exact Prod.ext (UInt64.toNat_inj.1 hfirst) (UInt64.toNat_inj.1 hlast)

/-- A page without a number covers what the first page does. -/
theorem limit_zero : limit ⟨0, size, sort⟩ = limit ⟨1, size, sort⟩ :=
  limit_eq_of_before rfl rfl

/-- A page made by number covers the same as if its number were kept as it is given. -/
theorem limit_ofNumber (current size : UInt32) :
    (ofNumber current size).limit = limit ⟨current, size, sort⟩ := by
  have hbefore : (max current 1).toNat - 1 = current.toNat - 1 := by
    show (if current ≤ 1 then 1 else current).toNat - 1 = current.toNat - 1
    split
    · next hle =>
      have hle : current.toNat ≤ 1 := UInt32.le_iff_toNat_le.1 hle
      show 1 - 1 = current.toNat - 1
      omega
    · rfl
  exact limit_eq_of_before hbefore rfl

/-- **Each page begins where the one before it ends**, as long as there is a number for it. -/
theorem first_succ {current : UInt32} (hone : 1 ≤ current) (hlast : current < 4294967295) :
    (limit ⟨current + 1, size, sort⟩).1 = (limit ⟨current, size, sort⟩).2 := by
  have hone : 1 ≤ current.toNat := UInt32.le_iff_toNat_le.1 hone
  have hlast : current.toNat < 4294967295 := UInt32.lt_iff_toNat_lt.1 hlast
  have hfits : current.toNat + 1 < 2 ^ 32 := by omega
  have hnext : (current + 1).toNat = current.toNat + 1 := by
    rw [UInt32.toNat_add]
    exact Nat.mod_eq_of_lt hfits
  have hbefore : current.toNat + 1 - 1 = current.toNat - 1 + 1 := by omega
  refine UInt64.toNat_inj.1 ?_
  rw [toNat_last, toNat_first, toNat_first]
  show ((current + 1).toNat - 1) * size.toNat = (current.toNat - 1) * size.toNat + size.toNat
  rw [hnext, hbefore, Nat.succ_mul]

/-! ### The results on pages -/

/-- The **results on a page**, counted from zero. -/
def results (p : Page) : List Nat :=
  List.range' p.limit.1.toNat (p.limit.2.toNat - p.limit.1.toNat)

/-- The **first pages** of a size, in order. -/
def firstPages (size : UInt32) (sort : List SortKey) (count : Nat) : List Page :=
  (List.range count).map fun i => ⟨.ofNat (i + 1), size, sort⟩

/-- The results on a page whose number is one more than that of the pages in front of it. -/
theorem results_ofNat {before : Nat} (h : before + 1 < UInt32.size) :
    results ⟨.ofNat (before + 1), size, sort⟩ =
      List.range' (before * size.toNat) size.toNat := by
  have hnumber : (UInt32.ofNat (before + 1)).toNat = before + 1 := UInt32.toNat_ofNat_of_lt' h
  rw [results, toNat_last, toNat_first, Nat.add_sub_cancel_left, hnumber, Nat.add_sub_cancel]

/-- **The results on the first pages**, one page after the other, are the first results, in order
and each once. -/
theorem results_firstPages {count : Nat} (h : count < UInt32.size) :
    (firstPages size sort count).flatMap results = List.range (count * size.toNat) := by
  induction count with
  | zero => simp [firstPages]
  | succ count ih =>
    have hsplit : firstPages size sort (count + 1) =
        firstPages size sort count ++ [⟨.ofNat (count + 1), size, sort⟩] := by
      rw [firstPages, List.range_succ, List.map_append]
      rfl
    rw [hsplit, List.flatMap_append, ih (Nat.lt_of_succ_lt h), List.flatMap_singleton,
      results_ofNat h, List.range_eq_range', List.range_eq_range', Nat.succ_mul,
      ← List.range'_append_1, Nat.zero_add]

/-- **Pages leave no gap and do not overlap**, whatever their size and order. Without a limit on the
size of numbers a page would begin behind the pages in front of it and end as many results later as
it is to show, and so it does with 64 bits. As long as there is a number for the next page, it begins
where this one ends. The pages up to any number cover the results from the first one on, in order and
each once. And a page numbered zero covers what the first page does, whether it keeps its number or
is made by it. -/
theorem pages_tile (size : UInt32) (sort : List SortKey) :
    (∀ current : UInt32,
      (limit ⟨current, size, sort⟩).1.toNat = (current.toNat - 1) * size.toNat ∧
      (limit ⟨current, size, sort⟩).2.toNat =
        (limit ⟨current, size, sort⟩).1.toNat + size.toNat) ∧
    (∀ current : UInt32, 1 ≤ current → current < 4294967295 →
      (limit ⟨current, size, sort⟩).2 = (limit ⟨current + 1, size, sort⟩).1) ∧
    (∀ count : UInt32, (firstPages size sort count.toNat).flatMap results =
      List.range (count.toNat * size.toNat)) ∧
    limit ⟨0, size, sort⟩ = limit ⟨1, size, sort⟩ ∧
    (∀ current : UInt32, (ofNumber current size).limit = limit ⟨current, size, sort⟩) := by
  refine ⟨fun current => ⟨toNat_first _, toNat_last _⟩, ?_, fun count => ?_, limit_zero,
    fun current => limit_ofNumber current size⟩
  · intro current hone hlast
    exact (first_succ hone hlast).symm
  · exact results_firstPages count.toNat_lt

/-- The last page with a number, of the greatest size, begins where the one before it ends, and both
bounds need more than 32 bits. -/
theorem pages_tile_at_last : (1 : UInt32) ≤ 4294967294 ∧ (4294967294 : UInt32) < 4294967295 ∧
    (limit ⟨4294967294, 4294967295, []⟩).2 = (limit ⟨4294967295, 4294967295, []⟩).1 ∧
    (limit ⟨4294967295, 4294967295, []⟩).1.toNat = 18446744060824649730 ∧
    (limit ⟨4294967295, 4294967295, []⟩).2.toNat = 18446744065119617025 := by
  obtain ⟨hbounds, hnext, -⟩ := pages_tile 4294967295 []
  have hone : (1 : UInt32) ≤ 4294967294 := by decide
  have hlast : (4294967294 : UInt32) < 4294967295 := by decide
  obtain ⟨hfirst, hend⟩ := hbounds 4294967295
  exact ⟨hone, hlast, hnext 4294967294 hone hlast, hfirst, hend.trans (congrArg (· + _) hfirst)⟩

end Page

end ObjectMapping
