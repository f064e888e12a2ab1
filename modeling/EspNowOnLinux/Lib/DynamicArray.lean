import Mathlib.Data.List.Basic
import Mathlib.Order.MinMax

/-!
# An array that grows, and iterators into it

A dynamic array has a capacity, and an element appended to a full array moves all elements to new
storage. Elements that are erased make those behind them move up. An iterator refers to a position
of the storage that it was obtained in, so it goes stale in either case.

* `emplaceBack` and `eraseIf`: the two operations that change an array;
* `range` and `Range.Valid`: the iterators from the first element to the end, and whether the array
  has since left alone the elements between them;
* `valid_emplaceBack_iff` and `valid_eraseIf_iff`: which operations do;
* `Range.Valid.take_emplaceBack` and `Range.Valid.take_eraseIf`: then the elements in the range are
  the same as before.
-/

/-- A dynamic array. -/
structure DynamicArray (α : Type*) where
  elements : List α
  capacity : ℕ
  /-- The number of the allocation that holds the elements. -/
  storage : ℕ
  /-- How many elements at the front have stayed where they were since `watch`. -/
  stable : ℕ
  length_le : elements.length ≤ capacity
  stable_le : stable ≤ elements.length

namespace DynamicArray

variable {α : Type*}

/-- An array without storage. -/
def empty : DynamicArray α := ⟨[], 0, 0, 0, le_rfl, le_rfl⟩

/-- From now on all elements are watched. -/
def watch (v : DynamicArray α) : DynamicArray α :=
  { v with stable := v.elements.length, stable_le := le_rfl }

/-- Append an element. A full array is moved to new storage, which `grow` asks for and which holds
the element in any case. -/
def emplaceBack (grow : ℕ → ℕ) (v : DynamicArray α) (x : α) : DynamicArray α :=
  if h : v.elements.length < v.capacity then
    { v with
      elements := v.elements ++ [x]
      length_le := by rwa [List.length_append]
      stable_le := by
        rw [List.length_append]
        exact v.stable_le.trans (Nat.le_add_right _ _) }
  else
    { elements := v.elements ++ [x]
      capacity := max (v.elements.length + 1) (grow v.capacity)
      storage := v.storage + 1
      -- all elements have been moved
      stable := 0
      length_le := by
        rw [List.length_append]
        exact le_max_left _ _
      stable_le := Nat.zero_le _ }

@[simp]
theorem elements_emplaceBack (grow : ℕ → ℕ) (v : DynamicArray α) (x : α) :
    (v.emplaceBack grow x).elements = v.elements ++ [x] := by
  unfold emplaceBack
  split <;> rfl

/-- An element that is not erased stays at the front if none in front of it is. -/
theorem findIdx_le_length_filter (p : α → Bool) (xs : List α) :
    xs.findIdx p ≤ (xs.filter fun x => !p x).length := by
  induction xs with
  | nil => exact Nat.le_refl _
  | cons x xs ih =>
      rw [List.findIdx_cons]
      cases hx : p x with
      | true => exact Nat.zero_le _
      | false =>
          rw [List.filter_cons_of_pos (by rw [hx]; rfl)]
          exact Nat.succ_le_succ ih

/-- Erase the elements that satisfy `p`; those behind the first of them move. -/
def eraseIf (p : α → Bool) (v : DynamicArray α) : DynamicArray α :=
  { v with
    elements := v.elements.filter fun x => !p x
    stable := min v.stable (v.elements.findIdx p)
    length_le := (List.length_filter_le _ _).trans v.length_le
    stable_le := (min_le_right _ _).trans (findIdx_le_length_filter p _) }

/-! ## Iterators -/

/-- The iterators from the first element of an array to its end. -/
structure Range where
  storage : ℕ
  last : ℕ
  deriving DecidableEq

/-- `begin()` and `end()`. -/
def range (v : DynamicArray α) : Range := ⟨v.storage, v.elements.length⟩

/-- The elements in the range have stayed where they were. -/
def Range.Valid (r : Range) (v : DynamicArray α) : Prop := r.last ≤ v.stable

instance (r : Range) (v : DynamicArray α) : Decidable (r.Valid v) :=
  inferInstanceAs (Decidable (_ ≤ _))

theorem valid_range_watch (v : DynamicArray α) : v.watch.range.Valid v.watch := le_rfl

variable {r : Range} {v : DynamicArray α} {grow : ℕ → ℕ} {x : α} {p : α → Bool}

theorem Range.Valid.last_le (h : r.Valid v) : r.last ≤ v.elements.length := h.trans v.stable_le

/-- Appending makes no range valid. -/
theorem Range.Valid.of_emplaceBack (h : r.Valid (v.emplaceBack grow x)) : r.Valid v := by
  unfold emplaceBack at h
  split at h
  · exact h
  · exact h.trans (Nat.zero_le _)

/-- Erasing makes no range valid. -/
theorem Range.Valid.of_eraseIf (h : r.Valid (v.eraseIf p)) : r.Valid v := h.trans (min_le_left _ _)

/-- A range that is not empty survives an append iff there is room. -/
theorem valid_emplaceBack_iff (h : r.Valid v) (hpos : 0 < r.last) :
    r.Valid (v.emplaceBack grow x) ↔ v.elements.length < v.capacity := by
  unfold emplaceBack
  split
  · next hroom => exact ⟨fun _ => hroom, fun _ => h⟩
  · next hfull => exact ⟨fun hvalid => absurd hvalid (Nat.not_le.mpr hpos), fun h => absurd h hfull⟩

/-- A range survives an erasure iff no element in it is erased. -/
theorem valid_eraseIf_iff (h : r.Valid v) :
    r.Valid (v.eraseIf p) ↔ ∀ y ∈ v.elements.take r.last, p y = false := by
  have hmin : r.Valid (v.eraseIf p) ↔ r.last ≤ v.elements.findIdx p :=
    le_min_iff.trans (and_iff_right h)
  rw [hmin]
  constructor
  · intro hle y hy
    obtain ⟨i, hi, rfl⟩ := List.mem_take_iff_getElem.mp hy
    rw [lt_min_iff] at hi
    exact List.not_of_lt_findIdx (hi.1.trans_le hle)
  · intro hall
    by_contra hlt
    have hlt : v.elements.findIdx p < r.last := Nat.not_le.mp hlt
    have hidx : v.elements.findIdx p < v.elements.length := hlt.trans_le h.last_le
    -- the first element that is erased is in the range
    have hmem : v.elements[v.elements.findIdx p] ∈ v.elements.take r.last :=
      List.mem_take_iff_getElem.mpr ⟨_, lt_min hlt hidx, rfl⟩
    exact absurd List.findIdx_getElem (Bool.eq_false_iff.mp (hall _ hmem))

theorem Range.Valid.take_emplaceBack (h : r.Valid v) :
    (v.emplaceBack grow x).elements.take r.last = v.elements.take r.last := by
  rw [elements_emplaceBack, List.take_append_of_le_length h.last_le]

theorem Range.Valid.take_eraseIf (h : r.Valid (v.eraseIf p)) :
    (v.eraseIf p).elements.take r.last = v.elements.take r.last := by
  have hkept := (valid_eraseIf_iff h.of_eraseIf).mp h
  -- the filter keeps the elements of the range, and the others come behind them
  have hfront : (v.elements.take r.last).filter (fun x => !p x) = v.elements.take r.last :=
    List.filter_eq_self.mpr fun y hy => by rw [hkept y hy]; rfl
  have hlen : (v.elements.take r.last).length = r.last :=
    List.length_take_of_le h.of_eraseIf.last_le
  calc (v.eraseIf p).elements.take r.last
      = ((v.elements.take r.last ++ v.elements.drop r.last).filter fun x => !p x).take r.last := by
        rw [List.take_append_drop]
        rfl
    _ = v.elements.take r.last := by
        rw [List.filter_append, hfront, List.take_left' hlen]

/-- The storage of a range that survives an append and is not empty stays the same. -/
theorem Range.Valid.storage_emplaceBack (h : r.Valid (v.emplaceBack grow x)) (hpos : 0 < r.last) :
    (v.emplaceBack grow x).storage = v.storage := by
  have hroom := (valid_emplaceBack_iff h.of_emplaceBack hpos).mp h
  rw [emplaceBack, dif_pos hroom]

end DynamicArray
