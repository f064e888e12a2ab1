import EspNowOnLinux.Lib.Bytes

/-!
# Flat memory

Memory as a function from addresses, with the two accesses of a C program to a range of it. Nothing
bounds a range: what a copy to an object does to its neighbours is a question about addresses.

* `read mem a n`: the `n` bytes at `a`;
* `memcpy mem dst bs`: memory after `bs` was copied to `dst`.

A copy is read back (`read_memcpy_self`), leaves what it does not cover as it is
(`memcpy_of_outside`, `read_memcpy_of_disjoint`), and within an object that it lies in it is
`overwrite` (`read_memcpy`).
-/

namespace Memory

open Bytes

variable {β : Type*}

/-- The `n` bytes at address `a`. -/
def read (mem : ℕ → β) (a n : ℕ) : List β := (List.range n).map fun i => mem (a + i)

/-- Memory after `bs` was copied to address `dst`. -/
def memcpy (mem : ℕ → β) (dst : ℕ) (bs : List β) : ℕ → β := fun a =>
  if a < dst then mem a else (bs[a - dst]?).getD (mem a)

variable {mem mem' : ℕ → β} {a dst m n : ℕ} {bs : List β}

/-! ## One address -/

/-- An address that the copy does not cover. -/
theorem memcpy_of_outside (h : a < dst ∨ dst + bs.length ≤ a) : memcpy mem dst bs a = mem a := by
  rcases h with hlt | hle
  · exact if_pos hlt
  · have hout : bs[a - dst]? = none := List.getElem?_eq_none (by omega)
    rw [memcpy, if_neg (by omega), hout, Option.getD_none]

/-- An address that it covers. -/
theorem memcpy_add {i : ℕ} (h : i < bs.length) : memcpy mem dst bs (dst + i) = bs[i] := by
  have hin : bs[dst + i - dst]? = some bs[i] := by
    rw [Nat.add_sub_cancel_left, List.getElem?_eq_getElem h]
  rw [memcpy, if_neg (by omega), hin, Option.getD_some]

/-! ## Ranges -/

@[simp]
theorem length_read (mem : ℕ → β) (a n : ℕ) : (read mem a n).length = n := by
  rw [read, List.length_map, List.length_range]

/-- A range in two parts. -/
theorem read_add (mem : ℕ → β) (a m n : ℕ) :
    read mem a (m + n) = read mem a m ++ read mem (a + m) n := by
  simp only [read, List.range_add, List.map_append, List.map_map, Function.comp_def,
    Nat.add_assoc]

/-- A range depends on its own addresses only. -/
theorem read_congr (h : ∀ i < n, mem (a + i) = mem' (a + i)) : read mem a n = read mem' a n :=
  List.map_congr_left fun i hi => h i (List.mem_range.mp hi)

/-- What was copied is read back. -/
theorem read_memcpy_self (mem : ℕ → β) (dst : ℕ) (bs : List β) :
    read (memcpy mem dst bs) dst bs.length = bs := by
  refine List.ext_getElem (length_read _ _ _) fun i hi hbs => ?_
  simp only [read, List.getElem_map, List.getElem_range, memcpy_add hbs]

/-- A range that the copy does not touch. -/
theorem read_memcpy_of_disjoint (h : a + n ≤ dst ∨ dst + bs.length ≤ a) :
    read (memcpy mem dst bs) a n = read mem a n :=
  read_congr fun i hi => memcpy_of_outside (by omega)

/-- The front of a range. -/
theorem take_read (h : m ≤ n) : (read mem a n).take m = read mem a m := by
  rw [← Nat.add_sub_cancel' h, read_add, List.take_left' (length_read _ _ _)]

/-- The rest of a range. -/
theorem drop_read (h : m ≤ n) : (read mem a n).drop m = read mem (a + m) (n - m) := by
  conv_lhs => rw [← Nat.add_sub_cancel' h, read_add]
  rw [List.drop_left' (length_read _ _ _)]

/-- A copy to an object that it lies in. -/
theorem read_memcpy (mem : ℕ → β) (a off : ℕ) (bs : List β) (h : off + bs.length ≤ n) :
    read (memcpy mem (a + off) bs) a n = overwrite (read mem a n) off bs := by
  -- the object is what lies in front of the copy, the copy, and `rest` bytes behind it
  obtain ⟨rest, rfl⟩ := Nat.exists_eq_add_of_le h
  have hfront : (read mem a (off + bs.length + rest)).take off = read mem a off :=
    take_read (by omega)
  have hback : (read mem a (off + bs.length + rest)).drop (off + bs.length) =
      read mem (a + (off + bs.length)) rest := by
    rw [drop_read (by omega), Nat.add_sub_cancel_left]
  rw [overwrite_of_fits (by rw [length_read]; omega), hfront, hback, read_add, read_add,
    read_memcpy_self, read_memcpy_of_disjoint (by omega), read_memcpy_of_disjoint (by omega)]

end Memory
