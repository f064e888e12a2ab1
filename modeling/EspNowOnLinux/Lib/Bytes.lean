import Mathlib.Data.List.Induction
import Mathlib.Data.Vector.Basic
import Mathlib.Tactic.Ring
import Mathlib.Tactic.NormNum

/-!
# Bytes in memory and on the wire

Fixed-width integers as bytes, and the two memory operations a C program uses on byte arrays.

* `toBE w n` / `ofBE bs`: the `w` bytes of `n`, most significant first, and back, with the round
  trips `ofBE_toBE` and `toBE_ofBE`;
* `ByteOrder.store` / `ByteOrder.load`: the object representation of an integer on a machine of
  either byte order;
* `ByteOrder.hton` / `ByteOrder.ntoh`: conversion between host and network order, by its meaning:
  the object representation of `hton v` is `v` most significant byte first (`store_hton`), whatever
  the byte order of the machine; `toBE_hton` is what comes of converting twice;
* `overwrite mem off bs`: the array `mem` after a copy of `bs` to offset `off`;
* `copyTo mem off bs`: the same for a copy that is undefined where it leaves the array;
* `toInt32 n`: conversion to a signed integer;
* `cString bs`: the characters a C string function reads from `bs`.
-/

namespace Bytes

/-! ## Big-endian integers -/

/-- The `w` bytes of `n`, most significant first; bits above `8 * w` are dropped. -/
def toBE : ℕ → ℕ → List UInt8
  | 0, _ => []
  | w + 1, n => toBE w (n / 256) ++ [UInt8.ofNat n]

/-- The natural number whose bytes, most significant first, are `bs`. -/
def ofBE (bs : List UInt8) : ℕ := bs.foldl (fun n b => 256 * n + b.toNat) 0

@[simp]
theorem length_toBE (w n : ℕ) : (toBE w n).length = w := by
  induction w generalizing n with
  | zero => rfl
  | succ w ih => rw [toBE, List.length_append, ih, List.length_singleton]

/-- The last byte is the least significant one. -/
theorem ofBE_concat (bs : List UInt8) (b : UInt8) : ofBE (bs ++ [b]) = 256 * ofBE bs + b.toNat := by
  simp [ofBE]

/-- Reading back `w` bytes of `n` gives `n` modulo `256 ^ w`. -/
theorem ofBE_toBE (w n : ℕ) : ofBE (toBE w n) = n % 256 ^ w := by
  induction w generalizing n with
  | zero => simp [toBE, ofBE, Nat.mod_one]
  | succ w ih =>
      -- the last byte is `n % 256`, the others are those of `n / 256`
      have hbyte : (UInt8.ofNat n).toNat = n % 256 := UInt8.toNat_ofNat'
      rw [toBE, ofBE_concat, ih, hbyte, pow_succ', Nat.mod_mul, Nat.add_comm]

/-- Reading back `w` bytes of `n` gives `n`, if they hold it. -/
theorem ofBE_toBE_of_lt {w n : ℕ} (h : n < 256 ^ w) : ofBE (toBE w n) = n := by
  rw [ofBE_toBE, Nat.mod_eq_of_lt h]

/-- Bytes determine the number they denote and are determined by it. -/
theorem toBE_ofBE (bs : List UInt8) : toBE bs.length (ofBE bs) = bs := by
  induction bs using List.reverseRecOn with
  | nil => rfl
  | append_singleton bs b ih =>
      have hb : b.toNat < 256 := b.toNat_lt
      have hdiv : (256 * ofBE bs + b.toNat) / 256 = ofBE bs := by omega
      have hbyte : UInt8.ofNat (256 * ofBE bs + b.toNat) = b := by
        apply UInt8.toNat.inj
        rw [UInt8.toNat_ofNat']
        omega
      rw [List.length_append, List.length_singleton, ofBE_concat, toBE, hdiv, ih, hbyte]

/-- A number read from `bs` fits in `bs.length` bytes. -/
theorem ofBE_lt (bs : List UInt8) : ofBE bs < 256 ^ bs.length := by
  rw [← toBE_ofBE bs, ofBE_toBE, length_toBE]
  exact Nat.mod_lt _ (by positivity)

/-! ## Byte order -/

/-- The order in which a machine stores the bytes of an integer. -/
inductive ByteOrder
  /-- Least significant byte first. -/
  | little
  /-- Most significant byte first. -/
  | big
  deriving DecidableEq, Repr

namespace ByteOrder

/-- The object representation of the `w`-byte integer `n`. -/
def store : ByteOrder → ℕ → ℕ → List UInt8
  | little, w, n => (toBE w n).reverse
  | big, w, n => toBE w n

/-- The integer whose object representation is `bs`. -/
def load : ByteOrder → List UInt8 → ℕ
  | little, bs => ofBE bs.reverse
  | big, bs => ofBE bs

/-- Host to network order: the `w`-byte integer whose object representation is `n` most significant
byte first. -/
def hton (o : ByteOrder) (w n : ℕ) : ℕ := o.load (toBE w n)

/-- Network to host order: the number that the object representation of `n` denotes when it is read
most significant byte first. -/
def ntoh (o : ByteOrder) (w n : ℕ) : ℕ := ofBE (o.store w n)

variable (o : ByteOrder)

@[simp]
theorem length_store (w n : ℕ) : (o.store w n).length = w := by
  cases o <;> simp [store]

/-- Storing what was loaded gives the bytes back. -/
theorem store_load (bs : List UInt8) : o.store bs.length (o.load bs) = bs := by
  cases o with
  | little =>
      have h := toBE_ofBE bs.reverse
      rw [List.length_reverse] at h
      rw [load, store, h, List.reverse_reverse]
  | big => exact toBE_ofBE bs

/-- Loading what was stored gives the integer back, if the bytes hold it. -/
theorem load_store {w n : ℕ} (h : n < 256 ^ w) : o.load (o.store w n) = n := by
  cases o with
  | little => rw [store, load, List.reverse_reverse, ofBE_toBE_of_lt h]
  | big => exact ofBE_toBE_of_lt h

theorem load_lt (bs : List UInt8) : o.load bs < 256 ^ bs.length := by
  cases o with
  | little => simpa [load] using ofBE_lt bs.reverse
  | big => exact ofBE_lt bs

theorem hton_lt (w n : ℕ) : o.hton w n < 256 ^ w := by
  simpa [hton] using o.load_lt (toBE w n)

/-- An integer converted to network order lies in memory most significant byte first. -/
theorem store_hton (w n : ℕ) : o.store w (o.hton w n) = toBE w n := by
  simpa [hton] using o.store_load (toBE w n)

/-- An integer read from memory and converted to host order is read most significant byte first. -/
theorem ntoh_load (bs : List UInt8) : o.ntoh bs.length (o.load bs) = ofBE bs := by
  rw [ntoh, store_load]

/-- The two conversions are the same function on a machine of either order. -/
theorem ntoh_eq_hton (w n : ℕ) : o.ntoh w n = o.hton w n := by
  cases o <;> rfl

/-- The bytes of a converted integer are its object representation: taken apart by its value once
more, it has been converted twice. -/
theorem toBE_hton (w n : ℕ) : toBE w (o.hton w n) = o.store w n := by
  cases o with
  | little =>
      have h := toBE_ofBE (toBE w n).reverse
      rwa [List.length_reverse, length_toBE] at h
  | big =>
      have h := toBE_ofBE (toBE w n)
      rwa [length_toBE] at h

/-- An integer put together from an object representation and then converted is the one that was
stored. -/
theorem ntoh_ofBE (bs : List UInt8) : o.ntoh bs.length (ofBE bs) = o.load bs := by
  cases o with
  | little => rw [ntoh, store, toBE_ofBE, load]
  | big => rw [ntoh, store, toBE_ofBE, load]

/-- Which integers a machine stores most significant byte first. -/
theorem store_eq_toBE_iff {w n : ℕ} :
    o.store w n = toBE w n ↔ o = big ∨ (toBE w n).reverse = toBE w n := by
  cases o with
  | little => simp [store]
  | big => simp [store]

variable {o} {o' : ByteOrder}

/-- What a machine makes of the object representation of the other byte order. -/
theorem load_store_of_ne (h : o' ≠ o) (w n : ℕ) :
    o'.load (o.store w n) = ofBE (toBE w n).reverse := by
  match o, o', h with
  | little, big, _ => rfl
  | big, little, _ => rfl
  | little, little, h => exact absurd rfl h
  | big, big, h => exact absurd rfl h

/-- It is the integer iff its bytes are the same in both directions. -/
theorem load_store_eq_iff_of_ne (h : o' ≠ o) {w n : ℕ} (hn : n < 256 ^ w) :
    o'.load (o.store w n) = n ↔ (toBE w n).reverse = toBE w n := by
  rw [load_store_of_ne h]
  constructor
  · intro heq
    have hbytes := toBE_ofBE (toBE w n).reverse
    rw [heq, List.length_reverse, length_toBE] at hbytes
    exact hbytes.symm
  · intro heq
    rw [heq, ofBE_toBE_of_lt hn]

end ByteOrder

/-! ## Memory -/

section Memory

variable {α : Type*}

/-- The array `mem` after `bs` was copied to offset `off`. What would lie past its end is dropped,
so the array keeps its length. -/
def overwrite (mem : List α) (off : ℕ) (bs : List α) : List α :=
  mem.take off ++ bs.take (mem.length - off) ++ mem.drop (off + bs.length)

@[simp]
theorem length_overwrite (mem : List α) (off : ℕ) (bs : List α) :
    (overwrite mem off bs).length = mem.length := by
  simp only [overwrite, List.length_append, List.length_take, List.length_drop]
  omega

/-- A copy that fits replaces just the bytes it covers. -/
theorem overwrite_of_fits {mem : List α} {off : ℕ} {bs : List α}
    (h : off + bs.length ≤ mem.length) :
    overwrite mem off bs = mem.take off ++ bs ++ mem.drop (off + bs.length) := by
  rw [overwrite, List.take_of_length_le (by omega : bs.length ≤ mem.length - off)]

/-- A copy over a whole array. -/
theorem overwrite_whole {mem bs : List α} (h : bs.length = mem.length) :
    overwrite mem 0 bs = bs := by
  rw [overwrite_of_fits (by omega), List.take_zero, List.nil_append,
    List.drop_eq_nil_of_le (by omega), List.append_nil]

/-- A copy within the first of two arrays that lie one behind the other. -/
theorem overwrite_append_left {mem : List α} (behind : List α) {off : ℕ} {bs : List α}
    (h : off + bs.length ≤ mem.length) :
    overwrite (mem ++ behind) off bs = overwrite mem off bs ++ behind := by
  rw [overwrite_of_fits (by rw [List.length_append]; omega), overwrite_of_fits h,
    List.take_append_of_le_length (by omega), List.drop_append_of_le_length (by omega),
    List.append_assoc _ _ behind]

/-- A copy within the second one. -/
theorem overwrite_append_right (front mem : List α) (off : ℕ) (bs : List α) :
    overwrite (front ++ mem) (front.length + off) bs = front ++ overwrite mem off bs := by
  have hroom : (front ++ mem).length - (front.length + off) = mem.length - off := by
    rw [List.length_append]; omega
  rw [overwrite, overwrite, hroom, List.take_length_add_append, Nat.add_assoc,
    List.drop_length_add_append]
  simp only [List.append_assoc]

/-- A copy over one of several members. -/
theorem overwrite_member (front behind : List α) {old bs : List α} {off : ℕ}
    (hoff : front.length = off) (h : bs.length = old.length) :
    overwrite (front ++ (old ++ behind)) off bs = front ++ (bs ++ behind) := by
  have hright := overwrite_append_right front (old ++ behind) 0 bs
  rw [Nat.add_zero, hoff, overwrite_append_left behind (by omega), overwrite_whole h] at hright
  exact hright

/-- The copy can be read back, followed by what lay behind it. -/
theorem drop_overwrite {mem : List α} {off : ℕ} {bs : List α}
    (h : off + bs.length ≤ mem.length) :
    (overwrite mem off bs).drop off = bs ++ mem.drop (off + bs.length) := by
  have hlen : (mem.take off).length = off := by rw [List.length_take]; omega
  rw [overwrite_of_fits h, List.append_assoc, List.drop_left' hlen]

/-- What lay in front of the copy, and the copy. -/
theorem take_overwrite {mem : List α} {off : ℕ} {bs : List α}
    (h : off + bs.length ≤ mem.length) :
    (overwrite mem off bs).take (off + bs.length) = mem.take off ++ bs := by
  have hlen : (mem.take off ++ bs).length = off + bs.length := by
    rw [List.length_append, List.length_take]; omega
  rw [overwrite_of_fits h, List.take_left' hlen]

variable {n : ℕ}

/-- `memcpy` of `bs` to offset `off` of an array of `n` elements; `none` is a copy past its end. -/
def copyTo (mem : List.Vector α n) (off : ℕ) (bs : List α) : Option (List.Vector α n) :=
  if off + bs.length ≤ n then
    some ⟨overwrite mem.toList off bs, by rw [length_overwrite, mem.toList_length]⟩
  else none

theorem copyTo_eq_none {mem : List.Vector α n} {off : ℕ} {bs : List α} (h : n < off + bs.length) :
    copyTo mem off bs = none := if_neg (Nat.not_le.mpr h)

/-- A copy that fits. -/
theorem exists_copyTo (mem : List.Vector α n) (off : ℕ) (bs : List α) (h : off + bs.length ≤ n) :
    ∃ mem', copyTo mem off bs = some mem' ∧
      mem'.toList.take (off + bs.length) = mem.toList.take off ++ bs :=
  ⟨_, if_pos h, take_overwrite (by rwa [mem.toList_length])⟩

end Memory

/-- The value of an unsigned integer after its conversion to a signed one of 32 bits. -/
def toInt32 (n : ℕ) : ℤ := (BitVec.ofNat 32 n).toInt

theorem toInt32_of_lt {n : ℕ} (h : n < 2 ^ 31) : toInt32 n = n := by
  rw [toInt32, BitVec.toInt_eq_toNat_of_lt] <;> rw [BitVec.toNat_ofNat] <;> omega

/-- The characters of the C string that starts at `bs`: those before the first NUL. -/
def cString (bs : List UInt8) : List UInt8 := bs.takeWhile (· ≠ 0)

/-- Bytes that hold no NUL belong to the string, and it goes on behind them. -/
theorem cString_append_of_notMem {a : List UInt8} (h : 0 ∉ a) (b : List UInt8) :
    cString (a ++ b) = a ++ cString b :=
  List.takeWhile_append_of_pos fun _ hx => decide_eq_true fun hzero => h (hzero ▸ hx)

theorem cString_of_notMem {a : List UInt8} (h : 0 ∉ a) : cString a = a := by
  have happend := cString_append_of_notMem h []
  rwa [show cString [] = [] from rfl, List.append_nil] at happend

/-- Behind a NUL nothing matters. -/
theorem cString_append_of_mem {a : List UInt8} (h : 0 ∈ a) (b : List UInt8) :
    cString (a ++ b) = cString a := by
  obtain ⟨before, after, rfl, hbefore⟩ := List.eq_append_cons_of_mem h
  rw [List.append_assoc, cString_append_of_notMem hbefore, cString_append_of_notMem hbefore]
  rfl

/-- A NUL ends the string. -/
theorem cString_append_nul (a b : List UInt8) : cString (a ++ 0 :: b) = cString a := by
  by_cases h : 0 ∈ a
  · rw [cString_append_of_mem h]
  · rw [cString_append_of_notMem h, cString_of_notMem h]
    exact List.append_nil a

theorem length_cString_le (a : List UInt8) : (cString a).length ≤ a.length :=
  (List.takeWhile_sublist _).length_le

/-- The NUL lies behind the string. -/
theorem length_cString_lt {a : List UInt8} (h : 0 ∈ a) : (cString a).length < a.length := by
  obtain ⟨before, after, rfl, -⟩ := List.eq_append_cons_of_mem h
  rw [cString_append_nul, List.length_append, List.length_cons]
  have hle := length_cString_le before
  omega

end Bytes
