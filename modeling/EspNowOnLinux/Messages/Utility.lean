import EspNowOnLinux.Lib.Bytes
import Mathlib.Data.Vector.Basic

/-!
# Byte order and field codecs

The functions of `messages/utility.hpp` that the message formats are built from. A `uint32_t` is a
`UInt32`; `loadUInt32` and `storeUInt32` are the accesses through a pointer cast that the formats
make around the conversions. The field codecs `buffer_utils<T>` are stated for a scalar of `w` bytes
as a `BitVec (8 * w)`, as the class template is for any `T`.

A span that a codec is given is the list of its bytes; a read returns the remaining span and the
value, a write the bytes it put at the front of the span and the remaining span. `none` is a span
that the codec's assertion rejects as too short.
-/

open Bytes

namespace Messages

/-! ## Conversions -/

section Conversions

variable (o : ByteOrder)

/-- `host_to_network(uint32_t)`, which is `htonl`. -/
def hostToNetwork (value : UInt32) : UInt32 := UInt32.ofNat (o.hton 4 value.toNat)

/-- `network_to_host(uint32_t)`, which is `ntohl`. -/
def networkToHost (value : UInt32) : UInt32 := UInt32.ofNat (o.ntoh 4 value.toNat)

/-- `network_to_host(uint16_t)`, which is `ntohs`. -/
def networkToHost16 (value : UInt16) : UInt16 := UInt16.ofNat (o.ntoh 2 value.toNat)

/-- `*reinterpret_cast<const uint32_t*>(p)` for the bytes at `p`. -/
def loadUInt32 (bytes : List UInt8) : UInt32 := UInt32.ofNat (o.load (bytes.take 4))

/-- `*reinterpret_cast<uint16_t*>(p)` for the bytes at `p`. -/
def loadUInt16 (bytes : List UInt8) : UInt16 := UInt16.ofNat (o.load (bytes.take 2))

/-- The bytes from `reinterpret_cast<unsigned char*>(&value)` to its end. -/
def storeUInt32 (value : UInt32) : List UInt8 := o.store 4 value.toNat

@[simp]
theorem length_storeUInt32 (value : UInt32) : (storeUInt32 o value).length = 4 :=
  o.length_store 4 _

/-- A value is loaded from its object representation. -/
theorem loadUInt32_storeUInt32 (value : UInt32) : loadUInt32 o (storeUInt32 o value) = value := by
  have hlt : value.toNat < 256 ^ 4 := value.toNat_lt
  rw [loadUInt32, List.take_of_length_le (by rw [length_storeUInt32]), storeUInt32,
    ByteOrder.load_store o hlt, UInt32.ofNat_toNat]

/-- `htonl` and `ntohl` are the same function. -/
theorem hostToNetwork_eq_networkToHost (value : UInt32) :
    hostToNetwork o value = networkToHost o value := by
  rw [hostToNetwork, networkToHost, ByteOrder.ntoh_eq_hton]

/-- A converted value lies in memory most significant byte first, on a machine of either order. -/
theorem storeUInt32_hostToNetwork (value : UInt32) :
    storeUInt32 o (hostToNetwork o value) = toBE 4 value.toNat := by
  have hlt : o.hton 4 value.toNat < 2 ^ 32 := o.hton_lt 4 value.toNat
  rw [storeUInt32, hostToNetwork, UInt32.toNat_ofNat_of_lt' hlt, ByteOrder.store_hton]

/-- A value read from memory and converted is read most significant byte first. -/
theorem networkToHost_loadUInt32 {bytes : List UInt8} (h : 4 ≤ bytes.length) :
    (networkToHost o (loadUInt32 o bytes)).toNat = ofBE (bytes.take 4) := by
  have hlen : (bytes.take 4).length = 4 := by rw [List.length_take]; omega
  have hntoh := o.ntoh_load (bytes.take 4)
  have hload := o.load_lt (bytes.take 4)
  have hbe := ofBE_lt (bytes.take 4)
  rw [hlen] at hntoh hload hbe
  rw [networkToHost, loadUInt32, UInt32.toNat_ofNat_of_lt' hload, hntoh,
    UInt32.toNat_ofNat_of_lt' hbe]

/-- The same for two bytes. -/
theorem networkToHost16_loadUInt16 {bytes : List UInt8} (h : 2 ≤ bytes.length) :
    (networkToHost16 o (loadUInt16 o bytes)).toNat = ofBE (bytes.take 2) := by
  have hlen : (bytes.take 2).length = 2 := by rw [List.length_take]; omega
  have hntoh := o.ntoh_load (bytes.take 2)
  have hload := o.load_lt (bytes.take 2)
  have hbe := ofBE_lt (bytes.take 2)
  rw [hlen] at hntoh hload hbe
  rw [networkToHost16, loadUInt16, UInt16.toNat_ofNat_of_lt' hload, hntoh,
    UInt16.toNat_ofNat_of_lt' hbe]

/-- A length that was sent most significant byte first is read back. -/
theorem networkToHost_loadUInt32_toBE {n : ℕ} (rest : List UInt8) (h : n < 2 ^ 32) :
    (networkToHost o (loadUInt32 o (toBE 4 n ++ rest))).toNat = n := by
  rw [networkToHost_loadUInt32 o (by rw [List.length_append, length_toBE]; omega),
    List.take_left' (length_toBE 4 n), ofBE_toBE_of_lt h]

end Conversions

/-! ## Scalars -/

namespace BasicBufferUtils

variable {w : ℕ}

/-- `basic_buffer_utils<T>::read` for a `T` of `w` bytes, where `value` is what the output variable
held and `ntoh` the overload of `network_to_host` for `T`. -/
def read (ntoh : BitVec (8 * w) → BitVec (8 * w)) (buffer : List UInt8) (value : BitVec (8 * w)) :
    Option (List UInt8 × BitVec (8 * w)) :=
  if w ≤ buffer.length then
    let value := (buffer.take w).foldl
      (fun (v : BitVec (8 * w)) b => (v <<< 8) ||| b.toBitVec.setWidth (8 * w)) value
    some (buffer.drop w, ntoh value)
  else none

/-- `basic_buffer_utils<T>::write` for a `T` of `w` bytes, where `hton` is the overload of
`host_to_network` for `T`. The loop stores the low byte last and shifts it out. -/
def write (hton : BitVec (8 * w) → BitVec (8 * w)) (buffer : List UInt8) (value : BitVec (8 * w)) :
    Option (List UInt8 × List UInt8) :=
  if w ≤ buffer.length then
    let after := (List.range w).foldl (fun (s : List UInt8 × BitVec (8 * w)) i =>
      (s.1.set (w - 1 - i) ⟨s.2.setWidth 8⟩, s.2 >>> 8)) (buffer, hton value)
    some (after.1.take w, after.1.drop w)
  else none

end BasicBufferUtils

namespace BufferUtils

/-- `buffer_utils<uint8_t>::read` and, on the same bits, `buffer_utils<char>::read`. -/
def readUInt8 (buffer : List UInt8) (value : UInt8) : Option (List UInt8 × UInt8) :=
  (BasicBufferUtils.read (w := 1) id buffer value.toBitVec).map fun r => (r.1, ⟨r.2⟩)

/-- `buffer_utils<uint8_t>::write` and, on the same bits, `buffer_utils<char>::write`. -/
def writeUInt8 (buffer : List UInt8) (value : UInt8) : Option (List UInt8 × List UInt8) :=
  BasicBufferUtils.write (w := 1) id buffer value.toBitVec

/-- `basic_buffer_utils_array<T, S>::read` for `T` one of `char` and `uint8_t`. -/
def readArray : (S : ℕ) → List UInt8 → List.Vector UInt8 S →
    Option (List UInt8 × List.Vector UInt8 S)
  | 0, buffer, _ => some (buffer, .nil)
  | S + 1, buffer, value =>
      (readUInt8 buffer value.head).bind fun r =>
        (readArray S r.1 value.tail).map fun t => (t.1, r.2 ::ᵥ t.2)

/-- `basic_buffer_utils_array<T, S>::write` for `T` one of `char` and `uint8_t`. -/
def writeArray : (S : ℕ) → List UInt8 → List.Vector UInt8 S → Option (List UInt8 × List UInt8)
  | 0, buffer, _ => some ([], buffer)
  | S + 1, buffer, value =>
      (writeUInt8 buffer value.head).bind fun r =>
        (writeArray S r.2 value.tail).map fun t => (r.1 ++ t.1, t.2)

/-- A byte is read as it is, whatever the variable held. -/
@[simp]
theorem readUInt8_cons (b : UInt8) (bs : List UInt8) (value : UInt8) :
    readUInt8 (b :: bs) value = some (bs, b) := by
  simp [readUInt8, BasicBufferUtils.read]

/-- A byte is written as it is. -/
theorem writeUInt8_of_le {buffer : List UInt8} (value : UInt8) (h : 1 ≤ buffer.length) :
    writeUInt8 buffer value = some ([value], buffer.drop 1) := by
  obtain ⟨b, bs, rfl⟩ := List.exists_cons_of_length_pos h
  simp [writeUInt8, BasicBufferUtils.write, List.range_succ]

/-- An array is read byte by byte, whatever the variable held. -/
theorem readArray_append {S : ℕ} (v value : List.Vector UInt8 S) (rest : List UInt8) :
    readArray S (v.toList ++ rest) value = some (rest, v) := by
  induction S with
  | zero => rw [List.Vector.eq_nil v]; rfl
  | succ S ih =>
      rw [← List.Vector.cons_head_tail v, List.Vector.toList_cons, List.cons_append, readArray,
        readUInt8_cons, Option.bind_some, ih, Option.map_some]

/-- An array is written byte by byte over the front of a span that has room for it. -/
theorem writeArray_of_le {S : ℕ} (v : List.Vector UInt8 S) {buffer : List UInt8}
    (h : S ≤ buffer.length) : writeArray S buffer v = some (v.toList, buffer.drop S) := by
  induction S generalizing buffer with
  | zero => rw [List.Vector.eq_nil v]; rfl
  | succ S ih =>
      have hrest : S ≤ (buffer.drop 1).length := by rw [List.length_drop]; omega
      rw [writeArray, writeUInt8_of_le _ (by omega), Option.bind_some, ih v.tail hrest,
        Option.map_some, List.drop_drop, Nat.add_comm 1 S]
      conv_rhs => rw [← List.Vector.cons_head_tail v, List.Vector.toList_cons]
      rfl

end BufferUtils

end Messages
