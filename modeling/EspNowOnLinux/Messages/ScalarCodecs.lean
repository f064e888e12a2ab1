import EspNowOnLinux.Messages.Utility

/-!
# The field codecs, as the machine computes them

`buffer_utils<T>` for the scalar types and for arrays of them. Their loops shift and mask a variable
of type `T`, so what they compute goes through the integral promotions: a `char` or `uint8_t` is
widened to an `int`, a `char` with its sign where it has one, and the result is cut off again.

## Main results

* `BasicBufferUtils.read_eq` and `BasicBufferUtils.write_eq`: what the loops compute without the
  promotions, for any width;
* `read_eq_basic` and `write_eq_basic`: the promotions do not change it;
* `codecs_roundTrip`: what is written is read back, whatever the variable held before.
-/

open Bytes

namespace Messages

/-! ## The loops for any width -/

namespace BasicBufferUtils

variable {w : ℕ}

/-- A value of `w` bytes is below `256 ^ w`. -/
theorem toNat_lt_pow (v : BitVec (8 * w)) : v.toNat < 256 ^ w := by
  have h := v.isLt
  rwa [pow_mul] at h

/-- One byte of a read: the value so far is shifted up and the byte is put below it. -/
theorem shiftLeft_or (n : ℕ) (b : UInt8) :
    (BitVec.ofNat (8 * w) n <<< 8) ||| b.toBitVec.setWidth (8 * w) =
      BitVec.ofNat (8 * w) (256 * n + b.toNat) := by
  apply BitVec.eq_of_toNat_eq
  have hb : b.toNat < 2 ^ 8 := b.toNat_lt
  simp only [BitVec.toNat_or, BitVec.toNat_shiftLeft, BitVec.toNat_setWidth, BitVec.toNat_ofNat,
    UInt8.toNat_toBitVec]
  rw [← Nat.or_mod_two_pow, ← Nat.shiftLeft_add_eq_or_of_lt hb, Nat.shiftLeft_eq,
    show 256 * n + b.toNat = n * 2 ^ 8 + b.toNat by omega, Nat.add_mod, Nat.mod_mul_mod,
    ← Nat.add_mod]

/-- All bytes of a read. -/
theorem foldl_shiftLeft_or (bs : List UInt8) (n : ℕ) :
    bs.foldl (fun (v : BitVec (8 * w)) b => (v <<< 8) ||| b.toBitVec.setWidth (8 * w))
        (BitVec.ofNat (8 * w) n) =
      BitVec.ofNat (8 * w) (n * 256 ^ bs.length + ofBE bs) := by
  induction bs using List.reverseRecOn with
  | nil => simp [ofBE]
  | append_singleton bs b ih =>
      -- the last byte is put below the number that the others denote
      rw [List.foldl_append, ih, List.foldl_cons, List.foldl_nil, shiftLeft_or, ofBE_concat,
        List.length_append, List.length_singleton]
      congr 1
      ring

/-- A read gives the number that the bytes denote. What the variable held is shifted out. -/
theorem read_eq (ntoh : BitVec (8 * w) → BitVec (8 * w)) {buffer : List UInt8}
    (h : w ≤ buffer.length) (value : BitVec (8 * w)) :
    read ntoh buffer value =
      some (buffer.drop w, ntoh (BitVec.ofNat (8 * w) (ofBE (buffer.take w)))) := by
  have hlen : (buffer.take w).length = w := List.length_take_of_le h
  have hpow : 256 ^ w = 2 ^ (8 * w) := (pow_mul 2 8 w).symm
  have hfold := foldl_shiftLeft_or (w := w) (buffer.take w) value.toNat
  rw [BitVec.ofNat_toNat, BitVec.setWidth_eq, hlen, hpow] at hfold
  -- after `w` shifts by a byte the prior value is above the bits of the type
  have hlow : BitVec.ofNat (8 * w) (value.toNat * 2 ^ (8 * w) + ofBE (buffer.take w)) =
      BitVec.ofNat (8 * w) (ofBE (buffer.take w)) := by
    apply BitVec.eq_of_toNat_eq
    rw [BitVec.toNat_ofNat, BitVec.toNat_ofNat, Nat.mul_add_mod_self_right]
  rw [read, if_pos h, hfold, hlow]

/-- The first of the bytes is the most significant one. -/
theorem toBE_succ (k n : ℕ) : toBE (k + 1) n = UInt8.ofNat (n / 256 ^ k) :: toBE k n := by
  induction k generalizing n with
  | zero => simp [toBE]
  | succ k ih =>
      rw [toBE, ih, Nat.div_div_eq_div_mul, ← pow_succ']
      rfl

/-- The loop of a write after `k` bytes. -/
theorem write_loop {buffer : List UInt8} (h : w ≤ buffer.length) (x : BitVec (8 * w)) {k : ℕ}
    (hk : k ≤ w) :
    (List.range k).foldl (fun (s : List UInt8 × BitVec (8 * w)) i =>
        (s.1.set (w - 1 - i) ⟨s.2.setWidth 8⟩, s.2 >>> 8)) (buffer, x) =
      (buffer.take (w - k) ++ (toBE k x.toNat ++ buffer.drop w), x >>> (8 * k)) := by
  induction k with
  | zero => simp [toBE]
  | succ k ih =>
      rw [List.range_succ, List.foldl_append, ih (by omega), List.foldl_cons, List.foldl_nil]
      -- the byte in front of those that have been written is replaced
      have hlt : w - (k + 1) < buffer.length := by omega
      have htake : buffer.take (w - k) =
          buffer.take (w - (k + 1)) ++ [buffer[w - (k + 1)]] := by
        rw [show w - k = w - (k + 1) + 1 by omega, List.take_add_one,
          List.getElem?_eq_getElem hlt]
        rfl
      have hlen : (buffer.take (w - (k + 1))).length = w - 1 - k := by
        rw [List.length_take]; omega
      have hbyte : (⟨(x >>> (8 * k)).setWidth 8⟩ : UInt8) = UInt8.ofNat (x.toNat / 256 ^ k) := by
        apply UInt8.toNat.inj
        rw [UInt8.toNat_ofNat']
        show ((x >>> (8 * k)).setWidth 8).toNat = _
        rw [BitVec.toNat_setWidth, BitVec.toNat_ushiftRight, Nat.shiftRight_eq_div_pow, pow_mul,
          show 2 ^ 8 = 256 by rfl]
      have hset : (buffer.take (w - k) ++ (toBE k x.toNat ++ buffer.drop w)).set (w - 1 - k)
          ⟨(x >>> (8 * k)).setWidth 8⟩ =
            buffer.take (w - (k + 1)) ++ (toBE (k + 1) x.toNat ++ buffer.drop w) := by
        rw [htake, List.append_assoc, ← hlen, List.set_append_right _ _ le_rfl, Nat.sub_self,
          hbyte, toBE_succ]
        rfl
      rw [hset, ← BitVec.shiftRight_add, Nat.mul_succ]

/-- A write puts the bytes of the converted value at the front, most significant first, and leaves
those behind them alone. -/
theorem write_eq (hton : BitVec (8 * w) → BitVec (8 * w)) {buffer : List UInt8}
    (h : w ≤ buffer.length) (value : BitVec (8 * w)) :
    write hton buffer value = some (toBE w (hton value).toNat, buffer.drop w) := by
  rw [write, if_pos h]
  simp only [write_loop h (hton value) le_rfl, Nat.sub_self, List.take_zero, List.nil_append]
  rw [List.take_left' (length_toBE w _), List.drop_left' (length_toBE w _)]

end BasicBufferUtils

/-! ## The types -/

/-- What the codecs take from the machine and its compiler. -/
structure Machine where
  order : ByteOrder
  /-- `char` is a signed type. -/
  charSigned : Bool

/-- The scalar types that have a codec. -/
inductive Scalar
  | char
  | uint8
  | uint16
  | uint32
  deriving DecidableEq

namespace Scalar

/-- `sizeof(T)`. -/
def size : Scalar → ℕ
  | char => 1
  | uint8 => 1
  | uint16 => 2
  | uint32 => 4

/-- A value of the type, by its bits. -/
abbrev Value (T : Scalar) := BitVec (8 * T.size)

variable (m : Machine)

/-- Whether the promotion of a value extends its sign. -/
def signed : Scalar → Bool
  | char => m.charSigned
  | _ => false

variable (T : Scalar)

/-- The promotion of a value: to `int`, or from `uint32_t` to `unsigned int`. -/
def promote (v : T.Value) : BitVec 32 :=
  if T.signed m then v.signExtend 32 else v.setWidth 32

/-- The conversion of what was computed back to the type. -/
def convert (v : BitVec 32) : T.Value := v.setWidth (8 * T.size)

/-- `v >> 8` for a promoted value, which keeps the sign of an `int`. -/
def shiftRight (v : BitVec 32) : BitVec 32 :=
  if T = uint32 then v >>> 8 else v.sshiftRight 8

/-- `htons` and `htonl`, on the bits of a value of `w` bytes. -/
def hton (w : ℕ) (v : BitVec (8 * w)) : BitVec (8 * w) :=
  BitVec.ofNat (8 * w) (m.order.hton w v.toNat)

/-- `ntohs` and `ntohl`. -/
def ntoh (w : ℕ) (v : BitVec (8 * w)) : BitVec (8 * w) :=
  BitVec.ofNat (8 * w) (m.order.ntoh w v.toNat)

/-- `host_to_network` for the type. -/
def hostToNetwork : (T : Scalar) → T.Value → T.Value
  | char, v => v
  | uint8, v => v
  | uint16, v => hton m 2 v
  | uint32, v => hton m 4 v

/-- `network_to_host` for the type. -/
def networkToHost : (T : Scalar) → T.Value → T.Value
  | char, v => v
  | uint8, v => v
  | uint16, v => ntoh m 2 v
  | uint32, v => ntoh m 4 v

theorem toNat_hton (w : ℕ) (v : BitVec (8 * w)) : (hton m w v).toNat = m.order.hton w v.toNat := by
  have hlt := m.order.hton_lt w v.toNat
  rw [hton, BitVec.toNat_ofNat, Nat.mod_eq_of_lt (by rwa [pow_mul])]

theorem ntoh_hton (w : ℕ) (v : BitVec (8 * w)) : ntoh m w (hton m w v) = v := by
  have hlt : v.toNat < 256 ^ w := BasicBufferUtils.toNat_lt_pow v
  rw [ntoh, toNat_hton, ByteOrder.ntoh, ByteOrder.store_hton, ofBE_toBE_of_lt hlt,
    BitVec.ofNat_toNat, BitVec.setWidth_eq]

/-- Converting to network order and back gives the value. -/
theorem networkToHost_hostToNetwork (v : T.Value) :
    networkToHost m T (hostToNetwork m T v) = v := by
  cases T with
  | char => rfl
  | uint8 => rfl
  | uint16 => exact ntoh_hton m 2 v
  | uint32 => exact ntoh_hton m 4 v

end Scalar

/-! ## Scalars -/

namespace BufferUtils

variable (m : Machine) (T : Scalar)

/-- `buffer_utils<T>::read`, where `value` is what the output variable held: the remaining span and
the value. -/
def read (buffer : List UInt8) (value : T.Value) : Option (List UInt8 × T.Value) :=
  if T.size ≤ buffer.length then
    let value := (buffer.take T.size).foldl (fun value b =>
      -- each of the two assignments computes with a promoted value and cuts the result off
      let value := T.convert (T.promote m value <<< 8)
      T.convert (T.promote m value ||| b.toBitVec.setWidth 32)) value
    some (buffer.drop T.size, T.networkToHost m value)
  else none

/-- `buffer_utils<T>::write`: the bytes of the field and the remaining span. -/
def write (buffer : List UInt8) (value : T.Value) : Option (List UInt8 × List UInt8) :=
  if T.size ≤ buffer.length then
    let after := (List.range T.size).foldl (fun (s : List UInt8 × T.Value) i =>
      -- the lowest byte goes to the end of the field
      (s.1.set (T.size - 1 - i) ⟨(T.promote m s.2 &&& 0xFF).setWidth 8⟩,
        T.convert (T.shiftRight (T.promote m s.2)))) (buffer, T.hostToNetwork m value)
    some (after.1.take T.size, after.1.drop T.size)
  else none

/-! ### The promotions -/

/-- Cutting off what a promotion has added gives the value. -/
theorem convert_promote (v : T.Value) : T.convert (T.promote m v) = v := by
  have hsize : 8 * T.size ≤ 32 := by cases T <;> decide
  apply BitVec.eq_of_getLsbD_eq
  intro i hi
  rw [Scalar.convert, Scalar.promote]
  split
  · simp only [BitVec.getLsbD_setWidth, BitVec.getLsbD_signExtend, hi, hi.trans_le hsize,
      decide_true, Bool.true_and, if_true]
  · simp only [BitVec.getLsbD_setWidth, hi, hi.trans_le hsize, decide_true, Bool.true_and]

theorem convert_shiftLeft (v : BitVec 32) : T.convert (v <<< 8) = T.convert v <<< 8 := by
  have hsize : 8 * T.size ≤ 32 := by cases T <;> decide
  apply BitVec.eq_of_getLsbD_eq
  intro i hi
  have hlow : i - 8 < 8 * T.size := (Nat.sub_le i 8).trans_lt hi
  simp only [Scalar.convert, BitVec.getLsbD_setWidth, BitVec.getLsbD_shiftLeft, hi, hlow,
    hi.trans_le hsize, decide_true, Bool.true_and]

theorem convert_or (v w : BitVec 32) : T.convert (v ||| w) = T.convert v ||| T.convert w :=
  BitVec.setWidth_or

theorem convert_byte (b : UInt8) :
    T.convert (b.toBitVec.setWidth 32) = b.toBitVec.setWidth (8 * T.size) := by
  have hsize : 8 * T.size ≤ 32 := by cases T <;> decide
  exact BitVec.setWidth_setWidth_of_le _ hsize

/-- The low byte of a promoted value is that of the value. -/
theorem lowByte_promote (v : T.Value) :
    (T.promote m v &&& 0xFF).setWidth 8 = v.setWidth 8 := by
  have hsize : 8 ≤ 8 * T.size := by cases T <;> decide
  apply BitVec.eq_of_getLsbD_eq
  intro i hi
  have hmask : (0xFF : BitVec 32).getLsbD i = true :=
    (by decide : ∀ i < 8, (0xFF : BitVec 32).getLsbD i = true) i hi
  have hlow : i < 8 * T.size := hi.trans_le hsize
  have hint : i < 32 := by omega
  rw [Scalar.promote, BitVec.getLsbD_setWidth, BitVec.getLsbD_setWidth, BitVec.getLsbD_and, hmask,
    Bool.and_true]
  split
  · simp only [BitVec.getLsbD_signExtend, hlow, hint, decide_true, Bool.true_and, if_true]
  · simp only [BitVec.getLsbD_setWidth, hint, decide_true, Bool.true_and]

/-- Shifting a promoted value that has no sign shifts the value. -/
theorem convert_shiftRight (hsigned : T.signed m = false) (v : T.Value) :
    T.convert (T.shiftRight (T.promote m v)) = v >>> 8 := by
  have hsize : 8 * T.size ≤ 32 := by cases T <;> decide
  have hlogical : T.shiftRight (T.promote m v) = v.setWidth 32 >>> 8 := by
    rw [Scalar.promote, hsigned, if_neg Bool.false_ne_true, Scalar.shiftRight]
    split
    · rfl
    · next hne =>
      -- the sign is shifted in, but an `int` that was a narrow unsigned value is not negative
      have hnarrow : 8 * T.size < 32 := by
        cases T with
        | uint32 => exact absurd rfl hne
        | _ => decide
      apply BitVec.sshiftRight_eq_of_msb_false
      rw [BitVec.msb_eq_getLsbD_last, BitVec.getLsbD_setWidth,
        BitVec.getLsbD_of_ge v (32 - 1) (by omega), Bool.and_false]
  rw [hlogical, Scalar.convert]
  apply BitVec.eq_of_getLsbD_eq
  intro i hi
  simp only [BitVec.getLsbD_setWidth, BitVec.getLsbD_ushiftRight, hi, decide_true, Bool.true_and]
  by_cases hint : 8 + i < 32
  · simp only [hint, decide_true, Bool.true_and]
  · rw [decide_eq_false hint, Bool.false_and, BitVec.getLsbD_of_ge _ _ (by omega)]

variable {m T}

/-- The promotions do not change what is read. -/
theorem read_eq_basic (buffer : List UInt8) (value : T.Value) :
    read m T buffer value = BasicBufferUtils.read (T.networkToHost m) buffer value := by
  have hstep : (fun (value : T.Value) (b : UInt8) =>
      T.convert (T.promote m (T.convert (T.promote m value <<< 8)) ||| b.toBitVec.setWidth 32)) =
        fun (value : T.Value) (b : UInt8) =>
          (value <<< 8) ||| b.toBitVec.setWidth (8 * T.size) := by
    funext value b
    rw [convert_or, convert_promote, convert_shiftLeft, convert_promote, convert_byte]
  simp only [read, BasicBufferUtils.read, hstep]

/-- Nor what is written. The sign of a `char` is shifted in only when its byte has been stored. -/
theorem write_eq_basic (buffer : List UInt8) (value : T.Value) :
    write m T buffer value = BasicBufferUtils.write (T.hostToNetwork m) buffer value := by
  by_cases hsigned : T.signed m = false
  · simp only [write, BasicBufferUtils.write, lowByte_promote, convert_shiftRight m T hsigned]
  · cases T with
    -- the loop runs once, and what it leaves in the variable is not used
    | char =>
        simp only [write, BasicBufferUtils.write, lowByte_promote]
        rfl
    | uint8 => exact absurd rfl hsigned
    | uint16 => exact absurd rfl hsigned
    | uint32 => exact absurd rfl hsigned

/-- A `char` is read as a `uint8_t` is, on the same bits. -/
theorem read_char (buffer : List UInt8) (value : UInt8) :
    (read m .char buffer value.toBitVec).map (fun r => (r.1, (⟨r.2⟩ : UInt8))) =
      readUInt8 buffer value :=
  congrArg (Option.map fun r => (r.1, (⟨r.2⟩ : UInt8)))
    (read_eq_basic (m := m) (T := .char) buffer value.toBitVec)

theorem write_char (buffer : List UInt8) (value : UInt8) :
    write m .char buffer value.toBitVec = writeUInt8 buffer value :=
  write_eq_basic (m := m) (T := .char) buffer value.toBitVec

/-! ### What is read and written -/

/-- A read gives the converted number that the bytes denote. -/
theorem read_of_le {buffer : List UInt8} (h : T.size ≤ buffer.length) (value : T.Value) :
    read m T buffer value = some (buffer.drop T.size,
      T.networkToHost m (BitVec.ofNat (8 * T.size) (ofBE (buffer.take T.size)))) := by
  rw [read_eq_basic, BasicBufferUtils.read_eq _ h]

/-- A write gives the bytes of the converted value. -/
theorem write_of_le {buffer : List UInt8} (h : T.size ≤ buffer.length) (value : T.Value) :
    write m T buffer value =
      some (toBE T.size (T.hostToNetwork m value).toNat, buffer.drop T.size) := by
  rw [write_eq_basic, BasicBufferUtils.write_eq _ h]

/-- Reading the bytes of a converted value. -/
theorem read_toBE (value prior : T.Value) (rest : List UInt8) :
    read m T (toBE T.size (T.hostToNetwork m value).toNat ++ rest) prior = some (rest, value) := by
  have hlen := length_toBE T.size (T.hostToNetwork m value).toNat
  have hlt : (T.hostToNetwork m value).toNat < 256 ^ T.size :=
    BasicBufferUtils.toNat_lt_pow (T.hostToNetwork m value)
  rw [read_of_le (by rw [List.length_append, hlen]; exact Nat.le_add_right _ _),
    List.take_left' hlen, List.drop_left' hlen, ofBE_toBE_of_lt hlt, BitVec.ofNat_toNat,
    BitVec.setWidth_eq, Scalar.networkToHost_hostToNetwork]

/-! ## Arrays -/

variable (m T)

/-- The loop of `basic_buffer_utils_array<T, S>::read`. -/
def readElements : (S : ℕ) → List UInt8 → List.Vector T.Value S →
    Option (List UInt8 × List.Vector T.Value S)
  | 0, buffer, _ => some (buffer, .nil)
  | S + 1, buffer, value =>
      (read m T buffer value.head).bind fun r =>
        (readElements S r.1 value.tail).map fun t => (t.1, r.2 ::ᵥ t.2)

/-- `basic_buffer_utils_array<T, S>::read`, where `value` is what the array held. -/
def readArrayOf (S : ℕ) (buffer : List UInt8) (value : List.Vector T.Value S) :
    Option (List UInt8 × List.Vector T.Value S) :=
  if S * T.size ≤ buffer.length then readElements m T S buffer value else none

/-- The loop of `basic_buffer_utils_array<T, S>::write`. -/
def writeElements : (S : ℕ) → List UInt8 → List.Vector T.Value S →
    Option (List UInt8 × List UInt8)
  | 0, buffer, _ => some ([], buffer)
  | S + 1, buffer, value =>
      (write m T buffer value.head).bind fun r =>
        (writeElements S r.2 value.tail).map fun t => (r.1 ++ t.1, t.2)

/-- `basic_buffer_utils_array<T, S>::write`: the bytes of the field and the remaining span. -/
def writeArrayOf (S : ℕ) (buffer : List UInt8) (value : List.Vector T.Value S) :
    Option (List UInt8 × List UInt8) :=
  if S * T.size ≤ buffer.length then writeElements m T S buffer value else none

variable {m T}

/-- The elements are written one behind the other, and read back from there. -/
theorem exists_writeElements {S : ℕ} (value : List.Vector T.Value S) {buffer : List UInt8}
    (h : S * T.size ≤ buffer.length) :
    ∃ field, writeElements m T S buffer value = some (field, buffer.drop (S * T.size)) ∧
      field.length = S * T.size ∧
      ∀ prior rest, readElements m T S (field ++ rest) prior = some (rest, value) := by
  induction S generalizing buffer with
  | zero =>
      refine ⟨[], ?_, by simp, fun prior rest => ?_⟩
      · rw [Nat.zero_mul, List.drop_zero]
        rfl
      · rw [List.Vector.eq_nil value]
        rfl
  | succ S ih =>
      rw [Nat.succ_mul] at h ⊢
      have hhead : T.size ≤ buffer.length := by omega
      have htail : S * T.size ≤ (buffer.drop T.size).length := by rw [List.length_drop]; omega
      obtain ⟨field, hwrite, hlen, hread⟩ := ih value.tail htail
      -- the first element is in front of the field of the others, in both directions
      refine ⟨toBE T.size (T.hostToNetwork m value.head).toNat ++ field, ?_, ?_,
        fun prior rest => ?_⟩
      · rw [writeElements, write_of_le hhead, Option.bind_some, hwrite, Option.map_some,
          List.drop_drop, Nat.add_comm T.size]
      · rw [List.length_append, length_toBE, hlen, Nat.add_comm]
      · rw [readElements, List.append_assoc, read_toBE, Option.bind_some, hread, Option.map_some,
          List.Vector.cons_head_tail]

/-- For every type, on every machine: a value that is written to a buffer with enough room fills
just its field, and is read back from it without a trace of what the variable held, and the same is
true of arrays. -/
theorem codecs_roundTrip (m : Machine) (T : Scalar) :
    (∀ (value prior : T.Value) (buffer : List UInt8), T.size ≤ buffer.length →
      ∃ field, write m T buffer value = some (field, buffer.drop T.size) ∧
        field.length = T.size ∧
        read m T (field ++ buffer.drop T.size) prior = some (buffer.drop T.size, value)) ∧
    ∀ (S : ℕ) (value prior : List.Vector T.Value S) (buffer : List UInt8),
      S * T.size ≤ buffer.length →
      ∃ field, writeArrayOf m T S buffer value = some (field, buffer.drop (S * T.size)) ∧
        field.length = S * T.size ∧
        readArrayOf m T S (field ++ buffer.drop (S * T.size)) prior =
          some (buffer.drop (S * T.size), value) := by
  constructor
  · intro value prior buffer h
    exact ⟨_, write_of_le h value, length_toBE _ _, read_toBE value prior _⟩
  · intro S value prior buffer h
    obtain ⟨field, hwrite, hlen, hread⟩ := exists_writeElements (m := m) value h
    refine ⟨field, ?_, hlen, ?_⟩
    · rw [writeArrayOf, if_pos h, hwrite]
    · rw [readArrayOf, if_pos (by rw [List.length_append, hlen]; exact Nat.le_add_right _ _), hread]

/-- A `uint16_t` and an array of signed characters, over variables that hold other bits. -/
theorem codecs_roundTrip_little :
    let m : Machine := ⟨.little, true⟩
    (∃ field, write m .uint16 [1, 2, 3] 0xABCD = some (field, [3]) ∧ field.length = 2 ∧
      read m .uint16 (field ++ [3]) 0xFFFF = some ([3], 0xABCD)) ∧
    ∃ field, writeArrayOf m .char 2 [1, 2, 3] ⟨[0x80, 0x7F], rfl⟩ = some (field, [3]) ∧
      field.length = 2 ∧
      readArrayOf m .char 2 (field ++ [3]) ⟨[0xFF, 0xFF], rfl⟩ =
        some ([3], ⟨[0x80, 0x7F], rfl⟩) := by
  intro m
  exact ⟨(codecs_roundTrip m .uint16).1 _ 0xFFFF [1, 2, 3] (by decide),
    (codecs_roundTrip m .char).2 2 _ ⟨[0xFF, 0xFF], rfl⟩ [1, 2, 3] (by decide)⟩

end BufferUtils

end Messages
