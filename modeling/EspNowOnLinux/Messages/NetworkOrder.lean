import EspNowOnLinux.Messages.PacketCodecs
import EspNowOnLinux.Messages.ScalarCodecs

/-!
# The order of the bytes on the wire

The packets and the field codecs send integers in different ways. A packet converts its length to
network order and copies the word as it lies in memory, which puts the most significant byte first
on every machine. `buffer_utils<T>::write` converts the value as well, but then takes it apart from
its most significant byte down. On a machine that stores the least significant byte first the two
steps undo each other: what it sends is the object representation of the value (`write_eq_store`),
as if nothing had been converted, and what it reads is loaded in the same way (`read_eq_load`).

## Main results

* `mostSignificantFirst_iff` and `equalsLengthField_iff`: the codecs agree with network order, and
  with the length of a packet, on machines that store the most significant byte first and for values
  whose bytes are the same in both directions;
* `portable_iff`: only the latter pass between machines of different byte orders;
* `inNetworkOrder_iff`: all of it.
-/

open Bytes

namespace Messages

namespace BufferUtils

variable {m : Machine} {T : Scalar}

/-! ## The object representation -/

/-- Taken apart from its most significant byte down, a converted value gives its object
representation. -/
theorem toBE_hostToNetwork (value : T.Value) :
    toBE T.size (T.hostToNetwork m value).toNat = m.order.store T.size value.toNat := by
  -- a single byte is stored the same way on every machine
  have hbyte (n : ℕ) : m.order.store 1 n = toBE 1 n := by
    cases m.order <;> rfl
  have hword (w : ℕ) (v : BitVec (8 * w)) :
      toBE w (Scalar.hton m w v).toNat = m.order.store w v.toNat := by
    rw [Scalar.toNat_hton, ByteOrder.toBE_hton]
  cases T with
  | char => exact (hbyte _).symm
  | uint8 => exact (hbyte _).symm
  | uint16 => exact hword 2 value
  | uint32 => exact hword 4 value

/-- `buffer_utils<T>::write` copies the object representation of the value. -/
theorem write_eq_store {buffer : List UInt8} (h : T.size ≤ buffer.length) (value : T.Value) :
    write m T buffer value =
      some (m.order.store T.size value.toNat, buffer.drop T.size) := by
  rw [write_of_le h, toBE_hostToNetwork]

/-- The value that `network_to_host` gives for the number that the bytes denote. -/
theorem networkToHost_ofBE {bs : List UInt8} (h : bs.length = T.size) :
    T.networkToHost m (BitVec.ofNat (8 * T.size) (ofBE bs)) =
      BitVec.ofNat (8 * T.size) (m.order.load bs) := by
  have hlt : ofBE bs < 2 ^ (8 * bs.length) := by
    rw [pow_mul]
    exact ofBE_lt bs
  have hload : m.order.ntoh bs.length (BitVec.ofNat (8 * bs.length) (ofBE bs)).toNat =
      m.order.load bs := by
    rw [BitVec.toNat_ofNat, Nat.mod_eq_of_lt hlt, ByteOrder.ntoh_ofBE]
  -- for one byte there is no conversion
  have hbyte (hone : bs.length = 1) : ofBE bs = m.order.load bs := by
    obtain ⟨b, rfl⟩ := List.length_eq_one_iff.mp hone
    cases m.order <;> rfl
  cases T with
  | char => exact congrArg (BitVec.ofNat 8) (hbyte h)
  | uint8 => exact congrArg (BitVec.ofNat 8) (hbyte h)
  | uint16 =>
      rw [h] at hload
      exact congrArg (BitVec.ofNat 16) hload
  | uint32 =>
      rw [h] at hload
      exact congrArg (BitVec.ofNat 32) hload

/-- `buffer_utils<T>::read` loads the value from its object representation. -/
theorem read_eq_load {buffer : List UInt8} (h : T.size ≤ buffer.length) (prior : T.Value) :
    read m T buffer prior = some (buffer.drop T.size,
      BitVec.ofNat (8 * T.size) (m.order.load (buffer.take T.size))) := by
  rw [read_of_le h, networkToHost_ofBE (List.length_take_of_le h)]

/-! ## Network order -/

variable (m T)

/-- The value is written most significant byte first. -/
def MostSignificantFirst (value : T.Value) : Prop :=
  ∀ buffer : List UInt8, T.size ≤ buffer.length →
    write m T buffer value = some (toBE T.size value.toNat, buffer.drop T.size)

/-- The bytes that are written are those at which either format of a packet has the length of its
payload, for every packet that is as long as the value says. -/
def EqualsLengthField (value : T.Value) : Prop :=
  ∀ (o : ByteOrder) (buffer : List UInt8), T.size ≤ buffer.length →
    (∀ packet : PacketToSend, (UInt32.ofNat packet.data.length).toNat = value.toNat →
      (write m T buffer value).map Prod.fst = some (((packet.serialize o).drop 7).take 4)) ∧
    ∀ packet : ReceivedPacket, (UInt32.ofNat packet.data.length).toNat = value.toNat →
      (write m T buffer value).map Prod.fst = some (((packet.serialize o).drop 7).take 4)

/-- What is written is read back by the machines of the other byte order. -/
def Portable (value : T.Value) : Prop :=
  ∀ m' : Machine, m'.order ≠ m.order → ∀ (buffer : List UInt8) (prior : T.Value),
    T.size ≤ buffer.length →
    ((write m T buffer value).bind fun w => read m' T (w.1 ++ w.2) prior) =
      some (buffer.drop T.size, value)

/-- The value travels in network order. -/
structure InNetworkOrder (value : T.Value) : Prop where
  mostSignificantFirst : MostSignificantFirst m T value
  equalsLengthField : T = .uint32 → EqualsLengthField m T value
  portable : Portable m T value

variable {m T}

theorem mostSignificantFirst_iff {value : T.Value} :
    MostSignificantFirst m T value ↔
      m.order = .big ∨ (toBE T.size value.toNat).reverse = toBE T.size value.toNat := by
  rw [← ByteOrder.store_eq_toBE_iff]
  constructor
  · intro h
    have hroom : T.size ≤ (List.replicate T.size (0 : UInt8)).length := by
      rw [List.length_replicate]
    have hwrite := h _ hroom
    rw [write_eq_store hroom] at hwrite
    exact congrArg Prod.fst (Option.some.inj hwrite)
  · intro h buffer hroom
    rw [write_eq_store hroom, h]

/-- The bytes behind the id and the MAC address. -/
theorem take_four_drop_seven (id : MessageId) (mac : MacAddress) (data : List UInt8) :
    ((packetBytes id mac (lengthField data) data).drop 7).take 4 = lengthField data := by
  have hmac : ([id] ++ mac.toList).length = 7 := by
    rw [List.length_append, List.length_singleton, mac.toList_length]
  rw [packetBytes, List.append_assoc, List.drop_left' hmac,
    List.take_left' (length_lengthField data)]

/-- Both formats have the length most significant byte first, so the field equals it iff it is in
that order too. -/
theorem equalsLengthField_iff {value : Scalar.uint32.Value} :
    EqualsLengthField m .uint32 value ↔
      m.order = .big ∨ (toBE 4 value.toNat).reverse = toBE 4 value.toNat := by
  rw [← ByteOrder.store_eq_toBE_iff]
  constructor
  · intro h
    -- a packet that is as long as the value says
    have hlt : value.toNat < 2 ^ 32 := value.isLt
    let packet : PacketToSend :=
      { destinationMac := .replicate 6 0, data := List.replicate value.toNat 0 }
    have hlength : (UInt32.ofNat packet.data.length).toNat = value.toNat := by
      rw [List.length_replicate, UInt32.toNat_ofNat_of_lt' hlt]
    have hwrite := (h .big [0, 0, 0, 0] (by decide)).1 packet hlength
    rw [write_eq_store (by decide), PacketToSend.serialize_eq, take_four_drop_seven, lengthField,
      hlength] at hwrite
    exact Option.some.inj hwrite
  · intro h o buffer hroom
    rw [write_eq_store hroom]
    refine ⟨fun packet hlength => ?_, fun packet hlength => ?_⟩
    · rw [PacketToSend.serialize_eq, take_four_drop_seven, lengthField, hlength, ← h]
      rfl
    · rw [ReceivedPacket.serialize_eq, take_four_drop_seven, lengthField, hlength, ← h]
      rfl

/-- What a machine reads from the field that another one has written. -/
theorem write_bind_read (m' : Machine) {buffer : List UInt8} (h : T.size ≤ buffer.length)
    (value prior : T.Value) :
    ((write m T buffer value).bind fun w => read m' T (w.1 ++ w.2) prior) =
      some (buffer.drop T.size,
        BitVec.ofNat (8 * T.size) (m'.order.load (m.order.store T.size value.toNat))) := by
  have hlen := m.order.length_store T.size value.toNat
  rw [write_eq_store h, Option.bind_some,
    read_eq_load (by rw [List.length_append, hlen]; exact Nat.le_add_right _ _),
    List.take_left' hlen, List.drop_left' hlen]

theorem portable_iff {value : T.Value} :
    Portable m T value ↔ (toBE T.size value.toNat).reverse = toBE T.size value.toNat := by
  have hvalue : value.toNat < 256 ^ T.size := BasicBufferUtils.toNat_lt_pow value
  constructor
  · intro h
    obtain ⟨o, ho⟩ : ∃ o, o ≠ m.order := by
      cases m.order with
      | little => exact ⟨.big, by decide⟩
      | big => exact ⟨.little, by decide⟩
    have hroom : T.size ≤ (List.replicate T.size (0 : UInt8)).length := by
      rw [List.length_replicate]
    have hread := h ⟨o, m.charSigned⟩ ho _ value hroom
    rw [write_bind_read _ hroom] at hread
    -- as numbers: what the other machine loads fits in the type, so nothing is cut off
    have heq := congrArg (fun r => r.2.toNat) (Option.some.inj hread)
    have hlt := o.load_lt (m.order.store T.size value.toNat)
    rw [ByteOrder.length_store] at hlt
    simp only [BitVec.toNat_ofNat] at heq
    rw [Nat.mod_eq_of_lt (by rwa [pow_mul])] at heq
    exact (ByteOrder.load_store_eq_iff_of_ne ho hvalue).mp heq
  · intro h m' ho buffer prior hroom
    rw [write_bind_read m' hroom,
      (ByteOrder.load_store_eq_iff_of_ne ho hvalue).mpr h, BitVec.ofNat_toNat,
      BitVec.setWidth_eq]

/-- For every value, on every machine: it travels in network order iff its bytes are the same in
both directions. -/
theorem inNetworkOrder_iff (m : Machine) (T : Scalar) (value : T.Value) :
    InNetworkOrder m T value ↔
      (toBE T.size value.toNat).reverse = toBE T.size value.toNat := by
  constructor
  · intro h
    exact portable_iff.mp h.portable
  · intro h
    refine ⟨mostSignificantFirst_iff.mpr (.inr h), fun hT => ?_, portable_iff.mpr h⟩
    subst hT
    exact equalsLengthField_iff.mpr (.inr h)

/-- The number one on a machine that stores the least significant byte first. The length of a packet
with a payload of one byte is sent as `00 00 00 01`, the field as `01 00 00 00`, which the other
machines read as `0x01000000`. -/
theorem inNetworkOrder_fails :
    let little : Machine := ⟨.little, true⟩
    let big : Machine := ⟨.big, true⟩
    let packet : PacketToSend := { destinationMac := .replicate 6 0, data := [0] }
    write little .uint32 [0, 0, 0, 0] 1 = some ([1, 0, 0, 0], []) ∧
      ((packet.serialize .little).drop 7).take 4 = [0, 0, 0, 1] ∧
      read big .uint32 [1, 0, 0, 0] 0 = some ([], 0x01000000) ∧
      write little .uint16 [0, 0] 0xABCD = some ([0xCD, 0xAB], []) ∧
      ¬ InNetworkOrder little .uint32 1 ∧ ¬ InNetworkOrder little .uint16 0xABCD := by
  intro little big packet
  have hword : write little .uint32 [0, 0, 0, 0] 1 = some ([1, 0, 0, 0], []) := by decide
  have hhalf : write little .uint16 [0, 0] 0xABCD = some ([0xCD, 0xAB], []) := by decide
  refine ⟨hword, by decide, by decide, hhalf, fun h => ?_, fun h => ?_⟩
  · exact absurd (hword.symm.trans (h.mostSignificantFirst _ (by decide))) (by decide)
  · exact absurd (hhalf.symm.trans (h.mostSignificantFirst _ (by decide))) (by decide)

end BufferUtils

end Messages
