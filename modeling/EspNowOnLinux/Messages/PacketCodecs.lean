import EspNowOnLinux.Messages.Packets

/-!
# The packet codecs as inverses

`io<packet_to_send>` and `io<received_packet>` in both directions: decoding what was encoded,
whatever bytes follow it, and encoding what was decoded from any bytes that start with a complete
packet. The machine that encodes and the one that decodes may differ in byte order.

## Main results

* `exists_packetBytes`: bytes that declare no more than they hold start with a packet;
* `ReceivedPacket.deserialize_append`: what `io<received_packet>::deserialize` makes of a packet and
  of what follows it;
* `codecs_inverse_iff`: `io<packet_to_send>` is an inverse pair on every input, and
  `io<received_packet>` iff the number of bytes behind the header, taken modulo `2 ^ 32` as its cast
  to `uint32_t` does, is not below the length of the payload.
-/

open Bytes

namespace Messages

/-- The payload length that a packet declares, behind its id and its MAC address. -/
def declaredLength (bytes : List UInt8) : ℕ := ofBE ((bytes.drop 7).take 4)

/-- The bytes start with this id, and the length that they declare is no larger than what they hold
behind the header. -/
structure Declares (id : MessageId) (bytes : List UInt8) : Prop where
  head?_eq : bytes.head? = some id
  length_le : 11 + declaredLength bytes ≤ bytes.length

instance (id : MessageId) (bytes : List UInt8) : Decidable (Declares id bytes) :=
  decidable_of_iff (bytes.head? = some id ∧ 11 + declaredLength bytes ≤ bytes.length)
    ⟨fun h => ⟨h.1, h.2⟩, fun h => ⟨h.1, h.2⟩⟩

/-- The declared length is behind the header. -/
theorem declaredLength_take {bytes : List UInt8} {n : ℕ} (h : 11 ≤ n) :
    declaredLength (bytes.take n) = declaredLength bytes := by
  rw [declaredLength, declaredLength, List.drop_take, List.take_take, Nat.min_eq_left (by omega)]

theorem declaredLength_packetBytes {id : MessageId} {mac : MacAddress} {data rest : List UInt8}
    (h : data.length < 2 ^ 32) :
    declaredLength (packetBytes id mac (lengthField data) data ++ rest) = data.length := by
  have hbytes : packetBytes id mac (lengthField data) data ++ rest =
      id :: (mac.toList ++ (lengthField data ++ (data ++ rest))) := by simp [packetBytes]
  rw [hbytes, declaredLength, List.drop_succ_cons, take_four_drop_six, ofBE_lengthField h]

/-- A packet declares its length with its own bytes. -/
theorem Declares.take {id : MessageId} {bytes : List UInt8} (h : Declares id bytes) :
    Declares id (bytes.take (11 + declaredLength bytes)) := by
  have hle := h.length_le
  refine ⟨?_, ?_⟩
  · rw [List.head?_take, if_neg (by omega), h.head?_eq]
  · rw [declaredLength_take (Nat.le_add_right 11 _), List.length_take]
    omega

/-- Bytes that a packet is at the front of a part of start with that packet. -/
theorem Declares.of_take {id : MessageId} {bytes : List UInt8} {n : ℕ}
    (h : Declares id (bytes.take n)) : Declares id bytes := by
  obtain ⟨hhead, hle⟩ := h
  have hn : (bytes.take n).length = min n bytes.length := List.length_take
  rw [declaredLength_take (by omega)] at hle
  refine ⟨?_, by omega⟩
  rwa [List.head?_take, if_neg (by omega)] at hhead

/-- Bytes that declare no more than they hold are a packet that other bytes follow. -/
theorem exists_packetBytes {id : MessageId} {bytes : List UInt8} (h : Declares id bytes) :
    ∃ (mac : MacAddress) (data rest : List UInt8), data.length = declaredLength bytes ∧
      data.length < 2 ^ 32 ∧ bytes = packetBytes id mac (lengthField data) data ++ rest := by
  obtain ⟨hhead, hle⟩ := h
  obtain ⟨tail, rfl⟩ := List.head?_eq_some_iff.mp hhead
  simp only [List.length_cons] at hle
  have hfield : ((tail.drop 6).take 4).length = 4 := by
    rw [List.length_take, List.length_drop]; omega
  have hlt : declaredLength (id :: tail) < 2 ^ 32 := by
    have hbe := ofBE_lt ((tail.drop 6).take 4)
    rwa [hfield] at hbe
  -- the payload, and what the bytes hold behind it
  obtain ⟨data, rest, hdata, hsplit⟩ : ∃ data rest, data.length = declaredLength (id :: tail) ∧
      tail.drop 10 = data ++ rest :=
    ⟨(tail.drop 10).take (declaredLength (id :: tail)), _,
      by rw [List.length_take, List.length_drop]; omega, (List.take_append_drop _ _).symm⟩
  -- the length field of the payload is what the bytes hold there
  have hlength : lengthField data = (tail.drop 6).take 4 := lengthField_of_ofBE hfield hdata
  refine ⟨⟨tail.take 6, by rw [List.length_take]; omega⟩, data, rest, hdata, hdata.symm ▸ hlt, ?_⟩
  have hten : (tail.drop 6).drop 4 = data ++ rest := by rw [List.drop_drop, hsplit]
  show id :: tail = [id] ++ tail.take 6 ++ lengthField data ++ data ++ rest
  rw [hlength, List.append_assoc _ data rest, ← hten, List.append_assoc _ _ ((tail.drop 6).drop 4),
    List.take_append_drop, List.append_assoc, List.take_append_drop]
  rfl

namespace PacketToSend

/-- Encoding what was decoded gives the bytes of the packet. -/
theorem serialize_deserialize (o o' : ByteOrder) {bytes : List UInt8}
    (h : Declares MessageId.packetToSend bytes) :
    (deserialize o' bytes).map (serialize o) =
      some (bytes.take (11 + declaredLength bytes)) := by
  obtain ⟨mac, data, rest, hlen, hlt, hbytes⟩ := exists_packetBytes h
  have hpacket : bytes = serialize o' { destinationMac := mac, data } ++ rest := by
    rw [serialize_eq, hbytes]
  rw [← hlen, hpacket, deserialize_serialize o' rest rfl hlt, Option.map_some, serialize_eq,
    serialize_eq, List.take_left' (length_packetBytes_lengthField ..)]

end PacketToSend

namespace ReceivedPacket

/-- What is decoded from a packet and the bytes that follow it. The clamp to the size of the span
does nothing unless that size, cast to `uint32_t`, is below the length of the payload. -/
theorem deserialize_append (o : ByteOrder) (mac : MacAddress) {data : List UInt8}
    (rest : List UInt8) (h : data.length < 2 ^ 32) :
    deserialize o (mac.toList ++ (lengthField data ++ (data ++ rest))) =
      some { mac, data := data.take ((data.length + rest.length) % 2 ^ 32) } := by
  have hlen := networkToHost_lengthField o (data ++ rest) h
  have hsize : (UInt32.ofNat (data ++ rest).length).toNat =
      (data.length + rest.length) % 2 ^ 32 := by
    rw [UInt32.toNat_ofNat', List.length_append]
  -- the clamp cuts the payload where the size is below its length
  have hclamp (size length : UInt32) (hlength : length.toNat = data.length) :
      (data ++ rest).take (if size < length then size else length).toNat =
        data.take size.toNat := by
    split
    · next hlt =>
      rw [UInt32.lt_iff_toNat_lt] at hlt
      exact List.take_append_of_le_length (by omega)
    · next hge =>
      rw [UInt32.lt_iff_toNat_lt] at hge
      rw [hlength, List.take_left, List.take_of_length_le (by omega)]
  rw [deserialize, dif_pos (by simp; omega)]
  simp only [drop_six_mac, drop_four_lengthField, take_six_mac, hclamp _ _ hlen, hsize]
  rfl

/-- A packet that other bytes follow is decoded iff the clamp does nothing. -/
theorem deserialize_serialize_iff (o o' : ByteOrder) {packet : ReceivedPacket} (rest : List UInt8)
    (hid : packet.id = MessageId.receivedPacket) (h : packet.data.length < 2 ^ 32) :
    deserialize o' ((serialize o packet ++ rest).drop 1) = some packet ↔
      packet.data.length ≤ (packet.data.length + rest.length) % 2 ^ 32 := by
  obtain ⟨id, mac, data⟩ := packet
  subst hid
  rw [serialize_eq, drop_one_packetBytes, deserialize_append o' mac rest h, Option.some.injEq,
    ReceivedPacket.mk.injEq, List.take_eq_self_iff]
  simp

/-- Encoding what was decoded gives the bytes of the packet iff the clamp does nothing. -/
theorem serialize_deserialize_iff (o o' : ByteOrder) {bytes : List UInt8}
    (h : Declares MessageId.receivedPacket bytes) :
    (deserialize o' (bytes.drop 1)).map (serialize o) =
        some (bytes.take (11 + declaredLength bytes)) ↔
      declaredLength bytes ≤ (bytes.length - 11) % 2 ^ 32 := by
  obtain ⟨mac, data, rest, hlen, hlt, hbytes⟩ := exists_packetBytes h
  have hsize : bytes.length - 11 = data.length + rest.length := by
    rw [hbytes, List.length_append, length_packetBytes_lengthField]; omega
  have hcut : bytes.take (11 + data.length) =
      packetBytes MessageId.receivedPacket mac (lengthField data) data := by
    rw [hbytes, List.take_left' (length_packetBytes_lengthField ..)]
  rw [← hlen, hsize, hcut, hbytes, drop_one_packetBytes, deserialize_append o' mac rest hlt,
    Option.map_some, Option.some.injEq, serialize_eq]
  constructor
  · intro heq
    -- a payload that was cut short has a shorter encoding
    have hlengths := congrArg List.length heq
    simp only [length_packetBytes_lengthField, List.length_take] at hlengths
    omega
  · intro hle
    rw [List.take_of_length_le hle]

end ReceivedPacket

/-! ## Both codecs -/

/-- Both codecs in both directions, for an encoder and a decoder of any byte order. -/
theorem codecs_inverse_iff (o o' : ByteOrder) :
    (∀ (packet : PacketToSend) (rest : List UInt8), packet.id = MessageId.packetToSend →
      packet.data.length < 2 ^ 32 →
      PacketToSend.deserialize o' (packet.serialize o ++ rest) = some packet) ∧
    (∀ bytes, Declares MessageId.packetToSend bytes →
      (PacketToSend.deserialize o' bytes).map (PacketToSend.serialize o) =
        some (bytes.take (11 + declaredLength bytes))) ∧
    (∀ (packet : ReceivedPacket) (rest : List UInt8), packet.id = MessageId.receivedPacket →
      packet.data.length < 2 ^ 32 →
      (ReceivedPacket.deserialize o' ((packet.serialize o ++ rest).drop 1) = some packet ↔
        packet.data.length ≤ (packet.data.length + rest.length) % 2 ^ 32)) ∧
    ∀ bytes, Declares MessageId.receivedPacket bytes →
      ((ReceivedPacket.deserialize o' (bytes.drop 1)).map (ReceivedPacket.serialize o) =
          some (bytes.take (11 + declaredLength bytes)) ↔
        declaredLength bytes ≤ (bytes.length - 11) % 2 ^ 32) := by
  refine ⟨fun packet rest hid h => ?_, fun _ => PacketToSend.serialize_deserialize o o',
    fun _ => ReceivedPacket.deserialize_serialize_iff o o',
    fun _ => ReceivedPacket.serialize_deserialize_iff o o'⟩
  rw [PacketToSend.serialize_eq o, ← PacketToSend.serialize_eq o']
  exact PacketToSend.deserialize_serialize o' rest hid h

/-- A packet of three bytes that one byte follows, between machines of different byte orders. -/
theorem codecs_inverse_packet :
    let mac : MacAddress := .replicate 6 7
    PacketToSend.deserialize .little
        (PacketToSend.serialize .big { destinationMac := mac, data := [1, 2, 3] } ++ [4]) =
      some { destinationMac := mac, data := [1, 2, 3] } ∧
    ReceivedPacket.deserialize .little
        ((ReceivedPacket.serialize .big { mac, data := [1, 2, 3] } ++ [4]).drop 1) =
      some { mac, data := [1, 2, 3] } ∧
    (ReceivedPacket.deserialize .little
        ([82, 7, 7, 7, 7, 7, 7, 0, 0, 0, 1, 9, 4].drop 1)).map (ReceivedPacket.serialize .big) =
      some [82, 7, 7, 7, 7, 7, 7, 0, 0, 0, 1, 9] := by
  intro mac
  obtain ⟨hsend, -, hreceive, hbytes⟩ := codecs_inverse_iff .big .little
  exact ⟨hsend { destinationMac := mac, data := [1, 2, 3] } [4] rfl (by decide),
    (hreceive { mac, data := [1, 2, 3] } [4] rfl (by decide)).mpr (by decide),
    (hbytes [82, 7, 7, 7, 7, 7, 7, 0, 0, 0, 1, 9, 4] ⟨rfl, by decide⟩).mpr (by decide)⟩

/-- One byte of payload that `2 ^ 32 - 1` bytes follow: the size of the span is cast to `0`, and the
payload is lost. -/
theorem codecs_inverse_fails :
    let packet : ReceivedPacket := { mac := .replicate 6 7, data := [1] }
    ReceivedPacket.deserialize .little
        ((packet.serialize .little ++ List.replicate (2 ^ 32 - 1) 0).drop 1) ≠ some packet := by
  intro packet h
  have hle := (ReceivedPacket.deserialize_serialize_iff .little .little _ rfl
    (show packet.data.length < 2 ^ 32 by decide)).mp h
  rw [List.length_replicate] at hle
  exact absurd hle (by decide)

end Messages
