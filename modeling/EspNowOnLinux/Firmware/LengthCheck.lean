import EspNowOnLinux.Firmware.JtagReceive
import EspNowOnLinux.Messages.PacketCodecs

/-!
# The firmware's length check

`handle_packet_from_jtag` on data that need not come from the host's encoder. It compares
`payload_size + 11`, a sum of 32-bit integers, with the size of the buffer, and then has
`io<packet_to_send>::deserialize` copy `payload_size` bytes without a further check.

## Main result

* `lengthChecked_iff`: what is returned is in range and `deserialize` is called with all the bytes
  it copies iff the sum does not wrap. A declared length of `2 ^ 32 - 11` or more passes the check
  of any buffer that holds a header.
-/

open Bytes Messages

namespace JtagTask

variable (env : FirmwareEnv)

/-- The sum that is compared with the size of the buffer. -/
def checkedSize (buffer : List UInt8) : UInt32 :=
  networkToHost env.order (loadUInt32 env.order (buffer.drop 7)) + 11

/-- The checks on the way to `deserialize` pass. -/
structure PassesChecks (buffer : List UInt8) : Prop where
  head?_eq : buffer.head? = some MessageId.packetToSend
  header_le : 11 ≤ buffer.length
  size_le : (checkedSize env buffer).toNat ≤ buffer.length

/-- A buffer that passes the checks is given to `deserialize`. -/
theorem handlePacketFromJtag_of_passesChecks (s : Transmitted) {buffer : List UInt8}
    (h : PassesChecks env buffer) :
    handlePacketFromJtag env s buffer =
      (PacketToSend.deserialize env.order buffer).map fun packet =>
        ⟨toInt32 (11 + packet.data.length), s.send env packet, buffer⟩ := by
  obtain ⟨hhead, hheader, hsize⟩ := h
  obtain ⟨tail, rfl⟩ := List.head?_eq_some_iff.mp hhead
  rw [handlePacketFromJtag, if_pos rfl, if_neg (Nat.not_lt.mpr hheader)]
  exact if_neg (Nat.not_lt.mpr hsize)

/-- Any other buffer is answered with `-1` or `0`. -/
theorem handlePacketFromJtag_of_not_passesChecks (s : Transmitted) {buffer : List UInt8}
    (hne : buffer ≠ []) (h : ¬ PassesChecks env buffer) :
    ∃ r, handlePacketFromJtag env s buffer = some r ∧ (r.ret = -1 ∨ r.ret = 0) := by
  obtain ⟨id, tail, rfl⟩ := List.exists_cons_of_ne_nil hne
  by_cases hid : id = MessageId.packetToSend
  · subst hid
    rcases Nat.lt_or_ge (MessageId.packetToSend :: tail).length 11 with hshort | hheader
    · exact ⟨_, handlePacketFromJtag_short env s hshort, Or.inl rfl⟩
    · have hsize : (MessageId.packetToSend :: tail).length <
          (checkedSize env (MessageId.packetToSend :: tail)).toNat := by
        by_contra hle
        exact h ⟨rfl, hheader, Nat.not_lt.mp hle⟩
      refine ⟨⟨-1, s, MessageId.packetToSend :: tail⟩, ?_, Or.inl rfl⟩
      rw [handlePacketFromJtag, if_pos rfl, if_neg (Nat.not_lt.mpr hheader)]
      exact if_pos hsize
  · refine ⟨⟨0, s.log (.unknownMessageId id), id :: tail⟩, ?_, Or.inr rfl⟩
    rw [handlePacketFromJtag, if_neg hid]

/-- What is compared is the declared length and that of the header, modulo `2 ^ 32`. -/
theorem checkedSize_toNat {buffer : List UInt8} (h : 11 ≤ buffer.length) :
    (checkedSize env buffer).toNat = (declaredLength buffer + 11) % 2 ^ 32 := by
  have hfour : 4 ≤ (buffer.drop 7).length := by rw [List.length_drop]; omega
  rw [checkedSize, UInt32.toNat_add, networkToHost_loadUInt32 env.order hfour]
  rfl

theorem declaredLength_lt {buffer : List UInt8} (h : 11 ≤ buffer.length) :
    declaredLength buffer < 2 ^ 32 := by
  have hfield : ((buffer.drop 7).take 4).length = 4 := by
    rw [List.length_take, List.length_drop]; omega
  have hlt := ofBE_lt ((buffer.drop 7).take 4)
  rwa [hfield] at hlt

/-- The length field of a packet makes the sum wrap. -/
structure Wraps (buffer : List UInt8) : Prop where
  head?_eq : buffer.head? = some MessageId.packetToSend
  header_le : 11 ≤ buffer.length
  le_declaredLength : 2 ^ 32 - 11 ≤ declaredLength buffer

/-- The check passes where the declared bytes are there, and where the sum wraps. -/
theorem passesChecks_iff {buffer : List UInt8} (hlen : buffer.length ≤ 512) :
    PassesChecks env buffer ↔ Declares MessageId.packetToSend buffer ∨ Wraps buffer := by
  constructor
  · rintro ⟨hhead, hheader, hsize⟩
    have hlt := declaredLength_lt hheader
    rw [checkedSize_toNat env hheader] at hsize
    rcases Nat.lt_or_ge (declaredLength buffer) (2 ^ 32 - 11) with hsmall | hlarge
    · rw [Nat.mod_eq_of_lt (by omega)] at hsize
      exact Or.inl ⟨hhead, by omega⟩
    · exact Or.inr ⟨hhead, hheader, hlarge⟩
  · rintro (⟨hhead, hle⟩ | ⟨hhead, hheader, hlarge⟩)
    · have hheader : 11 ≤ buffer.length := by omega
      refine ⟨hhead, hheader, ?_⟩
      rw [checkedSize_toNat env hheader, Nat.mod_eq_of_lt (by omega)]
      omega
    · have hlt := declaredLength_lt hheader
      refine ⟨hhead, hheader, ?_⟩
      -- the sum is below `11`
      rw [checkedSize_toNat env hheader]
      omega

/-- A packet whose bytes are all there is decoded to as many bytes as it declares. -/
theorem deserialize_of_declares (o : ByteOrder) {buffer : List UInt8}
    (h : Declares MessageId.packetToSend buffer) :
    ∃ packet, PacketToSend.deserialize o buffer = some packet ∧
      packet.data.length = declaredLength buffer := by
  obtain ⟨mac, data, rest, hdata, hlt, rfl⟩ := exists_packetBytes h
  refine ⟨{ destinationMac := mac, data }, ?_, hdata⟩
  rw [← PacketToSend.serialize_eq o
    { id := MessageId.packetToSend, destinationMac := mac, data }]
  exact PacketToSend.deserialize_serialize o rest rfl hlt

/-- The handler answers `-1`, `0` or the length of a packet that the buffer holds, and it calls
`deserialize` only with a buffer that holds all the bytes that are declared. -/
structure LengthChecked (s : Transmitted) (buffer : List UInt8) : Prop where
  ret : ∃ r, handlePacketFromJtag env s buffer = some r ∧
    (r.ret = -1 ∨ r.ret = 0 ∨ (11 ≤ r.ret ∧ r.ret ≤ buffer.length))
  declared_le : PassesChecks env buffer → 11 + declaredLength buffer ≤ buffer.length

/-- For every buffer that the task can have read: the answer and the copy are in range iff the
length field does not make the sum wrap. -/
theorem lengthChecked_iff (s : Transmitted) {buffer : List UInt8} (hne : buffer ≠ [])
    (hlen : buffer.length ≤ 512) : LengthChecked env s buffer ↔ ¬ Wraps buffer := by
  constructor
  · intro h hwraps
    have hle := h.declared_le ((passesChecks_iff env hlen).mpr (Or.inr hwraps))
    have hlarge := hwraps.le_declaredLength
    omega
  · intro hwraps
    by_cases hpasses : PassesChecks env buffer
    · have hdeclares := ((passesChecks_iff env hlen).mp hpasses).resolve_right hwraps
      obtain ⟨packet, hread, hdata⟩ := deserialize_of_declares env.order hdeclares
      have hle := hdeclares.length_le
      have hhandled := handlePacketFromJtag_of_passesChecks env s hpasses
      rw [hread, Option.map_some, toInt32_of_lt (by omega), hdata] at hhandled
      refine ⟨⟨_, hhandled, Or.inr (Or.inr ⟨?_, ?_⟩)⟩, fun _ => hle⟩
      · show (11 : ℤ) ≤ ((11 + declaredLength buffer : ℕ) : ℤ)
        omega
      · show ((11 + declaredLength buffer : ℕ) : ℤ) ≤ (buffer.length : ℤ)
        omega
    · obtain ⟨r, hr, hret⟩ := handlePacketFromJtag_of_not_passesChecks env s hne hpasses
      exact ⟨⟨r, hr, hret.imp_right Or.inl⟩, fun h => absurd h hpasses⟩

/-- A length one below those that wrap is waited for. -/
theorem lengthChecked_iff_waits :
    LengthChecked ⟨.little, fun _ => true⟩ ⟨[], []⟩
      ([83, 255, 255, 255, 255, 255, 255] ++ [0xff, 0xff, 0xff, 0xf4]) :=
  (lengthChecked_iff ⟨.little, fun _ => true⟩ ⟨[], []⟩ (by decide) (by decide)).mpr
    fun h => absurd h.le_declaredLength (by decide)

/-- A header that declares `2 ^ 32 - 1` bytes and nothing behind it: the copy leaves the buffer. -/
theorem lengthChecked_fails :
    let buffer : List UInt8 := [83, 255, 255, 255, 255, 255, 255] ++ [0xff, 0xff, 0xff, 0xff]
    handlePacketFromJtag ⟨.little, fun _ => true⟩ ⟨[], []⟩ buffer = none ∧
      ¬ LengthChecked ⟨.little, fun _ => true⟩ ⟨[], []⟩ buffer := by
  intro buffer
  have hnone : handlePacketFromJtag ⟨.little, fun _ => true⟩ ⟨[], []⟩ buffer = none := by decide
  refine ⟨hnone, fun h => ?_⟩
  obtain ⟨r, hr, -⟩ := h.ret
  rw [hnone] at hr
  cases hr

end JtagTask
