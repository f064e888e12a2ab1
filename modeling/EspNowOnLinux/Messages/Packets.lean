import EspNowOnLinux.Messages.Utility

/-!
# Message ids and the packet formats

`message_id`, the one-byte and four-byte messages, and the two packet formats with their codecs
`io<packet_to_send>` and `io<received_packet>`: an id, a MAC address, the payload length in network
order and the payload.

The codecs depend on the byte order `o` of the machine that runs them only through the conversion
of the length, so `serialize_eq` describes the bytes without it, and a packet is decoded on a
machine of the other order (`PacketToSend.deserialize_serialize`).
-/

open Bytes

namespace Messages

/-! ## Message ids -/

/-- `enum class message_id : unsigned char`. Any byte can be cast to it, so it is a byte with names
for some values. -/
abbrev MessageId := UInt8

namespace MessageId

def startDevice : MessageId := 0

def startHost : MessageId := 1

/-- `LOG_INFO = 'I'`. -/
def logInfo : MessageId := 73

/-- `LOG_INFO_UART = 'i'`. -/
def logInfoUart : MessageId := 105

/-- `RECEIVED_PACKET = 'R'`, which is also the value of `LOG_ERROR`. -/
def receivedPacket : MessageId := 82

/-- `PACKET_TO_SEND = 'S'`. -/
def packetToSend : MessageId := 83

/-- `PING = 'P'`. -/
def ping : MessageId := 80

end MessageId

/-- The bytes of a `start_host`. -/
def startHost : List UInt8 := [MessageId.startHost]

/-- The bytes of a `ping`: the id and `'i'`, `'n'`, `'g'`. -/
def ping : List UInt8 := [MessageId.ping, 105, 110, 103]

/-- `unsigned char mac[6]`. -/
abbrev MacAddress := List.Vector UInt8 6

/-! ## The common layout -/

/-- The bytes of a packet: id, MAC address, length and payload. -/
def packetBytes (id : MessageId) (mac : MacAddress) (length : List UInt8) (data : List UInt8) :
    List UInt8 :=
  [id] ++ mac.toList ++ length ++ data

/-- The length in front of a payload, in network order. -/
def lengthField (data : List UInt8) : List UInt8 := toBE 4 (UInt32.ofNat data.length).toNat

theorem lengthField_of_lt {data : List UInt8} (h : data.length < 2 ^ 32) :
    lengthField data = toBE 4 data.length := by
  rw [lengthField, UInt32.toNat_ofNat_of_lt' h]

theorem ofBE_lengthField {data : List UInt8} (h : data.length < 2 ^ 32) :
    ofBE (lengthField data) = data.length := by
  rw [lengthField_of_lt h, ofBE_toBE_of_lt h]

/-- Four bytes are the length field of any payload of the length that they denote. -/
theorem lengthField_of_ofBE {data field : List UInt8} (hfield : field.length = 4)
    (h : data.length = ofBE field) : lengthField data = field := by
  have hlt := ofBE_lt field
  have hbytes := toBE_ofBE field
  rw [hfield] at hlt hbytes
  rw [lengthField_of_lt (h ▸ hlt), h, hbytes]

@[simp]
theorem length_lengthField (data : List UInt8) : (lengthField data).length = 4 := length_toBE 4 _

/-- The length field is read back by a machine of either byte order. -/
theorem networkToHost_lengthField (o : ByteOrder) {data : List UInt8} (rest : List UInt8)
    (h : data.length < 2 ^ 32) :
    (networkToHost o (loadUInt32 o (lengthField data ++ rest))).toNat = data.length := by
  rw [lengthField_of_lt h, networkToHost_loadUInt32_toBE o rest h]

@[simp]
theorem length_packetBytes_lengthField (id : MessageId) (mac : MacAddress) (data : List UInt8) :
    (packetBytes id mac (lengthField data) data).length = 11 + data.length := by
  simp only [packetBytes, lengthField, List.length_append, List.length_singleton,
    List.Vector.toList_length, length_toBE]

section Layout

variable (id : MessageId) (mac : MacAddress) (data rest : List UInt8)

/-- What follows the id. -/
theorem drop_one_packetBytes :
    (packetBytes id mac (lengthField data) data ++ rest).drop 1 =
      mac.toList ++ (lengthField data ++ (data ++ rest)) := by
  simp [packetBytes]

/-- What follows the MAC address. -/
theorem drop_six_mac : (mac.toList ++ rest).drop 6 = rest := List.drop_left' mac.toList_length

/-- The MAC address. -/
theorem take_six_mac : (mac.toList ++ rest).take 6 = mac.toList := List.take_left' mac.toList_length

/-- What follows the length. -/
theorem drop_four_lengthField : (lengthField data ++ rest).drop 4 = rest :=
  List.drop_left' (length_lengthField data)

/-- The four bytes behind the MAC address. -/
theorem take_four_drop_six : ((mac.toList ++ (lengthField data ++ rest)).drop 6).take 4 =
    lengthField data := by
  rw [drop_six_mac, List.take_left' (length_lengthField data)]

/-- What follows the MAC address and the length. -/
theorem drop_ten_header : (mac.toList ++ (lengthField data ++ rest)).drop 10 = rest := by
  rw [← List.drop_drop (i := 4) (j := 6), drop_six_mac, drop_four_lengthField]

end Layout

/-! ## `packet_to_send` -/

/-- `packet_to_send`. -/
structure PacketToSend where
  /-- The id, `PACKET_TO_SEND` unless it is changed. -/
  id : MessageId := MessageId.packetToSend
  /-- Where the packet goes. -/
  destinationMac : MacAddress
  /-- The payload. -/
  data : List UInt8
  deriving DecidableEq

namespace PacketToSend

variable (o : ByteOrder)

/-- `io<packet_to_send>::serialize`. -/
def serialize (packet : PacketToSend) : List UInt8 :=
  let length := hostToNetwork o (UInt32.ofNat packet.data.length)
  packetBytes packet.id packet.destinationMac (storeUInt32 o length) packet.data

/-- `io<packet_to_send>::deserialize`. It skips the id and copies as many bytes as the length field
says without comparing with the span; `none` is a read past the end of the span. -/
def deserialize (buffer : List UInt8) : Option PacketToSend :=
  if h : 11 ≤ buffer.length then
    let buffer₁ := buffer.drop 1
    let buffer₂ := buffer₁.drop 6
    let length := networkToHost o (loadUInt32 o buffer₂)
    let buffer₃ := buffer₂.drop 4
    if length.toNat ≤ buffer₃.length then
      -- the `id` keeps the value it is constructed with
      some {
        destinationMac := ⟨buffer₁.take 6, by rw [List.length_take, List.length_drop]; omega⟩
        data := buffer₃.take length.toNat }
    else none
  else none

/-- The bytes of a packet do not depend on the machine that writes it. -/
theorem serialize_eq (packet : PacketToSend) :
    serialize o packet =
      packetBytes packet.id packet.destinationMac (lengthField packet.data) packet.data := by
  rw [serialize, storeUInt32_hostToNetwork, lengthField]

@[simp]
theorem length_serialize (packet : PacketToSend) :
    (serialize o packet).length = 11 + packet.data.length := by
  rw [serialize_eq, length_packetBytes_lengthField]

/-- Decoding a packet that other bytes follow gives the packet. -/
theorem deserialize_serialize {packet : PacketToSend} (rest : List UInt8)
    (hid : packet.id = MessageId.packetToSend) (h : packet.data.length < 2 ^ 32) :
    deserialize o (serialize o packet ++ rest) = some packet := by
  obtain ⟨id, mac, data⟩ := packet
  subst hid
  rw [serialize_eq, deserialize,
    dif_pos (by rw [List.length_append, length_packetBytes_lengthField]; omega)]
  simp only [drop_one_packetBytes, drop_six_mac, drop_four_lengthField, take_six_mac,
    networkToHost_lengthField o _ h, List.take_left]
  rw [if_pos (by rw [List.length_append]; omega)]
  rfl

end PacketToSend

/-! ## `received_packet` -/

/-- `received_packet`. -/
structure ReceivedPacket where
  /-- The id, `RECEIVED_PACKET` unless it is changed. -/
  id : MessageId := MessageId.receivedPacket
  /-- Where the packet comes from. -/
  mac : MacAddress
  /-- The payload. -/
  data : List UInt8
  deriving DecidableEq

namespace ReceivedPacket

variable (o : ByteOrder)

/-- `io<received_packet>::serialize`. -/
def serialize (packet : ReceivedPacket) : List UInt8 :=
  let length := hostToNetwork o (UInt32.ofNat packet.data.length)
  packetBytes packet.id packet.mac (storeUInt32 o length) packet.data

/-- `io<received_packet>::deserialize`, on the bytes after the id. It copies at most what the span
holds; `none` is a span too short for the MAC address and the length. -/
def deserialize (buffer : List UInt8) : Option ReceivedPacket :=
  if h : 10 ≤ buffer.length then
    let buffer₁ := buffer.drop 6
    let length := networkToHost o (loadUInt32 o buffer₁)
    let buffer₂ := buffer₁.drop 4
    let size := UInt32.ofNat buffer₂.length
    some {
      mac := ⟨buffer.take 6, by rw [List.length_take]; omega⟩
      -- `std::min(length, size)`
      data := buffer₂.take (if size < length then size else length).toNat }
  else none

/-- The bytes of a packet do not depend on the machine that writes it. -/
theorem serialize_eq (packet : ReceivedPacket) :
    serialize o packet =
      packetBytes packet.id packet.mac (lengthField packet.data) packet.data := by
  rw [serialize, storeUInt32_hostToNetwork, lengthField]

@[simp]
theorem length_serialize (packet : ReceivedPacket) :
    (serialize o packet).length = 11 + packet.data.length := by
  rw [serialize_eq, length_packetBytes_lengthField]

/-- Decoding a header and as many bytes as it announces, or more. -/
theorem deserialize_of_le (mac : MacAddress) {data rest : List UInt8}
    (hle : data.length ≤ rest.length) (h : rest.length < 2 ^ 32) :
    deserialize o (mac.toList ++ (lengthField data ++ rest)) =
      some { mac, data := rest.take data.length } := by
  have hsize : (UInt32.ofNat rest.length).toNat = rest.length := UInt32.toNat_ofNat_of_lt' h
  have hlen := networkToHost_lengthField o rest (Nat.lt_of_le_of_lt hle h)
  rw [deserialize, dif_pos (by simp; omega)]
  simp only [drop_six_mac, drop_four_lengthField, take_six_mac]
  rw [if_neg (by rw [UInt32.lt_iff_toNat_lt, hsize, hlen]; omega), hlen]
  rfl

end ReceivedPacket

end Messages
