import EspNowOnLinux.Bridging
import EspNowOnLinux.Messages.PacketCodecs

/-!
# The sizes of TAP frames

Both buffers between the daemon and the TAP device are arrays of 512 bytes. A packet from the serial
port is assembled in one, for the write; a frame from the kernel is read into the other. Neither
size is checked where it matters: the assembly compares the payload with what was received only, and
the read does not tell a frame that filled the array from one that did not fit.

## Main results

* `inBounds_iff_assembleFrame`: the bound that the daemon's reads keep to is that of the assembly;
* `frameInBounds_iff`: a received packet is assembled within its array iff its payload has at most
  498 bytes;
* `wholeOrNothing_iff`: a frame is forwarded whole or not at all iff it has at most 512 bytes.
-/

open Bytes Framing Messages

namespace EspnowUartDevice

/-! ## Frames to the TAP device -/

/-- `packet_buffer`. -/
structure TapBuffer where
  buffer : List.Vector UInt8 512
  size : ℕ

/-- `packet_buffer::as_buffer`: what the write is given, which is no more than the array has. -/
def TapBuffer.asBuffer (b : TapBuffer) : List UInt8 := b.buffer.toList.take b.size

/-- The assembly of a frame in `buffer`, whatever it held; `none` is a copy past its end. -/
def assembleFrame (buffer : List.Vector UInt8 512) (mac : MacAddress) (data : List UInt8) :
    Option TapBuffer := do
  let buffer ← copyTo buffer 0 (List.replicate 6 0xff)
  let buffer ← copyTo buffer 6 mac.toList
  let buffer ← copyTo buffer 12 [0x88, 0xb5]
  let buffer ← copyTo buffer 14 data
  some { buffer, size := 14 + data.length }

/-- The first 14 bytes of a frame. -/
def tapHeader (mac : MacAddress) : List UInt8 :=
  List.replicate 6 0xff ++ mac.toList ++ [0x88, 0xb5]

@[simp]
theorem length_tapHeader (mac : MacAddress) : (tapHeader mac).length = 14 := by
  simp only [tapHeader, List.length_append, List.length_replicate, mac.toList_length,
    List.length_cons, List.length_nil]

theorem length_tapFrame (mac : MacAddress) (data : List UInt8) :
    (tapFrame mac data).length = 14 + data.length := by
  rw [show tapFrame mac data = tapHeader mac ++ data from rfl, List.length_append, length_tapHeader]

/-- The header always fits, so the assembly comes down to the copy of the payload. -/
theorem assembleFrame_eq (buffer : List.Vector UInt8 512) (mac : MacAddress) (data : List UInt8) :
    ∃ b : List.Vector UInt8 512, b.toList.take 14 = tapHeader mac ∧
      assembleFrame buffer mac data =
        (copyTo b 14 data).map fun buffer => { buffer, size := 14 + data.length } := by
  have hmac : mac.toList.length = 6 := mac.toList_length
  -- after each copy, the array starts with what has been copied so far
  obtain ⟨b₁, h₁, htake₁⟩ := exists_copyTo buffer 0 (List.replicate 6 0xff) (by decide)
  obtain ⟨b₂, h₂, htake₂⟩ := exists_copyTo b₁ 6 mac.toList (by rw [hmac]; decide)
  obtain ⟨b₃, h₃, htake₃⟩ := exists_copyTo b₂ 12 [0x88, 0xb5] (by decide)
  rw [List.take_zero, List.nil_append] at htake₁
  rw [hmac] at htake₂
  refine ⟨b₃, ?_, ?_⟩
  · rw [tapHeader, ← htake₁]
    exact htake₃.trans (congrArg (· ++ _) htake₂)
  · simp only [assembleFrame, h₁, h₂, h₃, Option.bind_eq_bind, Option.bind_some]
    rw [Option.map_eq_bind]
    rfl

/-- A payload of up to 498 bytes is assembled to the frame. -/
theorem exists_assembleFrame (buffer : List.Vector UInt8 512) (mac : MacAddress)
    {data : List UInt8} (h : data.length ≤ 498) :
    ∃ b, assembleFrame buffer mac data = some b ∧ b.size = 14 + data.length ∧
      b.asBuffer = tapFrame mac data := by
  obtain ⟨b, hheader, heq⟩ := assembleFrame_eq buffer mac data
  obtain ⟨b', hcopy, htake⟩ := exists_copyTo b 14 data (by omega)
  refine ⟨_, by rw [heq, hcopy]; rfl, rfl, ?_⟩
  rw [TapBuffer.asBuffer, htake, hheader]
  rfl

/-- A longer one is copied past the end of the array. -/
theorem assembleFrame_eq_none (buffer : List.Vector UInt8 512) (mac : MacAddress)
    {data : List UInt8} (h : 498 < data.length) : assembleFrame buffer mac data = none := by
  obtain ⟨b, -, heq⟩ := assembleFrame_eq buffer mac data
  rw [heq, copyTo_eq_none (by omega), Option.map_none]

/-- A packet is in bounds, as the daemon's reads have it, iff its frame is assembled within the
array. -/
theorem inBounds_iff_assembleFrame (o : ByteOrder) (buffer : List.Vector UInt8 512)
    {packet : ReceivedPacket} (rest : List UInt8) (hid : packet.id = MessageId.receivedPacket)
    (h : packet.data.length < 2 ^ 32) :
    InBounds (packet.serialize o ++ rest) ↔
      (assembleFrame buffer packet.mac packet.data).isSome := by
  rw [inBounds_serialize_iff o rest hid h]
  constructor
  · intro hle
    obtain ⟨b, hb, -⟩ := exists_assembleFrame buffer packet.mac hle
    exact Option.isSome_of_mem hb
  · intro hsome
    by_contra hlong
    rw [assembleFrame_eq_none buffer packet.mac (Nat.not_le.mp hlong)] at hsome
    cases hsome

/-- The frame that is queued for the packet at the front of `data` has at most 512 bytes, is
assembled within the array, and is what the write is given. -/
def FrameInBounds (env : HostEnv) (d : EspnowUartDevice) (buffer : List.Vector UInt8 512)
    (data : List UInt8) : Prop :=
  ∃ (r : Reply EspnowUartDevice UInt8) (mac : MacAddress) (payload : List UInt8) (b : TapBuffer),
    handleSerialPacket env d data = some r ∧
    r.state.tunFdWriteBuffers.accepted = d.tunFdWriteBuffers.accepted ++ [tapFrame mac payload] ∧
    (tapFrame mac payload).length ≤ 512 ∧
    assembleFrame buffer mac payload = some b ∧ b.size ≤ 512 ∧ b.asBuffer = tapFrame mac payload

/-- A packet that declares no more than was received is taken off the buffer, and queues the frame
of the payload that it declares. -/
theorem handleSerialPacket_declares (env : HostEnv) (d : EspnowUartDevice) {data : List UInt8}
    (h : Declares MessageId.receivedPacket data) (hlen : data.length ≤ 1024 * 4) :
    ∃ (r : Reply EspnowUartDevice UInt8) (mac : MacAddress) (payload : List UInt8),
      payload.length = declaredLength data ∧ handleSerialPacket env d data = some r ∧
      r.state.tunFdWriteBuffers.accepted =
        d.tunFdWriteBuffers.accepted ++ [tapFrame mac payload] := by
  -- the span is the encoding of a packet, and something behind it
  obtain ⟨mac, payload, rest, hpayload, -, rfl⟩ := exists_packetBytes h
  have hserialize : packetBytes MessageId.receivedPacket mac (lengthField payload) payload =
      ReceivedPacket.serialize env.order { mac, data := payload } :=
    (ReceivedPacket.serialize_eq env.order { mac, data := payload }).symm
  rw [List.length_append, length_packetBytes_lengthField] at hlen
  rw [hserialize] at hpayload ⊢
  have hlt : payload.length + rest.length < 2 ^ 32 := by omega
  exact ⟨_, mac, payload, hpayload, handleSerialPacket_serialize env d env.order rest rfl hlt,
    AsyncQueue.accepted_write _ _⟩

/-- The handler queues just one frame, so it is that of a payload of at most 498 bytes. -/
theorem FrameInBounds.declaredLength_le {env : HostEnv} {d : EspnowUartDevice}
    {buffer : List.Vector UInt8 512} {data : List UInt8} (hbounds : FrameInBounds env d buffer data)
    (h : Declares MessageId.receivedPacket data) (hlen : data.length ≤ 1024 * 4) :
    declaredLength data ≤ 498 := by
  obtain ⟨r, mac, payload, hpayload, hhandle, haccepted⟩ :=
    handleSerialPacket_declares env d h hlen
  obtain ⟨r', mac', payload', b, hhandle', haccepted', hsize, -⟩ := hbounds
  obtain rfl := Option.some.inj (hhandle.symm.trans hhandle')
  have hframe : tapFrame mac payload = tapFrame mac' payload' :=
    List.singleton_inj.mp (List.append_cancel_left (haccepted.symm.trans haccepted'))
  -- the frame has 14 bytes more than the payload
  rw [← hframe, length_tapFrame] at hsize
  omega

/-- For every span that starts with a complete `RECEIVED_PACKET`, up to the size of the receiving
buffer: the frame is assembled within its array iff the packet declares a payload of at most 498
bytes. -/
theorem frameInBounds_iff (env : HostEnv) (d : EspnowUartDevice) (buffer : List.Vector UInt8 512)
    {data : List UInt8} (h : Declares MessageId.receivedPacket data)
    (hlen : data.length ≤ 1024 * 4) :
    FrameInBounds env d buffer data ↔ declaredLength data ≤ 498 := by
  constructor
  · intro hbounds
    exact hbounds.declaredLength_le h hlen
  · intro hle
    obtain ⟨r, mac, payload, hpayload, hhandle, haccepted⟩ :=
      handleSerialPacket_declares env d h hlen
    obtain ⟨b, hassemble, hsize, hbuffer⟩ :=
      exists_assembleFrame buffer mac (show payload.length ≤ 498 by omega)
    refine ⟨r, mac, payload, b, hhandle, haccepted, ?_, hassemble, ?_, hbuffer⟩
    · rw [length_tapFrame]; omega
    · omega

/-- A packet with a payload of three bytes. -/
theorem frameInBounds_iff_packet :
    let d := new (.new (.replicate _ 0)) "espnow0" ⟨[], .replicate 6 0, 0, ⟨0, 0, 0⟩⟩
      (.replicate _ 0)
    FrameInBounds ⟨.little, fun _ => []⟩ d (.replicate _ 0)
      (MessageId.receivedPacket :: List.replicate 6 7 ++ [0, 0, 0, 3, 1, 2, 3]) := by
  intro d
  exact (frameInBounds_iff ⟨.little, fun _ => []⟩ d (.replicate _ 0) ⟨rfl, by decide⟩
    (by decide)).mpr (by decide)

/-- A packet with a payload of 499 bytes: its last byte is copied behind the array. -/
theorem frameInBounds_fails :
    let d := new (.new (.replicate _ 0)) "espnow0" ⟨[], .replicate 6 0, 0, ⟨0, 0, 0⟩⟩
      (.replicate _ 0)
    let mac : MacAddress := .replicate 6 7
    let payload : List UInt8 := List.replicate 499 1
    let data := packetBytes MessageId.receivedPacket mac (lengthField payload) payload
    Declares MessageId.receivedPacket data ∧ data.length = 510 ∧
      (handleSerialPacket ⟨.little, fun _ => []⟩ d data).map
        (fun r => r.state.tunFdWriteBuffers.accepted) = some [tapFrame mac payload] ∧
      assembleFrame (.replicate _ 0) mac payload = none ∧
      ¬ FrameInBounds ⟨.little, fun _ => []⟩ d (.replicate _ 0) data := by
  intro d mac payload data
  have hpayload : payload.length = 499 := List.length_replicate
  have hdata : data.length = 510 := by rw [length_packetBytes_lengthField, hpayload]
  have hdeclared : declaredLength data = 499 := by decide +kernel
  have hdeclares : Declares MessageId.receivedPacket data := ⟨rfl, by rw [hdeclared, hdata]⟩
  let packet : ReceivedPacket := { mac, data := payload }
  have hlt : packet.data.length + ([] : List UInt8).length < 2 ^ 32 := by
    rw [show packet.data.length = 499 from hpayload]; decide
  have hhandle := handleSerialPacket_serialize ⟨.little, fun _ => []⟩ d .little [] rfl hlt
  rw [ReceivedPacket.serialize_eq, List.append_nil] at hhandle
  refine ⟨hdeclares, hdata, ?_, assembleFrame_eq_none _ mac (by rw [hpayload]; decide), ?_⟩
  · exact congrArg (Option.map _) hhandle
  · intro hbounds
    have hle := hbounds.declaredLength_le hdeclares (by rw [hdata]; decide)
    rw [hdeclared] at hle
    exact absurd hle (by decide)

/-! ## Frames from the TAP device -/

/-- What a read of `frame` leaves: the start of it, as far as `tun_fd_buffer_` goes. -/
def tapRead (frame : List UInt8) : PacketBuffer 512 :=
  ⟨frame.take 512, by rw [List.length_take]; omega⟩

/-- Nothing is written to the serial port for `frame`, or a packet with its whole payload. -/
def WholeOrNothing (env : HostEnv) (d : EspnowUartDevice) (frame : List UInt8) : Prop :=
  ∃ t : EspnowUartDevice, tunReadHandle env d false (tapRead frame) = some t ∧
    (t.serialPort.writeQueue.accepted = d.serialPort.writeQueue.accepted ∨
      ∃ (packet : PacketToSend) (hfits : (packet.serialize env.order).length ≤ 512),
        t.serialPort.writeQueue.accepted =
          d.serialPort.writeQueue.accepted ++ [⟨packet.serialize env.order, hfits⟩] ∧
        packet.data = frame.drop 14)

/-- A frame with the ethertype is forwarded as the start of it. -/
theorem tunReadHandle_tapRead (env : HostEnv) (d : EspnowUartDevice) {frame : List UInt8}
    (h : 14 ≤ frame.length) (htype : Bridging.frameType frame = [0x88, 0xb5]) :
    ∃ (t : EspnowUartDevice) (packet : PacketToSend)
      (hfits : (packet.serialize env.order).length ≤ 512),
      tunReadHandle env d false (tapRead frame) = some t ∧
      t.serialPort.writeQueue.accepted =
        d.serialPort.writeQueue.accepted ++ [⟨packet.serialize env.order, hfits⟩] ∧
      packet.data = (frame.take 512).drop 14 := by
  have hlen : 14 ≤ (tapRead frame).buffer.length := by
    show 14 ≤ (frame.take 512).length
    rw [List.length_take]; omega
  -- the ethertype is among the bytes that are read
  have htake : Bridging.frameType (tapRead frame).buffer = [0x88, 0xb5] := by
    rw [← htype, tapRead, Bridging.frameType, Bridging.frameType, List.drop_take, List.take_take]
    rfl
  exact ⟨_, _, _, Bridging.tunReadHandle_forwarded env d hlen htake, AsyncQueue.accepted_write _ _,
    rfl⟩

/-- A packet with the whole payload would have the length of the one that is written. -/
theorem WholeOrNothing.length_le {env : HostEnv} {d : EspnowUartDevice} {frame : List UInt8}
    (hwhole : WholeOrNothing env d frame) (h : 14 ≤ frame.length)
    (htype : Bridging.frameType frame = [0x88, 0xb5]) : frame.length ≤ 512 := by
  obtain ⟨t, packet, hfits, hread, haccepted, hdata⟩ := tunReadHandle_tapRead env d h htype
  obtain ⟨t', hread', hcases⟩ := hwhole
  obtain rfl := Option.some.inj (hread.symm.trans hread')
  rcases hcases with hnothing | ⟨packet', hfits', haccepted', hdata'⟩
  · rw [haccepted] at hnothing
    exact absurd (List.append_right_eq_self.mp hnothing) (List.cons_ne_nil _ _)
  · have hbytes : packet.serialize env.order = packet'.serialize env.order :=
      congrArg PacketBuffer.buffer
        (List.singleton_inj.mp (List.append_cancel_left (haccepted.symm.trans haccepted')))
    -- so the start of the frame has as many bytes as the frame
    have hlen := congrArg List.length hbytes
    rw [PacketToSend.length_serialize, PacketToSend.length_serialize, hdata, hdata',
      List.length_drop, List.length_drop, List.length_take] at hlen
    omega

/-- For every frame with the ethertype, whatever MTU the kernel allows: it is forwarded whole or not
at all iff it has at most 512 bytes. -/
theorem wholeOrNothing_iff (env : HostEnv) (d : EspnowUartDevice) {frame : List UInt8}
    (h : 14 ≤ frame.length) (htype : Bridging.frameType frame = [0x88, 0xb5]) :
    WholeOrNothing env d frame ↔ frame.length ≤ 512 := by
  constructor
  · intro hwhole
    exact hwhole.length_le h htype
  · intro hle
    obtain ⟨t, packet, hfits, hread, haccepted, hdata⟩ := tunReadHandle_tapRead env d h htype
    refine ⟨t, hread, Or.inr ⟨packet, hfits, haccepted, ?_⟩⟩
    rw [hdata, List.take_of_length_le hle]

/-- A frame of 15 bytes. -/
theorem wholeOrNothing_iff_frame :
    let d := new (.new (.replicate _ 0)) "espnow0" ⟨[], .replicate 6 0, 0, ⟨0, 0, 0⟩⟩
      (.replicate _ 0)
    WholeOrNothing ⟨.little, fun _ => []⟩ d (List.replicate 12 1 ++ [0x88, 0xb5, 7]) := by
  intro d
  exact (wholeOrNothing_iff ⟨.little, fun _ => []⟩ d (by decide) rfl).mpr (by decide)

/-- A frame of 513 bytes: all but the last byte of its payload is sent. -/
theorem wholeOrNothing_fails :
    let d := new (.new (.replicate _ 0)) "espnow0" ⟨[], .replicate 6 0, 0, ⟨0, 0, 0⟩⟩
      (.replicate _ 0)
    let frame : List UInt8 := List.replicate 12 1 ++ [0x88, 0xb5] ++ List.replicate 499 7
    let packet : PacketToSend := { destinationMac := .replicate 6 1, data := List.replicate 498 7 }
    frame.length = 513 ∧ Bridging.frameType frame = [0x88, 0xb5] ∧
      (tunReadHandle ⟨.little, fun _ => []⟩ d false (tapRead frame)).map
          (fun t => t.serialPort.writeQueue.accepted.map PacketBuffer.buffer) =
        some [packet.serialize .little] ∧
      ¬ WholeOrNothing ⟨.little, fun _ => []⟩ d frame := by
  intro d frame packet
  have hlen : frame.length = 513 := by
    simp only [frame, List.length_append, List.length_replicate, List.length_cons, List.length_nil]
  refine ⟨hlen, rfl, by decide +kernel, fun hwhole => ?_⟩
  have hle := hwhole.length_le (by rw [hlen]; decide) rfl
  rw [hlen] at hle
  exact absurd hle (by decide)

end EspnowUartDevice
