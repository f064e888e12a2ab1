import EspNowOnLinux.Daemon.SerialPortSocket
import EspNowOnLinux.Messages.PacketCodecs
import EspNowOnLinux.Messages.StartDevice

/-!
# The daemon's view of a device

`espnow_uart_device`: the handlers of serial reads, TAP reads and TAP writes, and the state they
share. A handler is a function of that state, `none` is undefined behaviour, and what a handler is
called with is what the completed operation transferred.

Console output is left out. `handleSerialPacket` is what the handler returns and what it does to the
device, with a TAP frame at the length that the source computes for it. Two of its branches reach
past what they work on: the one for received packets copies the frame to an array of 512 bytes
without a check, and the one for unknown ids dumps lines of 32 bytes of which the last may be
incomplete. `handleInBounds` is the handler with these as undefined behaviour, and what the reads of
a running device call. The device name, the MAC address and the text of `LOG_INFO_UART` are printed
as C strings, up to a NUL that may lie behind them; that is left out of both.

## Main results

* `handleSerialPacket_startDevice`, `handleSerialPacket_logInfo`, `handleSerialPacket_logInfoUart`,
  `handleSerialPacket_ping` and `handleSerialPacket_receivedPacket`: what the handler does with data
  that starts with the fixed part of a message, whatever follows;
* `handleSerialPacket_cases`: what it can do to the device, whatever the data;
* `readHandleInBounds_eq`: a read stays in bounds iff each span that it consumes does;
* `tunReadHandle_cases`: what a TAP frame leads to.
-/

open Bytes Framing Messages

/-- What the daemon takes from the machine it runs on. -/
structure HostEnv where
  /-- The byte order. -/
  order : ByteOrder
  /-- The bytes in memory behind the local variable `message_got`, up to a NUL, when the device of
  this id reads its name from there. It does so at most once. -/
  stack : String → List UInt8

/-- `statistics`. -/
structure Statistics where
  broadcastSent : ℕ
  broadcastReceived : ℕ
  deriving DecidableEq

/-- `device_details`. -/
structure DeviceDetails where
  deviceName : List UInt8
  macAddress : MacAddress
  espnowVersion : EspnowVersion
  firmwareVersion : FirmwareVersion
  deriving DecidableEq

/-- `espnow_uart_device`. -/
structure EspnowUartDevice where
  requestedStart : Bool
  deviceDetails : DeviceDetails
  espnowId : String
  serialPort : SerialPortSocket
  tunFdBuffer : List.Vector UInt8 512
  /-- Whether `start_reading_tun` has an operation outstanding. -/
  tunReading : Bool
  /-- `tun_fd_write_buffers_` and the operations that `start_writing_tun` has started. -/
  tunFdWriteBuffers : AsyncQueue (List UInt8)
  statistics : Statistics
  /-- The devices that `new_device_event` has been published for. -/
  published : List String

namespace EspnowUartDevice

/-- The constructor. The members without an initialiser are whatever the memory held. -/
def new (serialPort : SerialPortSocket) (espnowId : String) (deviceDetails : DeviceDetails)
    (tunFdBuffer : List.Vector UInt8 512) : EspnowUartDevice where
  requestedStart := false
  deviceDetails := { deviceDetails with deviceName := [] }
  espnowId
  serialPort := serialPort.startReading
  tunFdBuffer
  tunReading := true
  tunFdWriteBuffers := .empty
  statistics := ⟨0, 0⟩
  published := []

/-! ## The TAP device -/

/-- `0x88B5`. -/
def ethertype : UInt16 := 0x88B5

/-- `tun_read_handle`, called after `frame` was read into `tun_fd_buffer_`. The ethertype is read
also where the frame is shorter; `none` is a range that ends before it starts. -/
def tunReadHandle (env : HostEnv) (d : EspnowUartDevice) (ec : Bool) (frame : PacketBuffer 512) :
    Option EspnowUartDevice :=
  if ec then some { d with tunReading := false }
  else
    let tunFdBuffer : List.Vector UInt8 512 :=
      ⟨overwrite d.tunFdBuffer.toList 0 frame.buffer, by simp⟩
    let bytesTransferred := frame.buffer.length
    -- bytes 12 and 13 of the array, those of an earlier frame where this one is shorter
    let type := networkToHost16 env.order (loadUInt16 env.order (tunFdBuffer.toList.drop 12))
    if type = ethertype then
      if 14 ≤ bytesTransferred then
        let packet : PacketToSend := {
          destinationMac := ⟨tunFdBuffer.toList.take 6, by simp⟩
          data := (tunFdBuffer.toList.take bytesTransferred).drop 14 }
        (d.serialPort.write (packet.serialize env.order)).map fun serialPort =>
          { d with
            serialPort, tunFdBuffer
            statistics := { d.statistics with broadcastSent := d.statistics.broadcastSent + 1 } }
      else none
    else some { d with tunFdBuffer }

/-- A TAP frame is either dropped or forwarded as one `PACKET_TO_SEND`. -/
theorem tunReadHandle_cases {env : HostEnv} {d t : EspnowUartDevice} {frame : PacketBuffer 512}
    (h : tunReadHandle env d false frame = some t) :
    (∃ tunFdBuffer, t = { d with tunFdBuffer }) ∨
      ∃ (packet : PacketToSend) (hfits : (packet.serialize env.order).length ≤ 512)
        (tunFdBuffer : List.Vector UInt8 512) (statistics : Statistics),
        packet.id = MessageId.packetToSend ∧
        t = { d with
          serialPort := { d.serialPort with
            writeQueue := d.serialPort.writeQueue.write ⟨packet.serialize env.order, hfits⟩ }
          tunFdBuffer, statistics } := by
  rw [tunReadHandle, if_neg Bool.false_ne_true] at h
  simp only at h
  split at h
  · split at h
    · right
      obtain ⟨port, hport, rfl⟩ := Option.map_eq_some_iff.mp h
      unfold SerialPortSocket.write at hport
      split at hport
      · next hfits =>
        obtain rfl := Option.some.inj hport
        exact ⟨_, hfits, _, _, rfl, rfl⟩
      · cases hport
    · cases h
  · exact Or.inl ⟨_, (Option.some.inj h).symm⟩

/-- `start_writing_tun`. -/
def startWritingTun (d : EspnowUartDevice) : EspnowUartDevice :=
  { d with tunFdWriteBuffers := d.tunFdWriteBuffers.startWrite }

/-- `handle_tun_write`. It does not ask whether the queue is empty; `none` is a `pop_front` on an
empty one. -/
def handleTunWrite (d : EspnowUartDevice) (ec : Bool) : Option EspnowUartDevice :=
  if ec then some d
  else d.tunFdWriteBuffers.popFront.map fun q => startWritingTun { d with tunFdWriteBuffers := q }

/-- The operation that was started first has transferred its frame and `handle_tun_write` is
called. -/
def tunWriteCompleted (d : EspnowUartDevice) : Option EspnowUartDevice :=
  d.tunFdWriteBuffers.transfer.bind fun q => handleTunWrite { d with tunFdWriteBuffers := q } false

/-- A completion changes nothing but the deque, and pushes nothing to it. -/
theorem tunWriteCompleted_cases {d t : EspnowUartDevice} (h : d.tunWriteCompleted = some t) :
    ∃ q, q.accepted = d.tunFdWriteBuffers.accepted ∧ t = { d with tunFdWriteBuffers := q } := by
  obtain ⟨q, hq, hpop⟩ := Option.bind_eq_some_iff.mp h
  obtain ⟨r, hr, rfl⟩ := Option.map_eq_some_iff.mp hpop
  refine ⟨r.startWrite, ?_, rfl⟩
  rw [← AsyncQueue.accepted_of_transfer hq]
  exact AsyncQueue.accepted_of_popAndRestart (by rw [AsyncQueue.popAndRestart, hr]; rfl)

/-! ## The serial port -/

/-- `device_details_` from a message. The name is read as a C string: where it has no NUL, what
follows it in the message, and then in memory, is read as well. -/
def detailsOf (env : HostEnv) (espnowId : String) (message : StartDevice) : DeviceDetails where
  deviceName := cString (message.deviceName.toList ++ [message.version] ++
    message.fwVersion.toBytes ++ message.macAddress.toList ++ env.stack espnowId)
  macAddress := message.macAddress
  espnowVersion := message.version
  firmwareVersion := message.fwVersion

/-- The frame that a received packet is written to the TAP device as: a broadcast destination, the
source address, the ethertype and the payload. -/
def tapFrame (mac : MacAddress) (data : List UInt8) : List UInt8 :=
  List.replicate 6 0xff ++ mac.toList ++ [0x88, 0xb5] ++ data

/-- What the first `START_DEVICE` with the right header is answered with. -/
def answerStartDevice (env : HostEnv) (d : EspnowUartDevice) (data : List UInt8) :
    Option EspnowUartDevice := do
  let serialPort ← d.serialPort.write startHost
  let (_, messageGot) ← StartDevice.read data {}
  some { d with
    requestedStart := true
    serialPort
    deviceDetails := detailsOf env d.espnowId messageGot
    published := d.published ++ [d.espnowId] }

/-- `handle_serial_packet`: what it returns and what it does to the device. It answers how many
bytes it is done with, or `-1` when the message is not complete.

Left out are the console output, with the reads of the name, of the MAC address and of the text of
`LOG_INFO_UART` up to a NUL, and with the dump of data of an unknown id; and the array of 512 bytes
that a frame is copied to, so that the frame has any length here. -/
def handleSerialPacket (env : HostEnv) (d : EspnowUartDevice) (data : List UInt8) :
    Option (Reply EspnowUartDevice UInt8) :=
  match data with
  | [] => none
  | id :: _ =>
    if id = MessageId.startDevice then
      if StartDevice.size ≤ data.length then
        -- the answer is given once; every complete message is consumed
        if (data.drop 1).take 13 = deviceHeader ∧ d.requestedStart = false then
          (answerStartDevice env d data).map fun d => ⟨StartDevice.size, d, data⟩
        else some ⟨StartDevice.size, d, data⟩
      else some ⟨-1, d, data⟩
    else if id = MessageId.logInfo then
      match data.findIdx? (· = 10) with
      -- the newline is overwritten with a NUL
      | some length => some ⟨toInt32 (length + 1), d, data.set length 0⟩
      | none => some ⟨-1, d, data⟩
    else if id = MessageId.logInfoUart then
      if data.length < 5 then some ⟨-1, d, data⟩
      else
        let expectedSize := hostToNetwork env.order (loadUInt32 env.order (data.drop 1))
        if 5 + expectedSize.toNat ≤ data.length then
          some ⟨toInt32 (5 + expectedSize.toNat), d, data⟩
        else some ⟨-1, d, data⟩
    else if id = MessageId.ping then
      if 4 ≤ data.length then some ⟨4, d, data⟩ else some ⟨-1, d, data⟩
    else if id = MessageId.receivedPacket then
      if data.length < 11 then some ⟨-1, d, data⟩
      else
        let subBuffer := data.drop 1
        let sizeBuffer := (subBuffer.drop 6).take 4
        let payloadBuffer := subBuffer.drop 10
        let expectedSize := networkToHost env.order (loadUInt32 env.order sizeBuffer)
        if payloadBuffer.length < expectedSize.toNat then some ⟨-1, d, data⟩
        else
          (ReceivedPacket.deserialize env.order subBuffer).map fun message =>
            let d' := startWritingTun { d with
              tunFdWriteBuffers := d.tunFdWriteBuffers.push (tapFrame message.mac message.data)
              statistics := { d.statistics with
                broadcastReceived := d.statistics.broadcastReceived + 1 } }
            ⟨toInt32 (11 + message.data.length), d', data⟩
    -- an unknown id: everything that is there is printed
    else some ⟨toInt32 data.length, d, data⟩

/-! ### What the handler does with the start of a message -/

section HandleSerialPacket

variable (env : HostEnv) (d : EspnowUartDevice)

/-- The device after a complete `START_DEVICE`. -/
def receiveStartDevice (m : StartDevice) : EspnowUartDevice :=
  if m.header.toList = deviceHeader ∧ d.requestedStart = false then
    { d with
      requestedStart := true
      serialPort := { d.serialPort with
        writeQueue := d.serialPort.writeQueue.write ⟨startHost, by decide⟩ }
      deviceDetails := detailsOf env d.espnowId m
      published := d.published ++ [d.espnowId] }
  else d

/-- The device after a complete `RECEIVED_PACKET`. -/
def receivePacket (mac : MacAddress) (data : List UInt8) : EspnowUartDevice :=
  { d with
    tunFdWriteBuffers := d.tunFdWriteBuffers.write (tapFrame mac data)
    statistics := { d.statistics with broadcastReceived := d.statistics.broadcastReceived + 1 } }

theorem handleSerialPacket_startDevice {m : StartDevice} (rest : List UInt8)
    (hid : m.id = MessageId.startDevice) :
    handleSerialPacket env d (m.toBytes ++ rest) =
      some ⟨StartDevice.size, receiveStartDevice env d m, m.toBytes ++ rest⟩ := by
  have hsize : StartDevice.size ≤ (m.toBytes ++ rest).length := by
    rw [List.length_append, StartDevice.length_toBytes]; omega
  have hheader : ((m.toBytes ++ rest).drop 1).take 13 = m.header.toList := by
    simp [StartDevice.toBytes]
  obtain ⟨tail, hcons⟩ : ∃ tail, m.toBytes ++ rest = MessageId.startDevice :: tail :=
    ⟨_, by rw [← hid]; rfl⟩
  have hanswer : answerStartDevice env d (m.toBytes ++ rest) = some { d with
      requestedStart := true
      serialPort := { d.serialPort with
        writeQueue := d.serialPort.writeQueue.write ⟨startHost, by decide⟩ }
      deviceDetails := detailsOf env d.espnowId m
      published := d.published ++ [d.espnowId] } := by
    rw [answerStartDevice, SerialPortSocket.write_eq _ (by decide), StartDevice.read_toBytes]
    rfl
  rw [hcons] at hsize hheader hanswer ⊢
  simp only [handleSerialPacket, ↓reduceIte, if_pos hsize, hheader, hanswer, receiveStartDevice]
  split <;> rfl

theorem handleSerialPacket_startDevice_incomplete {tail : List UInt8}
    (h : (MessageId.startDevice :: tail).length < StartDevice.size) :
    handleSerialPacket env d (MessageId.startDevice :: tail) =
      some ⟨-1, d, MessageId.startDevice :: tail⟩ := by
  simp only [handleSerialPacket, ↓reduceIte, if_neg (Nat.not_le.mpr h)]

/-- A text without a newline is not complete. -/
theorem handleSerialPacket_logInfo_incomplete {text : List UInt8} (htext : 10 ∉ text) :
    handleSerialPacket env d (MessageId.logInfo :: text) =
      some ⟨-1, d, MessageId.logInfo :: text⟩ := by
  have hfind : (MessageId.logInfo :: text).findIdx? (· = 10) = none := by
    rw [List.findIdx?_eq_none_iff]
    rintro b (_ | ⟨_, hb⟩)
    · decide
    · exact decide_eq_false fun h => htext (h ▸ hb)
  simp only [handleSerialPacket, hfind]
  rfl

/-- The newline that ends a text. -/
theorem findIdx?_newline {text : List UInt8} (rest : List UInt8) (htext : 10 ∉ text) :
    (MessageId.logInfo :: (text ++ 10 :: rest)).findIdx? (· = 10) = some (text.length + 1) := by
  rw [List.findIdx?_eq_some_iff_getElem]
  refine ⟨by simp, by simp, fun j hj => ?_⟩
  cases j with
  | zero => simp [MessageId.logInfo]
  | succ j =>
      have hj' : j < text.length := by omega
      simp only [List.getElem_cons_succ, List.getElem_append_left hj', decide_eq_true_eq]
      exact fun h => htext (h ▸ List.getElem_mem hj')

/-- A text is complete with the first newline, which is overwritten. -/
theorem handleSerialPacket_logInfo {text : List UInt8} (rest : List UInt8) (htext : 10 ∉ text) :
    handleSerialPacket env d (MessageId.logInfo :: text ++ 10 :: rest) =
      some ⟨toInt32 (text.length + 2), d, MessageId.logInfo :: text ++ 0 :: rest⟩ := by
  have hfind := findIdx?_newline rest htext
  simp only [List.cons_append, handleSerialPacket, hfind]
  simp [MessageId.logInfo, MessageId.startDevice]

/-- A text with its length in front of it: complete as soon as that many bytes are there. -/
theorem handleSerialPacket_logInfoUart_field {tail : List UInt8} (h : 4 ≤ tail.length) :
    handleSerialPacket env d (MessageId.logInfoUart :: tail) =
      some ⟨if 4 + ofBE (tail.take 4) ≤ tail.length then toInt32 (5 + ofBE (tail.take 4)) else -1,
        d, MessageId.logInfoUart :: tail⟩ := by
  have hsize := networkToHost_loadUInt32 env.order h
  simp only [handleSerialPacket, List.length_cons, List.drop_succ_cons, List.drop_zero,
    hostToNetwork_eq_networkToHost, hsize,
    show 5 + ofBE (tail.take 4) ≤ tail.length + 1 ↔ 4 + ofBE (tail.take 4) ≤ tail.length by omega]
  rw [if_neg (by decide), if_neg (by decide), if_pos trivial, if_neg (by omega)]
  split <;> rfl

theorem handleSerialPacket_logInfoUart {payload : List UInt8} (rest : List UInt8)
    (h : payload.length < 2 ^ 32) :
    handleSerialPacket env d (MessageId.logInfoUart :: lengthField payload ++ rest) =
      some ⟨if payload.length ≤ rest.length then toInt32 (5 + payload.length) else -1, d,
        MessageId.logInfoUart :: lengthField payload ++ rest⟩ := by
  have hlen : (lengthField payload ++ rest).length = 4 + rest.length := by
    rw [List.length_append, length_lengthField]
  rw [List.cons_append, handleSerialPacket_logInfoUart_field env d (by rw [hlen]; omega), hlen,
    List.take_left' (length_lengthField payload), ofBE_lengthField h]
  simp only [Nat.add_le_add_iff_left]

theorem handleSerialPacket_logInfoUart_short {tail : List UInt8}
    (h : (MessageId.logInfoUart :: tail).length < 5) :
    handleSerialPacket env d (MessageId.logInfoUart :: tail) =
      some ⟨-1, d, MessageId.logInfoUart :: tail⟩ := by
  simp only [handleSerialPacket, if_pos h]
  rfl

/-- A ping is four bytes, whatever they are. -/
theorem handleSerialPacket_ping (tail : List UInt8) :
    handleSerialPacket env d (MessageId.ping :: tail) =
      some ⟨if 3 ≤ tail.length then 4 else -1, d, MessageId.ping :: tail⟩ := by
  simp only [handleSerialPacket, List.length_cons,
    show 4 ≤ tail.length + 1 ↔ 3 ≤ tail.length by omega]
  rw [if_neg (by decide), if_neg (by decide), if_neg (by decide), if_pos trivial]
  split <;> rfl

/-- A received packet: complete as soon as its payload is there. -/
theorem handleSerialPacket_receivedPacket (mac : MacAddress) {payload rest : List UInt8}
    (hle : payload.length ≤ rest.length) (h : rest.length < 2 ^ 32) :
    handleSerialPacket env d
        (MessageId.receivedPacket :: (mac.toList ++ (lengthField payload ++ rest))) =
      some ⟨toInt32 (11 + payload.length), receivePacket d mac (rest.take payload.length),
        MessageId.receivedPacket :: (mac.toList ++ (lengthField payload ++ rest))⟩ := by
  have hlen : ¬ (MessageId.receivedPacket ::
      (mac.toList ++ (lengthField payload ++ rest))).length < 11 := by simp; omega
  have hsize := networkToHost_lengthField env.order [] (Nat.lt_of_le_of_lt hle h)
  rw [List.append_nil] at hsize
  have htake : (rest.take payload.length).length = payload.length := by
    rw [List.length_take]; omega
  simp only [handleSerialPacket, if_neg hlen, List.drop_succ_cons, List.drop_zero,
    take_four_drop_six, drop_ten_header, hsize, if_neg (Nat.not_lt.mpr hle),
    ReceivedPacket.deserialize_of_le env.order mac hle h, Option.map_some, htake]
  rfl

/-- A serialised packet is received, whatever follows it. -/
theorem handleSerialPacket_serialize (o : ByteOrder) {packet : ReceivedPacket} (rest : List UInt8)
    (hid : packet.id = MessageId.receivedPacket)
    (h : packet.data.length + rest.length < 2 ^ 32) :
    handleSerialPacket env d (packet.serialize o ++ rest) =
      some ⟨toInt32 (11 + packet.data.length), receivePacket d packet.mac packet.data,
        packet.serialize o ++ rest⟩ := by
  have hbytes : packet.serialize o ++ rest = MessageId.receivedPacket ::
      (packet.mac.toList ++ (lengthField packet.data ++ (packet.data ++ rest))) := by
    simp [ReceivedPacket.serialize_eq, packetBytes, hid]
  rw [hbytes, handleSerialPacket_receivedPacket env d packet.mac (by simp) (by simpa using h),
    List.take_left]

/-- A received packet whose length field announces more bytes than there are. -/
theorem handleSerialPacket_receivedPacket_waiting {tail : List UInt8} (h : 10 ≤ tail.length)
    (hlt : tail.length < 10 + ofBE ((tail.drop 6).take 4)) :
    handleSerialPacket env d (MessageId.receivedPacket :: tail) =
      some ⟨-1, d, MessageId.receivedPacket :: tail⟩ := by
  have hfield : 4 ≤ ((tail.drop 6).take 4).length := by
    rw [List.length_take, List.length_drop]; omega
  have hsize := networkToHost_loadUInt32 env.order hfield
  rw [List.take_take, Nat.min_self] at hsize
  have hpayload : (tail.drop 10).length < ofBE ((tail.drop 6).take 4) := by
    rw [List.length_drop]; omega
  simp only [handleSerialPacket, List.length_cons, List.drop_succ_cons, List.drop_zero, hsize,
    if_pos hpayload, if_neg (show ¬ tail.length + 1 < 11 by omega)]
  rfl

theorem handleSerialPacket_receivedPacket_incomplete (mac : MacAddress) {payload rest : List UInt8}
    (hlt : rest.length < payload.length) (h : payload.length < 2 ^ 32) :
    handleSerialPacket env d
        (MessageId.receivedPacket :: (mac.toList ++ (lengthField payload ++ rest))) =
      some ⟨-1, d, MessageId.receivedPacket :: (mac.toList ++ (lengthField payload ++ rest))⟩ := by
  have hlen : (mac.toList ++ (lengthField payload ++ rest)).length = 10 + rest.length := by
    simp; omega
  refine handleSerialPacket_receivedPacket_waiting env d (by rw [hlen]; omega) ?_
  rw [hlen, take_four_drop_six, ofBE_lengthField h]
  omega

theorem handleSerialPacket_receivedPacket_short {tail : List UInt8}
    (h : (MessageId.receivedPacket :: tail).length < 11) :
    handleSerialPacket env d (MessageId.receivedPacket :: tail) =
      some ⟨-1, d, MessageId.receivedPacket :: tail⟩ := by
  simp only [handleSerialPacket, if_pos h]
  rfl

end HandleSerialPacket

/-- What the handler does to the device: nothing, the answer to the first announcement, or a frame
for the TAP device. -/
theorem handleSerialPacket_cases {env : HostEnv} {d : EspnowUartDevice} {data : List UInt8}
    {r : Reply EspnowUartDevice UInt8} (h : handleSerialPacket env d data = some r) :
    r.state = d ∨ (d.requestedStart = false ∧ answerStartDevice env d data = some r.state) ∨
      ∃ mac payload, r.state = receivePacket d mac payload := by
  cases data with
  | nil => cases h
  | cons id tail =>
      simp only [handleSerialPacket] at h
      split at h
      · split at h
        · split at h
          · next hanswer =>
            obtain ⟨d', hd', rfl⟩ := Option.map_eq_some_iff.mp h
            exact Or.inr (Or.inl ⟨hanswer.2, hd'⟩)
          · exact Or.inl (congrArg Reply.state (Option.some.inj h).symm)
        · exact Or.inl (congrArg Reply.state (Option.some.inj h).symm)
      split at h
      · split at h <;> exact Or.inl (congrArg Reply.state (Option.some.inj h).symm)
      split at h
      · split at h
        · exact Or.inl (congrArg Reply.state (Option.some.inj h).symm)
        · split at h <;> exact Or.inl (congrArg Reply.state (Option.some.inj h).symm)
      split at h
      · split at h <;> exact Or.inl (congrArg Reply.state (Option.some.inj h).symm)
      split at h
      · split at h
        · exact Or.inl (congrArg Reply.state (Option.some.inj h).symm)
        · split at h
          · exact Or.inl (congrArg Reply.state (Option.some.inj h).symm)
          · obtain ⟨message, -, rfl⟩ := Option.map_eq_some_iff.mp h
            exact Or.inr (Or.inr ⟨message.mac, message.data, rfl⟩)
      · exact Or.inl (congrArg Reply.state (Option.some.inj h).symm)

/-! ### What the handler copies and dumps -/

/-- The ids that `handle_serial_packet` has a branch for. -/
def knownIds : List MessageId :=
  [MessageId.startDevice, MessageId.logInfo, MessageId.logInfoUart, MessageId.ping,
    MessageId.receivedPacket]

/-- The data starts with an id that the handler has no branch for. -/
def Unknown : List UInt8 → Prop
  | [] => False
  | id :: _ => id ∉ knownIds

instance : DecidablePred Unknown
  | [] => inferInstanceAs (Decidable False)
  | id :: _ => inferInstanceAs (Decidable (id ∉ knownIds))

/-- The frame of the packet at the front of the data fits `packet_buffer`, and the dump of data of
an unknown id, which takes sub-spans of 32 bytes, does not go past its end. -/
structure InBounds (data : List UInt8) : Prop where
  frame : Declares MessageId.receivedPacket data → 14 + declaredLength data ≤ 512
  dump : Unknown data → 32 ∣ data.length

instance : DecidablePred InBounds := fun data =>
  decidable_of_iff ((Declares MessageId.receivedPacket data → 14 + declaredLength data ≤ 512) ∧
    (Unknown data → 32 ∣ data.length)) ⟨fun h => ⟨h.1, h.2⟩, fun h => ⟨h.1, h.2⟩⟩

theorem inBounds_nil : InBounds [] where
  frame h := nomatch h.head?_eq
  dump h := h.elim

/-- Data that starts with no known id is taken off the front whole. -/
theorem handleSerialPacket_unknown (env : HostEnv) (d : EspnowUartDevice) {id : MessageId}
    {tail : List UInt8} (hid : id ∉ knownIds) :
    handleSerialPacket env d (id :: tail) =
      some ⟨toInt32 (id :: tail).length, d, id :: tail⟩ := by
  simp only [knownIds, List.mem_cons, List.not_mem_nil, or_false, not_or] at hid
  obtain ⟨hstart, hlog, huart, hping, hreceived⟩ := hid
  simp only [handleSerialPacket, if_neg hstart, if_neg hlog, if_neg huart, if_neg hping,
    if_neg hreceived]

/-- `handle_serial_packet`; `none` is also a frame that is copied past the end of its array, and a
dump past the end of the span. -/
def handleInBounds (env : HostEnv) (d : EspnowUartDevice) (data : List UInt8) :
    Option (Reply EspnowUartDevice UInt8) :=
  if InBounds data then handleSerialPacket env d data else none

/-- `serial_port_read_handle`. -/
def serialPortReadHandle (env : HostEnv) (ec : Bool) (d : EspnowUartDevice) (data : List UInt8) :
    Option (Reply EspnowUartDevice UInt8) :=
  if ec then some ⟨-1, d, data⟩ else handleSerialPacket env d data

/-- The read that was outstanding has completed. -/
def readCompleted (d : EspnowUartDevice) : EspnowUartDevice :=
  { d with serialPort := { d.serialPort with readRequest := none } }

/-- The next read is started, into the rest of `buffer`. -/
def rearm (d : EspnowUartDevice) (buffer : ReceivingBuffer (1024 * 4)) : EspnowUartDevice :=
  { d with serialPort := { d.serialPort with buffer }.startReading }

/-- `serial_port_socket::read_handle` with this `read_handler_`, called after `bytes` were read into
the writable span. Next to the device, it returns the spans of bytes that were consumed. -/
def readInto (handle : EspnowUartDevice → List UInt8 → Option (Reply EspnowUartDevice UInt8))
    (d : EspnowUartDevice) (bytes : List UInt8) :
    Option (EspnowUartDevice × List (List UInt8)) :=
  let buffer := (d.serialPort.buffer.fill bytes).commit bytes.length
  (buffer.consumeLoop handle (fun d b => (d, b)) (buffer.getData.length + 1) d.readCompleted).map
    fun t => (t.1.rearm t.2.1.moveDataToFront, t.2.2)

/-- `serial_port_socket::read_handle` with the handler of the device. -/
def readHandle (env : HostEnv) (d : EspnowUartDevice) (ec : Bool) (bytes : List UInt8) :
    Option (EspnowUartDevice × List (List UInt8)) :=
  if ec then (serialPortReadHandle env ec d.readCompleted []).map fun r => (r.state, [])
  else readInto (serialPortReadHandle env ec) d bytes

/-- The same for a read that has succeeded; `none` is also a frame that is copied past the end of
its array, and a dump past the end of the span. -/
def readHandleInBounds (env : HostEnv) (d : EspnowUartDevice) (bytes : List UInt8) :
    Option (EspnowUartDevice × List (List UInt8)) :=
  readInto (handleInBounds env) d bytes

/-! ### Reads that stay in bounds -/

/-- A complete packet is in bounds iff its frame fits. -/
theorem inBounds_iff_of_declares {data : List UInt8}
    (h : Declares MessageId.receivedPacket data) :
    InBounds data ↔ 14 + declaredLength data ≤ 512 := by
  refine ⟨fun hbounds => hbounds.frame h, fun hle => ⟨fun _ => hle, fun hunknown => ?_⟩⟩
  obtain ⟨tail, rfl⟩ := List.head?_eq_some_iff.mp h.head?_eq
  exact absurd (by decide) hunknown

/-- Data that is dumped is in bounds iff it is whole lines. -/
theorem inBounds_iff_of_unknown {data : List UInt8} (h : Unknown data) :
    InBounds data ↔ 32 ∣ data.length := by
  refine ⟨fun hbounds => hbounds.dump h, fun hdvd => ⟨fun hdeclares => ?_, fun _ => hdvd⟩⟩
  obtain ⟨tail, rfl⟩ := List.head?_eq_some_iff.mp hdeclares.head?_eq
  exact absurd (by decide) h

/-- A serialised packet is in bounds iff its payload leaves room for the header of the frame. -/
theorem inBounds_serialize_iff (o : ByteOrder) {packet : ReceivedPacket} (rest : List UInt8)
    (hid : packet.id = MessageId.receivedPacket) (h : packet.data.length < 2 ^ 32) :
    InBounds (packet.serialize o ++ rest) ↔ packet.data.length ≤ 498 := by
  obtain ⟨id, mac, data⟩ := packet
  obtain rfl : id = MessageId.receivedPacket := hid
  have hlength : declaredLength
      (packetBytes MessageId.receivedPacket mac (lengthField data) data ++ rest) = data.length :=
    declaredLength_packetBytes h
  rw [ReceivedPacket.serialize_eq, inBounds_iff_of_declares ⟨rfl, ?_⟩, hlength]
  · dsimp only
    omega
  · rw [hlength, List.length_append, length_packetBytes_lengthField]
    exact Nat.le_add_right _ _

/-- Data that starts with a known id and is no complete packet is in bounds. -/
theorem inBounds_of_known {data : List UInt8} (hdeclares : ¬ Declares MessageId.receivedPacket data)
    (hknown : ¬ Unknown data) : InBounds data :=
  ⟨fun h => absurd h hdeclares, fun h => absurd h hknown⟩

theorem inBounds_cons {id : MessageId} (hid : id ∈ knownIds)
    (hpacket : id ≠ MessageId.receivedPacket) (tail : List UInt8) : InBounds (id :: tail) :=
  inBounds_of_known (fun h => hpacket (Option.some.inj h.head?_eq)) (not_not.mpr hid)

/-- Whether the handler stays in bounds is told by the bytes that it consumes. -/
theorem inBounds_take_iff {env : HostEnv} {d : EspnowUartDevice} {data : List UInt8}
    {r : Reply EspnowUartDevice UInt8} (hlen : data.length ≤ 1024 * 4)
    (hr : handleSerialPacket env d data = some r) :
    InBounds (data.take r.ret.toNat) ↔ InBounds data := by
  by_cases hdeclares : Declares MessageId.receivedPacket data
  -- a complete packet is consumed, and nothing of what follows it
  · obtain ⟨mac, payload, rest, hpayload, -, hdata⟩ := exists_packetBytes hdeclares
    have hlength := congrArg List.length hdata
    rw [List.length_append, length_packetBytes_lengthField] at hlength
    have hserialize :
        data = ReceivedPacket.serialize env.order { mac, data := payload } ++ rest := by
      rw [hdata, ReceivedPacket.serialize_eq]
    have hid : ({ mac, data := payload } : ReceivedPacket).id = MessageId.receivedPacket := rfl
    have hhandled := handleSerialPacket_serialize env d env.order rest hid (by dsimp only; omega)
    rw [← hserialize, hr, Option.some.injEq] at hhandled
    have hret : r.ret.toNat = 11 + declaredLength data := by
      rw [hhandled, toInt32_of_lt (by dsimp only; omega), Int.toNat_natCast, ← hpayload]
    rw [hret, inBounds_iff_of_declares hdeclares, inBounds_iff_of_declares hdeclares.take,
      declaredLength_take (Nat.le_add_right 11 _)]
  · have htake : ¬ Declares MessageId.receivedPacket (data.take r.ret.toNat) :=
      fun h => hdeclares h.of_take
    by_cases hunknown : Unknown data
    -- data of an unknown id is consumed whole
    · cases data with
      | nil => exact hunknown.elim
      | cons id tail =>
          rw [handleSerialPacket_unknown env d hunknown, Option.some.injEq] at hr
          rw [← hr, toInt32_of_lt (by omega), Int.toNat_natCast, List.take_length]
    · refine iff_of_true (inBounds_of_known htake ?_) (inBounds_of_known hdeclares hunknown)
      cases data with
      | nil => rwa [List.take_nil]
      | cons id tail =>
          cases r.ret.toNat with
          | zero => exact not_false
          | succ n => exact hunknown

/-- A read stays in bounds iff each span that it consumes does. -/
theorem readHandleInBounds_eq (env : HostEnv) (d : EspnowUartDevice) (bytes : List UInt8) :
    readHandleInBounds env d bytes =
      (readHandle env d false bytes).filter fun r => ∀ span ∈ r.2, InBounds span := by
  have hspan (d : EspnowUartDevice) (data : List UInt8) (r : Reply EspnowUartDevice UInt8)
      (hlen : data.length ≤ 1024 * 4) (hr : serialPortReadHandle env false d data = some r) :
      InBounds (data.take r.ret.toNat) ↔ InBounds data := inBounds_take_iff hlen hr
  have hguard : handleInBounds env = fun d data =>
      if InBounds data then serialPortReadHandle env false d data else none := rfl
  rw [readHandle, if_neg Bool.false_ne_true, readHandleInBounds, readInto, readInto, hguard,
    ReceivingBuffer.consumeLoop_guarded inBounds_nil hspan, Option.filter_map]
  rfl

theorem readHandleInBounds_eq_some {env : HostEnv} {d : EspnowUartDevice} {bytes : List UInt8}
    {r : EspnowUartDevice × List (List UInt8)} :
    readHandleInBounds env d bytes = some r ↔
      readHandle env d false bytes = some r ∧ ∀ span ∈ r.2, InBounds span := by
  rw [readHandleInBounds_eq, Option.filter_eq_some_iff, decide_eq_true_iff]

end EspnowUartDevice
