import EspNowOnLinux.Daemon.EspnowUartDevice

/-!
# The messages a device sends

The five kinds of messages on the serial line from a device to the daemon, their bytes, and what
each does to the daemon's device object.

## Main results

* `handles_serialPortReadHandle`: the daemon's handler takes a complete message off the front of its
  buffer, whatever follows, and waits on a message that is not complete;
* `Delivered.foldl`: the frames, the answer and the event that a sequence of messages leads to.
-/

open Bytes Framing Messages

/-- A message from a device. -/
inductive DeviceMessage
  /-- `START_DEVICE`; any 34 bytes with the right id are the bytes of a `StartDevice`. -/
  | startDevice (message : StartDevice)
  /-- `LOG_INFO`. -/
  | logInfo (text : List UInt8)
  /-- `LOG_INFO_UART`. -/
  | logInfoUart (payload : List UInt8)
  /-- `PING`. -/
  | ping
  /-- `RECEIVED_PACKET`. -/
  | receivedPacket (mac : MacAddress) (payload : List UInt8)

namespace DeviceMessage

/-- The bytes of a message. -/
def encode : DeviceMessage → List UInt8
  | startDevice message => message.toBytes
  | logInfo text => MessageId.logInfo :: text ++ [10]
  | logInfoUart payload => MessageId.logInfoUart :: lengthField payload ++ payload
  | ping => Messages.ping
  | receivedPacket mac payload =>
      MessageId.receivedPacket :: (mac.toList ++ (lengthField payload ++ payload))

/-- A message has an id. -/
theorem encode_ne_nil (m : DeviceMessage) : m.encode ≠ [] := by
  cases m with
  | startDevice message => exact List.cons_ne_nil _ _
  | logInfo text => exact List.cons_ne_nil _ _
  | logInfoUart payload => exact List.cons_ne_nil _ _
  | ping => exact List.cons_ne_nil _ _
  | receivedPacket mac payload => exact List.cons_ne_nil _ _

/-- What a device promises about one kind of message. -/
def FieldsOk : DeviceMessage → Prop
  | startDevice message => message.id = MessageId.startDevice
  | logInfo text => 10 ∉ text
  | logInfoUart _ => True
  | ping => True
  | receivedPacket _ payload => payload.length ≤ 498

/-- A message that the daemon can receive: it fits in the receiving buffer. -/
structure WellFormed (m : DeviceMessage) : Prop where
  fields : m.FieldsOk
  length_le : m.encode.length ≤ 1024 * 4

/-- The announcement a message is, if it has the right header. -/
def start? : DeviceMessage → Option StartDevice
  | startDevice message => if message.header.toList = deviceHeader then some message else none
  | _ => none

/-- The TAP frame a message is written as. -/
def frame? : DeviceMessage → Option (List UInt8)
  | receivedPacket mac payload => some (EspnowUartDevice.tapFrame mac payload)
  | _ => none

/-- The first announcement with the right header. -/
def firstStart (ms : List DeviceMessage) : Option StartDevice := ms.findSome? start?

/-- The TAP frames of the messages, in order. -/
def frames (ms : List DeviceMessage) : List (List UInt8) := ms.filterMap frame?

end DeviceMessage

namespace EspnowUartDevice

open DeviceMessage

variable (env : HostEnv)

/-- The device after a complete message. -/
def deliver (d : EspnowUartDevice) : DeviceMessage → EspnowUartDevice
  | .startDevice message => receiveStartDevice env d message
  | .receivedPacket mac payload => receivePacket d mac payload
  | _ => d

/-! ## The handler's contract -/

/-- A complete message is consumed. -/
theorem serialPortReadHandle_accepts (d : EspnowUartDevice) {m : DeviceMessage} (rest : List UInt8)
    (hm : m.WellFormed) (hfits : (m.encode ++ rest).length ≤ 1024 * 4) :
    ∃ left, left.length = m.encode.length ∧
      serialPortReadHandle env false d (m.encode ++ rest) =
        some ⟨m.encode.length, deliver env d m, left ++ rest⟩ := by
  obtain ⟨hfields, hlen⟩ := hm
  rw [List.length_append] at hfits
  show ∃ left, _ ∧ handleSerialPacket env d (m.encode ++ rest) = _
  cases m with
  | startDevice message =>
      refine ⟨message.toBytes, rfl, ?_⟩
      rw [encode, handleSerialPacket_startDevice env d rest hfields, StartDevice.length_toBytes]
      rfl
  | logInfo text =>
      refine ⟨MessageId.logInfo :: text ++ [0], by simp [encode], ?_⟩
      simp only [encode, List.length_append, List.length_cons, List.length_nil] at hlen ⊢
      have h := handleSerialPacket_logInfo env d rest hfields
      rw [toInt32_of_lt (by omega)] at h
      simpa [deliver, Int.add_assoc] using h
  | logInfoUart payload =>
      refine ⟨_, rfl, ?_⟩
      simp only [encode, List.length_append, List.length_cons, length_lengthField] at hlen hfits ⊢
      rw [List.append_assoc, handleSerialPacket_logInfoUart env d _ (by omega),
        if_pos (by rw [List.length_append]; omega), toInt32_of_lt (by omega)]
      simp [deliver]
  | ping =>
      refine ⟨_, rfl, ?_⟩
      exact handleSerialPacket_ping env d ([105, 110, 103] ++ rest)
  | receivedPacket mac payload =>
      refine ⟨_, rfl, ?_⟩
      simp only [encode, List.length_append, List.length_cons, length_lengthField,
        List.Vector.toList_length] at hlen hfits ⊢
      have h := handleSerialPacket_receivedPacket env d mac
        (show payload.length ≤ (payload ++ rest).length by simp) (by rw [List.length_append]; omega)
      rw [toInt32_of_lt (by omega), List.take_left] at h
      simp only [List.cons_append, List.append_assoc, h, deliver]
      congr 2
      omega

/-- A message that is not complete is waited for. -/
theorem serialPortReadHandle_waits (d : EspnowUartDevice) {m : DeviceMessage} {p : List UInt8}
    (hm : m.WellFormed) (hp : p ≠ []) (hpre : p <+: m.encode) (hlt : p.length < m.encode.length) :
    serialPortReadHandle env false d p = some ⟨-1, d, p⟩ := by
  obtain ⟨hfields, hlen⟩ := hm
  show handleSerialPacket env d p = _
  obtain ⟨id, tail, rfl⟩ := List.exists_cons_of_ne_nil hp
  cases m with
  | startDevice message =>
      obtain ⟨rfl, -⟩ := List.cons_prefix_cons.mp hpre
      rw [encode, StartDevice.length_toBytes] at hlt
      rw [show message.id = _ from hfields] at hlt ⊢
      exact handleSerialPacket_startDevice_incomplete env d hlt
  | logInfo text =>
      obtain ⟨rfl, htail⟩ := List.cons_prefix_cons.mp hpre
      refine handleSerialPacket_logInfo_incomplete env d fun hmem => hfields ?_
      -- the newline is the last byte, so a strict prefix lies within the text
      have htext : tail <+: text := List.prefix_of_prefix_length_le htail
        (List.prefix_append text [10]) (by simp [encode] at hlt; omega)
      exact htext.subset hmem
  | logInfoUart payload =>
      -- the length has not arrived, or it has and announces more than what has
      rcases Nat.lt_or_ge (id :: tail).length 5 with hshort | hlong
      · obtain ⟨rfl, -⟩ := List.cons_prefix_cons.mp hpre
        exact handleSerialPacket_logInfoUart_short env d hshort
      · obtain ⟨q, hq, -⟩ := exists_append_of_prefix hpre (by simpa using hlong)
        rw [hq] at hlt ⊢
        simp only [encode, List.length_append] at hlt hlen
        rw [handleSerialPacket_logInfoUart env d q (by omega), if_neg (by omega)]
  | ping =>
      obtain ⟨rfl, -⟩ := List.cons_prefix_cons.mp hpre
      have hshort : ¬ 3 ≤ tail.length := by simp [encode, Messages.ping] at hlt; omega
      rw [handleSerialPacket_ping, if_neg hshort]
  | receivedPacket mac payload =>
      rcases Nat.lt_or_ge (id :: tail).length 11 with hshort | hlong
      · obtain ⟨rfl, -⟩ := List.cons_prefix_cons.mp hpre
        exact handleSerialPacket_receivedPacket_short env d hshort
      · have hsplit : encode (.receivedPacket mac payload) =
            (MessageId.receivedPacket :: (mac.toList ++ lengthField payload)) ++ payload := by
          simp [encode]
        rw [hsplit] at hpre hlt hlen
        obtain ⟨q, hq, -⟩ := exists_append_of_prefix hpre (by simpa using hlong)
        rw [hq] at hlt ⊢
        simp only [List.length_append] at hlt hlen
        have h := handleSerialPacket_receivedPacket_incomplete env d mac
          (show q.length < payload.length by omega) (by omega)
        simpa using h

/-- The daemon's handler meets its contract with the messages of a device. -/
theorem handles_serialPortReadHandle :
    Handles (serialPortReadHandle env false) encode (deliver env) WellFormed (1024 * 4) where
  encode_ne_nil m _ := m.encode_ne_nil
  accepts d _ rest hm hfits := serialPortReadHandle_accepts env d rest hm hfits
  waits d _ _ hm hp hpre hlt := serialPortReadHandle_waits env d hm hp hpre hlt

/-- The frame of a packet that the daemon can receive fits its array, and no message is dumped. -/
theorem inBounds_encode {m : DeviceMessage} (hm : m.WellFormed) : InBounds m.encode := by
  cases m with
  | startDevice message =>
      have hid : message.id = MessageId.startDevice := hm.fields
      show InBounds (message.id :: _)
      rw [hid]
      exact inBounds_cons (by decide) (by decide) _
  | logInfo text => exact inBounds_cons (by decide) (by decide) _
  | logInfoUart payload => exact inBounds_cons (by decide) (by decide) _
  | ping => exact inBounds_cons (by decide) (by decide) _
  | receivedPacket mac payload =>
      have hpayload : payload.length ≤ 498 := hm.fields
      have hencode : encode (.receivedPacket mac payload) =
          ReceivedPacket.serialize .little { mac, data := payload } ++ [] := by
        simp [encode, ReceivedPacket.serialize_eq, packetBytes]
      rw [hencode]
      exact (inBounds_serialize_iff .little [] rfl (by dsimp only; omega)).mpr hpayload

/-! ## What a sequence of messages leads to -/

/-- The `START_HOST` messages passed to `serial_port_socket::write`. -/
def startHosts (d : EspnowUartDevice) : List (List UInt8) :=
  (d.serialPort.writeQueue.accepted.map PacketBuffer.buffer).filter (· = startHost)

/-- The effects of the messages `ms`, in order: a frame for each received packet and, from the first
announcement with the right header on, one `START_HOST`, one event and the announced details. -/
structure Delivered (initial : DeviceDetails) (ms : List DeviceMessage) (d : EspnowUartDevice) :
    Prop where
  frames_eq : d.tunFdWriteBuffers.accepted = frames ms
  requestedStart_eq : d.requestedStart = (firstStart ms).isSome
  startHosts_eq : d.startHosts = (firstStart ms).toList.map fun _ => startHost
  published_eq : d.published = (firstStart ms).toList.map fun _ => d.espnowId
  deviceDetails_eq : d.deviceDetails = (firstStart ms).elim initial (detailsOf env d.espnowId)

theorem startHosts_write (d : EspnowUartDevice) (packet : PacketBuffer 512) :
    startHosts { d with serialPort := { d.serialPort with
      writeQueue := d.serialPort.writeQueue.write packet } } =
        d.startHosts ++ if packet.buffer = startHost then [startHost] else [] := by
  simp only [startHosts, AsyncQueue.accepted_write, List.map_append, List.filter_append,
    List.map_cons, List.map_nil]
  split
  · next h => simp [h]
  · next h => simp [h]

variable {env} {initial : DeviceDetails}

theorem firstStart_concat (ms : List DeviceMessage) (m : DeviceMessage) :
    firstStart (ms ++ [m]) = (firstStart ms).or (start? m) := by
  rw [firstStart, List.findSome?_append, List.findSome?_singleton]
  rfl

theorem frames_concat (ms : List DeviceMessage) (m : DeviceMessage) :
    frames (ms ++ [m]) = frames ms ++ (frame? m).toList := by
  rw [frames, List.filterMap_append, List.filterMap_cons, List.filterMap_nil]
  cases frame? m <;> rfl

/-- A message that is no announcement with the right header changes the frames at most. -/
theorem Delivered.of_start?_eq_none {ms : List DeviceMessage} {d t : EspnowUartDevice}
    {m : DeviceMessage} (h : Delivered env initial ms d) (hstart : start? m = none)
    (hframes : t.tunFdWriteBuffers.accepted = d.tunFdWriteBuffers.accepted ++ (frame? m).toList)
    (ht : t = { d with tunFdWriteBuffers := t.tunFdWriteBuffers, statistics := t.statistics }) :
    Delivered env initial (ms ++ [m]) t := by
  have hfirst : firstStart (ms ++ [m]) = firstStart ms := by
    rw [firstStart_concat, hstart, Option.or_none]
  constructor
  · rw [hframes, h.frames_eq, frames_concat]
  all_goals rw [hfirst, ht]
  · exact h.requestedStart_eq
  · exact h.startHosts_eq
  · exact h.published_eq
  · exact h.deviceDetails_eq

/-- An announcement with the right header is answered iff it is the first one. -/
theorem Delivered.startDevice {ms : List DeviceMessage} {d : EspnowUartDevice}
    (h : Delivered env initial ms d) (message : StartDevice)
    (hheader : message.header.toList = deviceHeader) :
    Delivered env initial (ms ++ [.startDevice message]) (receiveStartDevice env d message) := by
  have hfirst : firstStart (ms ++ [.startDevice message]) = (firstStart ms).or (some message) := by
    rw [firstStart_concat, start?, if_pos hheader]
  have hframes : frames (ms ++ [.startDevice message]) = frames ms := by
    rw [frames_concat]
    exact List.append_nil _
  have hrequested := h.requestedStart_eq
  have hstartHosts := h.startHosts_eq
  have hpublished := h.published_eq
  cases hms : firstStart ms with
  | some first =>
      -- the answer has been given
      have hsame : receiveStartDevice env d message = d := by
        rw [receiveStartDevice, if_neg (by simp [hrequested, hms])]
      rw [hsame]
      constructor
      · rw [hframes, h.frames_eq]
      all_goals rw [hfirst, hms, Option.some_or, ← hms]
      · exact h.requestedStart_eq
      · exact h.startHosts_eq
      · exact h.published_eq
      · exact h.deviceDetails_eq
  | none =>
      -- this is the first one
      rw [hms] at hrequested hstartHosts hpublished
      rw [receiveStartDevice, if_pos ⟨hheader, hrequested⟩]
      constructor
      · rw [hframes]
        exact h.frames_eq
      all_goals rw [hfirst, hms, Option.none_or]
      · rfl
      · refine (startHosts_write d _).trans ?_
        rw [hstartHosts]
        rfl
      · show d.published ++ [d.espnowId] = _
        rw [hpublished]
        rfl
      · rfl

/-- One more message. -/
theorem Delivered.deliver {ms : List DeviceMessage} {d : EspnowUartDevice}
    (h : Delivered env initial ms d) (m : DeviceMessage) :
    Delivered env initial (ms ++ [m]) (deliver env d m) := by
  cases m with
  | startDevice message =>
      by_cases hheader : message.header.toList = deviceHeader
      · exact h.startDevice message hheader
      · have hsame : receiveStartDevice env d message = d := by
          rw [receiveStartDevice, if_neg (by simp [hheader])]
        refine h.of_start?_eq_none (if_neg hheader) ?_ ?_ <;>
          simp [EspnowUartDevice.deliver, hsame, frame?]
  | receivedPacket mac payload =>
      exact h.of_start?_eq_none rfl (AsyncQueue.accepted_write _ _) rfl
  | logInfo text => exact h.of_start?_eq_none rfl (List.append_nil _).symm rfl
  | logInfoUart payload => exact h.of_start?_eq_none rfl (List.append_nil _).symm rfl
  | ping => exact h.of_start?_eq_none rfl (List.append_nil _).symm rfl

/-- Any number of messages. -/
theorem Delivered.foldl {ms : List DeviceMessage} {d : EspnowUartDevice}
    (h : Delivered env initial ms d) (ns : List DeviceMessage) :
    Delivered env initial (ms ++ ns) (ns.foldl (EspnowUartDevice.deliver env) d) := by
  induction ns generalizing ms d with
  | nil => rwa [List.append_nil]
  | cons n ns ih =>
      rw [List.foldl_cons, List.append_cons]
      exact ih (h.deliver n)

/-- A name that ends within its field is recorded whatever lies behind it. -/
theorem detailsOf_congr (env env' : HostEnv) (espnowId : String) {message : StartDevice}
    (h : 0 ∈ message.deviceName.toList) :
    detailsOf env espnowId message = detailsOf env' espnowId message := by
  simp only [detailsOf, List.append_assoc, cString_append_of_mem h]

/-- Messages have the same effects on two machines, if the name that is recorded of them ends within
its field. -/
theorem foldl_deliver_congr (env env' : HostEnv) {ms : List DeviceMessage} {d : EspnowUartDevice}
    (h : d.requestedStart = false →
      ∀ message, firstStart ms = some message → 0 ∈ message.deviceName.toList) :
    ms.foldl (EspnowUartDevice.deliver env) d = ms.foldl (EspnowUartDevice.deliver env') d := by
  induction ms generalizing d with
  | nil => rfl
  | cons m ms ih =>
      have hfirst (hnone : start? m = none) : firstStart (m :: ms) = firstStart ms := by
        rw [firstStart, List.findSome?_cons, hnone]
        rfl
      rw [List.foldl_cons, List.foldl_cons]
      cases m with
      | startDevice message =>
          show ms.foldl _ (receiveStartDevice env d message) =
            ms.foldl _ (receiveStartDevice env' d message)
          by_cases hanswer : message.header.toList = deviceHeader ∧ d.requestedStart = false
          -- the name is recorded, and no other after it
          · have hname := h hanswer.2 message (by
              rw [firstStart, List.findSome?_cons, start?, if_pos hanswer.1])
            rw [receiveStartDevice, receiveStartDevice, if_pos hanswer, if_pos hanswer,
              detailsOf_congr env env' d.espnowId hname]
            exact ih (by rintro ⟨⟩)
          · rw [receiveStartDevice, receiveStartDevice, if_neg hanswer, if_neg hanswer]
            refine ih fun hrequested => ?_
            rw [← hfirst (if_neg fun hheader => hanswer ⟨hheader, hrequested⟩)]
            exact h hrequested
      | receivedPacket mac payload => exact ih (hfirst rfl ▸ h)
      | logInfo text => exact ih (hfirst rfl ▸ h)
      | logInfoUart payload => exact ih (hfirst rfl ▸ h)
      | ping => exact ih (hfirst rfl ▸ h)

/-! ## The other handlers -/

/-- What the handlers other than that of a serial read leave as it is. -/
theorem Delivered.congr {ms : List DeviceMessage} {d t : EspnowUartDevice}
    (h : Delivered env initial ms d)
    (hframes : t.tunFdWriteBuffers.accepted = d.tunFdWriteBuffers.accepted)
    (hstart : t.startHosts = d.startHosts)
    (ht : t = { d with
      serialPort := t.serialPort, tunFdBuffer := t.tunFdBuffer, tunReading := t.tunReading
      tunFdWriteBuffers := t.tunFdWriteBuffers, statistics := t.statistics }) :
    Delivered env initial ms t := by
  constructor
  · rw [hframes, h.frames_eq]
  · rw [ht]; exact h.requestedStart_eq
  · rw [hstart, h.startHosts_eq]
  · rw [ht]; exact h.published_eq
  · rw [ht]; exact h.deviceDetails_eq

/-- A forwarded frame is no `START_HOST`. -/
theorem Delivered.tunReadHandle {ms : List DeviceMessage} {d t : EspnowUartDevice}
    {frame : PacketBuffer 512} (h : Delivered env initial ms d)
    (ht : tunReadHandle env d false frame = some t) : Delivered env initial ms t := by
  rcases tunReadHandle_cases ht with ⟨buffer, rfl⟩ | ⟨packet, hfits, buffer, statistics, -, rfl⟩
  · exact h.congr rfl rfl rfl
  · refine h.congr rfl ?_ rfl
    -- a packet is at least 11 bytes long
    have hne : packet.serialize env.order ≠ startHost := by
      intro heq
      have hlen := packet.length_serialize env.order
      rw [heq, show startHost.length = 1 from rfl] at hlen
      omega
    refine (startHosts_write d _).trans ?_
    rw [if_neg hne, List.append_nil]

/-- A completed serial write changes neither what was written nor anything else. -/
theorem Delivered.writeCompleted {ms : List DeviceMessage} {d : EspnowUartDevice}
    {port : SerialPortSocket} (h : Delivered env initial ms d)
    (hport : d.serialPort.writeCompleted = some port) :
    Delivered env initial ms { d with serialPort := port } := by
  obtain ⟨q, hacc, rfl⟩ := SerialPortSocket.writeCompleted_cases hport
  exact h.congr rfl (by simp only [startHosts, hacc]) rfl

/-- A completed TAP write changes neither what was queued so far nor anything else. -/
theorem Delivered.tunWriteCompleted {ms : List DeviceMessage} {d t : EspnowUartDevice}
    (h : Delivered env initial ms d) (ht : d.tunWriteCompleted = some t) :
    Delivered env initial ms t := by
  obtain ⟨q, hacc, rfl⟩ := tunWriteCompleted_cases ht
  exact h.congr hacc rfl rfl

end EspnowUartDevice
