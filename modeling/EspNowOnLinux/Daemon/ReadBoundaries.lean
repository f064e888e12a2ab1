import EspNowOnLinux.Daemon.AnyStream
import EspNowOnLinux.Daemon.MessageCodec

/-!
# Where the reads are cut

Two runs of the daemon on one stream of bytes that is cut into reads in two ways. Data that starts
with no known id is dropped as far as it has arrived, so the cut matters where there is an unknown
id. It does not matter anywhere else.

## Main results

* `handleSerialPacket_withPort`: the handler neither looks at the receiving side of the port nor
  changes it;
* `sameOutcome_of_reads`: on a stream of known messages, with payloads that fit a frame and a device
  name that ends within its field, every read is handled and the two runs agree;
* `sameOutcome_fails`: a stream with an unknown id, where they do not.
-/

open Bytes Framing Messages StateMachine

namespace EspnowUartDevice

/-! ## The receiving side of the port -/

/-- The device with another buffer and another outstanding read. -/
def withPort (d : EspnowUartDevice) (buffer : ReceivingBuffer (1024 * 4))
    (readRequest : Option ℕ) : EspnowUartDevice :=
  { d with serialPort := { d.serialPort with buffer, readRequest } }

variable (env : HostEnv) (d : EspnowUartDevice) (buffer : ReceivingBuffer (1024 * 4))
  (readRequest : Option ℕ)

theorem answerStartDevice_withPort (data : List UInt8) :
    answerStartDevice env (d.withPort buffer readRequest) data =
      (answerStartDevice env d data).map fun t => t.withPort buffer readRequest := by
  rw [answerStartDevice, answerStartDevice, SerialPortSocket.write_eq _ (by decide),
    SerialPortSocket.write_eq _ (by decide)]
  cases StartDevice.read data {} <;> rfl

/-- The handler neither looks at the receiving side of the port nor changes it. -/
theorem handleSerialPacket_withPort (data : List UInt8) :
    handleSerialPacket env (d.withPort buffer readRequest) data =
      (handleSerialPacket env d data).map fun r =>
        { r with state := r.state.withPort buffer readRequest } := by
  cases data with
  | nil => rfl
  | cons id tail =>
      simp only [handleSerialPacket, answerStartDevice_withPort]
      split
      -- `START_DEVICE`
      · split
        · have hrequested : (d.withPort buffer readRequest).requestedStart = d.requestedStart := rfl
          rw [hrequested]
          by_cases hfirst : ((id :: tail).drop 1).take 13 = deviceHeader ∧ d.requestedStart = false
          · rw [if_pos hfirst, if_pos hfirst, Option.map_map, Option.map_map]
            rfl
          · rw [if_neg hfirst, if_neg hfirst]
            rfl
        · rfl
      split
      -- `LOG_INFO`
      · split <;> rfl
      split
      -- `LOG_INFO_UART`
      · split
        · rfl
        · split <;> rfl
      split
      -- `PING`
      · split <;> rfl
      split
      -- `RECEIVED_PACKET`
      · split
        · rfl
        · split
          · rfl
          · rw [Option.map_map]
            rfl
      · rfl

/-- Neither does a complete message. -/
theorem afterMessage_withPort (message : List UInt8) :
    afterMessage env (d.withPort buffer readRequest) message =
      (afterMessage env d message).withPort buffer readRequest := by
  rw [afterMessage, afterMessage, handleSerialPacket_withPort]
  cases handleSerialPacket env d message <;> rfl

theorem foldl_afterMessage_withPort (ms : List (List UInt8)) :
    ms.foldl (afterMessage env) (d.withPort buffer readRequest) =
      (ms.foldl (afterMessage env) d).withPort buffer readRequest := by
  induction ms generalizing d with
  | nil => rfl
  | cons m ms ih => rw [List.foldl_cons, afterMessage_withPort, ih, List.foldl_cons]

end EspnowUartDevice

namespace HostRun

open EspnowUartDevice

variable {env env' : HostEnv} {bytes : List UInt8}

/-! ## Whole runs -/

/-- Complete messages and what follows them: no unknown id comes up, the frames of the packets fit
their array, and the device name that is recorded ends within its field. -/
structure Regular (ms : List (List UInt8)) (rest : List UInt8) : Prop where
  known : ¬ Unknown rest
  inBounds : ∀ m ∈ ms, InBounds m
  named : ∀ message, DeviceMessage.firstStart (ms.filterMap decode?) = some message →
    0 ∈ message.deviceName.toList

/-- What two runs have in common: the messages handled, the TAP frames queued, the statistics, the
details of the device and the bytes left in the buffer. -/
structure SameOutcome (s t : HostRun) : Prop where
  handled_eq : s.handled = t.handled
  tunFdWriteBuffers_eq : s.device.tunFdWriteBuffers = t.device.tunFdWriteBuffers
  statistics_eq : s.device.statistics = t.device.statistics
  deviceDetails_eq : s.device.deviceDetails = t.device.deviceDetails
  getData_eq : s.device.serialPort.buffer.getData = t.device.serialPort.buffer.getData

/-- What has been received is the messages `ms`, which have been handled, and `rest`, which is in
the buffer; and the device is the device `d` after `ms`. -/
structure After (env : HostEnv) (bytes : List UInt8) (d : EspnowUartDevice) (s : HostRun)
    (ms : List (List UInt8)) (rest : List UInt8) : Prop where
  received_le : s.received ≤ bytes.length
  ready : Ready s.device.serialPort
  cut : Cut messageLength? (bytes.take s.received) ms rest
  handled_eq : s.handled = ms
  getData_eq : s.device.serialPort.buffer.getData = rest
  device_eq : ∃ buffer readRequest,
    s.device = (ms.foldl (afterMessage env) d).withPort buffer readRequest

/-- The part of a regular stream that has been received is regular. -/
theorem Regular.received {all ms : List (List UInt8)} {last rest : List UInt8}
    (h : Regular all last) (hall : Cut messageLength? bytes all last) {count : ℕ}
    (hcut : Cut messageLength? (bytes.take count) ms rest) :
    ¬ Unknown rest ∧ ∀ m ∈ ms, InBounds m := by
  rw [← List.take_append_drop count bytes] at hall
  obtain ⟨later, rfl, hlater⟩ := hcut.of_append selfDelimiting_messageLength? hall
  refine ⟨fun hunknown => ?_, fun m hm => h.inBounds m (List.mem_append_left later hm)⟩
  cases rest with
  | nil => exact hunknown
  | cons id tail =>
      -- what starts with an unknown id is no message, whatever follows
      have hnone : messageLength? (id :: (tail ++ bytes.drop count)) = none := by
        rw [messageLength?, announcedLength?_of_unknown _ hunknown]
        rfl
      obtain ⟨-, rfl⟩ := hlater.unique selfDelimiting_messageLength? (cut_of_none hnone)
      exact h.known hunknown

section Reads

variable {d : EspnowUartDevice} {s t : HostRun} {all ms : List (List UInt8)}
  {last rest : List UInt8} {count : ℕ}

/-- The cut of the buffered bytes is part of that of the stream. -/
theorem After.cut_append (h : After env bytes d s ms rest) {ms' : List (List UInt8)}
    {rest' : List UInt8} (hcut : Cut messageLength? (buffered bytes s count) ms' rest') :
    Cut messageLength? (bytes.take (s.received + count)) (ms ++ ms') rest' := by
  rw [List.take_add]
  rw [buffered, h.getData_eq] at hcut
  exact h.cut.append hcut

/-- A read that can complete is handled. -/
theorem After.isSome_serialRead (h : After env bytes d s ms rest) (hregular : Regular all last)
    (hall : Cut messageLength? bytes all last) (hcan : CanRead bytes s count) :
    (step env bytes s (.serialRead count)).isSome := by
  obtain ⟨ms', rest', hcut⟩ := selfDelimiting_messageLength?.exists_cut (buffered bytes s count)
  obtain ⟨hknown, hbounds⟩ := hregular.received hall (h.cut_append hcut)
  rw [h.ready.isSome_serialRead_iff env hcan, consumesInBounds_iff hcut, dumped, if_neg hknown,
    List.append_nil]
  exact fun m hm => hbounds m (List.mem_append_right ms hm)

/-- A read of the next bytes. -/
theorem After.serialRead (h : After env bytes d s ms rest) (hregular : Regular all last)
    (hall : Cut messageLength? bytes all last)
    (ht : step env bytes s (.serialRead count) = some t) :
    ∃ ms' rest', After env bytes d t ms' rest' := by
  have hcan := canRead_of_step ht
  obtain ⟨buffer₀, readRequest, hdevice⟩ := h.device_eq
  obtain ⟨ms', rest', hcut⟩ := selfDelimiting_messageLength?.exists_cut (buffered bytes s count)
  obtain ⟨buffer, rfl, hwf, hkept, hindex⟩ := h.ready.serialRead ht hcut
  have hcut' := h.cut_append hcut
  -- nothing is dropped
  obtain ⟨hknown, -⟩ := hregular.received hall hcut'
  rw [kept, if_neg hknown] at hkept
  rw [dumped, if_neg hknown, List.append_nil]
  refine ⟨ms ++ ms', rest', hcan.2, ⟨hwf, hindex, rfl⟩, hcut', congrArg (· ++ ms') h.handled_eq,
    hkept, buffer, some buffer.getWritable.length, ?_⟩
  have hcompleted : s.device.readCompleted =
      (ms.foldl (afterMessage env) d).withPort buffer₀ none := by
    rw [hdevice]
    rfl
  show ((ms'.foldl (afterMessage env) s.device.readCompleted).rearm buffer) = _
  rw [hcompleted, foldl_afterMessage_withPort, List.foldl_append]
  rfl

/-- Any number of reads. -/
theorem After.run (hregular : Regular all last) (hall : Cut messageLength? bytes all last)
    (h : ∃ ms rest, After env bytes d s ms rest) {counts : List ℕ}
    (hrun : StateMachine.run (step env bytes) s (counts.map .serialRead) = some t) :
    ∃ ms rest, After env bytes d t ms rest := by
  induction counts generalizing s with
  | nil => exact Option.some.inj hrun ▸ h
  | cons count counts ih =>
      obtain ⟨u, hu, hrun⟩ := run_cons_eq_some.mp hrun
      obtain ⟨ms, rest, h⟩ := h
      exact ih (h.serialRead hregular hall hu) hrun

end Reads

/-- A new device object has received nothing. -/
theorem after_fresh (env : HostEnv) (bytes : List UInt8) (contents : List.Vector UInt8 (1024 * 4))
    (id : String) (details : DeviceDetails) (tunFdBuffer : List.Vector UInt8 512) :
    After env bytes (fresh contents id details tunFdBuffer).device
      (fresh contents id details tunFdBuffer) [] [] :=
  ⟨Nat.zero_le _, ready_fresh contents id details tunFdBuffer, cut_of_none rfl, rfl, rfl,
    _, _, rfl⟩

/-- Two runs in which the whole stream was read agree. -/
theorem After.sameOutcome {d : EspnowUartDevice} {s t : HostRun} {all ms ms' : List (List UInt8)}
    {last rest rest' : List UInt8} (h : After env bytes d s ms rest)
    (h' : After env' bytes d t ms' rest') (hregular : Regular all last)
    (hall : Cut messageLength? bytes all last) (hreceived : s.received = bytes.length)
    (hreceived' : t.received = bytes.length) : SameOutcome s t := by
  have hcut := h.cut
  have hcut' := h'.cut
  rw [hreceived, List.take_length] at hcut
  rw [hreceived', List.take_length] at hcut'
  obtain ⟨rfl, rfl⟩ := hall.unique selfDelimiting_messageLength? hcut
  obtain ⟨rfl, rfl⟩ := hall.unique selfDelimiting_messageLength? hcut'
  obtain ⟨buffer, readRequest, hdevice⟩ := h.device_eq
  obtain ⟨buffer', readRequest', hdevice'⟩ := h'.device_eq
  -- the messages have the same effects, as the name that is recorded ends within its field
  rw [foldl_afterMessage env hall.complete, foldl_deliver_congr env env' fun _ => hregular.named,
    ← foldl_afterMessage env' hall.complete] at hdevice
  refine ⟨?_, ?_, ?_, ?_, ?_⟩
  · rw [h.handled_eq, h'.handled_eq]
  · rw [hdevice, hdevice']
    rfl
  · rw [hdevice, hdevice']
    rfl
  · rw [hdevice, hdevice']
    rfl
  · rw [h.getData_eq, h'.getData_eq]

/-- On a regular stream of bytes every read that can complete is handled, and however two runs cut
the stream into reads, and whatever lies in memory behind what they read of it, once they have read
the whole stream the outcome is the same. -/
theorem sameOutcome_of_reads {bytes : List UInt8} {ms : List (List UInt8)} {rest : List UInt8}
    (hcut : Cut messageLength? bytes ms rest) (hregular : Regular ms rest) (env env' : HostEnv)
    (contents : List.Vector UInt8 (1024 * 4)) (id : String) (details : DeviceDetails)
    (tunFdBuffer : List.Vector UInt8 512) {counts counts' : List ℕ} {s t : HostRun}
    (hs : run (step env bytes) (fresh contents id details tunFdBuffer)
      (counts.map .serialRead) = some s)
    (ht : run (step env' bytes) (fresh contents id details tunFdBuffer)
      (counts'.map .serialRead) = some t) :
    (∀ count, CanRead bytes s count → (step env bytes s (.serialRead count)).isSome) ∧
      (s.received = bytes.length → t.received = bytes.length → SameOutcome s t) := by
  obtain ⟨ms₁, rest₁, h⟩ := After.run hregular hcut
    ⟨[], [], after_fresh env bytes contents id details tunFdBuffer⟩ hs
  obtain ⟨ms₂, rest₂, h'⟩ := After.run hregular hcut
    ⟨[], [], after_fresh env' bytes contents id details tunFdBuffer⟩ ht
  exact ⟨fun count => h.isSome_serialRead hregular hcut, h.sameOutcome h' hregular hcut⟩

/-- An announcement, a packet and the start of a text, in two reads and in one, on two machines. -/
theorem sameOutcome_of_reads_packet :
    let message : StartDevice := { deviceName := ⟨[69, 83, 80, 51, 50, 45, 67, 51, 0, 0], rfl⟩ }
    let packet : List UInt8 := [82, 7, 7, 7, 7, 7, 7, 0, 0, 0, 1, 9]
    let bytes := message.toBytes ++ packet ++ [73, 65]
    let s₀ := fresh (.replicate _ 0) "espnow0" ⟨[], .replicate 6 0, 0, ⟨0, 0, 0⟩⟩ (.replicate _ 0)
    let env : HostEnv := ⟨.little, fun _ => []⟩
    let env' : HostEnv := ⟨.big, fun _ => [1]⟩
    ∃ s t, run (step env bytes) s₀ ([40, 8].map .serialRead) = some s ∧
      run (step env' bytes) s₀ ([48].map .serialRead) = some t ∧
      s.handled = [message.toBytes, packet] ∧ SameOutcome s t := by
  intro message packet bytes s₀ env env'
  have hcut : Cut messageLength? bytes [message.toBytes, packet] [73, 65] :=
    ⟨rfl, by decide, by decide⟩
  have hfirst : DeviceMessage.firstStart ([message.toBytes, packet].filterMap decode?) =
      some message := by decide
  have hregular : Regular [message.toBytes, packet] [73, 65] := by
    refine ⟨by decide, by decide, fun first h => ?_⟩
    rw [hfirst, Option.some.injEq] at h
    exact h ▸ by decide
  have hrun : (run (step env bytes) s₀ ([40, 8].map .serialRead)).map
      (fun s => (s.received, s.handled)) = some (48, [message.toBytes, packet]) := by
    decide +kernel
  have hrun' : (run (step env' bytes) s₀ ([48].map .serialRead)).map received = some 48 := by
    decide +kernel
  obtain ⟨s, hs, heq⟩ := Option.map_eq_some_iff.mp hrun
  obtain ⟨t, ht, hreceived'⟩ := Option.map_eq_some_iff.mp hrun'
  obtain ⟨hreceived, hhandled⟩ := Prod.mk.inj heq
  exact ⟨s, t, hs, ht, hhandled,
    (sameOutcome_of_reads hcut hregular _ _ _ _ _ _ hs ht).2 hreceived hreceived'⟩

/-- A line of bytes that are no message, in front of a packet: in one read with it the packet is
dropped, in a read of its own it is not. -/
theorem sameOutcome_fails :
    let packet : List UInt8 := [82, 7, 7, 7, 7, 7, 7, 0, 0, 0, 21] ++ List.replicate 21 9
    let bytes : List UInt8 := List.replicate 32 2 ++ packet
    let s₀ := fresh (.replicate _ 0) "espnow0" ⟨[], .replicate 6 0, 0, ⟨0, 0, 0⟩⟩ (.replicate _ 0)
    let env : HostEnv := ⟨.little, fun _ => []⟩
    ∃ s t, run (step env bytes) s₀ ([64].map .serialRead) = some s ∧
      run (step env bytes) s₀ ([32, 32].map .serialRead) = some t ∧
      s.received = bytes.length ∧ t.received = bytes.length ∧ ¬ SameOutcome s t := by
  intro packet bytes s₀ env
  have hrun : (run (step env bytes) s₀ ([64].map .serialRead)).map
      (fun s => (s.received, s.handled)) = some (64, [bytes]) := by decide +kernel
  have hrun' : (run (step env bytes) s₀ ([32, 32].map .serialRead)).map
      (fun s => (s.received, s.handled)) = some (64, [List.replicate 32 2, packet]) := by
    decide +kernel
  obtain ⟨s, hs, heq⟩ := Option.map_eq_some_iff.mp hrun
  obtain ⟨t, ht, heq'⟩ := Option.map_eq_some_iff.mp hrun'
  obtain ⟨hreceived, hhandled⟩ := Prod.mk.inj heq
  obtain ⟨hreceived', hhandled'⟩ := Prod.mk.inj heq'
  refine ⟨s, t, hs, ht, hreceived, hreceived', fun h => ?_⟩
  have hsame := h.handled_eq
  rw [hhandled, hhandled'] at hsame
  exact absurd hsame (by decide)

end HostRun
