import EspNowOnLinux.Daemon.DeviceMessage

/-!
# Runs of the daemon on a stream of messages

The device object under everything that can happen to it: the outstanding serial read completes with
some of the bytes that are next in the stream, a TAP frame arrives, a serial or a TAP write
completes. Where the stream is cut into reads is part of the run.

## Main results

* `readHandle_stream`: what one serial read does to the device;
* `hostRun_parsed`: in every state of every run, exactly the messages whose bytes have all arrived
  have been handled, in order, and the receiving buffer holds the rest.
-/

open Framing Messages StateMachine

/-- The device object and what has happened on the serial line. -/
structure HostRun where
  device : EspnowUartDevice
  /-- The number of bytes received. -/
  received : ℕ
  /-- The spans of bytes consumed by `read_handle`. -/
  handled : List (List UInt8)

/-- What can happen to the device object. -/
inductive HostEvent
  /-- The outstanding serial read completes with the next bytes, this many. -/
  | serialRead (count : ℕ)
  /-- The outstanding TAP read completes with a frame. -/
  | tunRead (frame : PacketBuffer 512)
  /-- The serial write that was started first completes. -/
  | serialWritten
  /-- The TAP write that was started first completes. -/
  | tunWritten

namespace HostRun

open EspnowUartDevice

/-- Nothing has been received. -/
def start (d : EspnowUartDevice) : HostRun := ⟨d, 0, []⟩

/-- The outstanding read can complete with the next `count` bytes. -/
def CanRead (bytes : List UInt8) (s : HostRun) (count : ℕ) : Prop :=
  (∃ size, s.device.serialPort.readRequest = some size ∧ count ≤ size) ∧
    s.received + count ≤ bytes.length

instance (bytes : List UInt8) (s : HostRun) (count : ℕ) : Decidable (CanRead bytes s count) :=
  inferInstanceAs (Decidable (_ ∧ _))

/-- The state after an event, where the device sends `bytes`; `none` is an event that cannot happen
or undefined behaviour. A read that leaves the bounds of `packet_buffer` or of its span is. -/
def step (env : HostEnv) (bytes : List UInt8) (s : HostRun) : HostEvent → Option HostRun
  | .serialRead count =>
      if CanRead bytes s count then
        (readHandleInBounds env s.device ((bytes.drop s.received).take count)).map fun r =>
          ⟨r.1, s.received + count, s.handled ++ r.2⟩
      else none
  | .tunRead frame =>
      if s.device.tunReading then
        (tunReadHandle env s.device false frame).map fun d => { s with device := d }
      else none
  | .serialWritten =>
      s.device.serialPort.writeCompleted.map fun port =>
        { s with device := { s.device with serialPort := port } }
  | .tunWritten => s.device.tunWriteCompleted.map fun d => { s with device := d }

/-! ## One serial read -/

/-- The port after `n` bytes of a stream of messages: the buffer holds the incomplete tail, at index
`0`, and a read into the rest of the buffer is outstanding. -/
structure Listening (ms : List DeviceMessage) (n : ℕ) (port : SerialPortSocket) : Prop where
  wellFormed : port.buffer.WellFormed
  getData_eq : port.buffer.getData = tail DeviceMessage.encode ms n
  readIndex_eq : port.buffer.readIndex = 0
  readRequest_eq : port.readRequest = some port.buffer.getWritable.length

variable {env : HostEnv} {ms : List DeviceMessage}

variable (env) in
/-- A read of the next `count` bytes consumes the messages that they complete, with the effects of
these messages, and leaves the new tail. -/
theorem readHandle_stream (hms : ∀ m ∈ ms, m.WellFormed) {n count : ℕ} {d : EspnowUartDevice}
    (h : Listening ms n d.serialPort) (hcount : count ≤ d.serialPort.buffer.getWritable.length)
    (hn : n + count ≤ (stream DeviceMessage.encode ms).length) :
    ∃ buffer ns, complete DeviceMessage.encode ms n ++ ns =
        complete DeviceMessage.encode ms (n + count) ∧
      readHandle env d false (((stream DeviceMessage.encode ms).drop n).take count) =
        some ((ns.foldl (deliver env) d.readCompleted).rearm buffer,
          ns.map DeviceMessage.encode) ∧
      Listening ms (n + count)
        ((ns.foldl (deliver env) d.readCompleted).rearm buffer).serialPort := by
  obtain ⟨buffer, ns, hns, hloop, hwf, hdata, -⟩ := ReceivingBuffer.consumeLoop_read
    (fun d b => (d, b)) (handles_serialPortReadHandle env) d.readCompleted h.wellFormed hms
    h.getData_eq hcount hn rfl
  refine ⟨buffer.moveDataToFront, ns, hns, ?_, hwf.moveDataToFront, ?_,
    ReceivingBuffer.readIndex_moveDataToFront buffer, rfl⟩
  · rw [readHandle, if_neg Bool.false_ne_true]
    simp only [readInto, hloop]
    rfl
  -- moving the data to the front once more does not change it
  · rw [← hdata, ← hwf.getData_moveDataToFront]
    rfl

/-! ## Whole runs -/

/-- What an event can do. -/
theorem step_cases {bytes : List UInt8} {s t : HostRun} {e : HostEvent}
    (ht : step env bytes s e = some t) :
    (∃ count r, e = .serialRead count ∧ CanRead bytes s count ∧
        readHandle env s.device false ((bytes.drop s.received).take count) = some r ∧
        (∀ span ∈ r.2, InBounds span) ∧
        t = ⟨r.1, s.received + count, s.handled ++ r.2⟩) ∨
      (∃ frame d, e = .tunRead frame ∧ s.device.tunReading = true ∧
        tunReadHandle env s.device false frame = some d ∧ t = { s with device := d }) ∨
      (∃ port, e = .serialWritten ∧ s.device.serialPort.writeCompleted = some port ∧
        t = { s with device := { s.device with serialPort := port } }) ∨
      ∃ d, e = .tunWritten ∧ s.device.tunWriteCompleted = some d ∧ t = { s with device := d } := by
  cases e with
  | serialRead count =>
      rw [step, Option.ite_none_right_eq_some] at ht
      obtain ⟨hcan, ht⟩ := ht
      obtain ⟨r, hr, rfl⟩ := Option.map_eq_some_iff.mp ht
      obtain ⟨hr, hbounds⟩ := readHandleInBounds_eq_some.mp hr
      exact Or.inl ⟨count, r, rfl, hcan, hr, hbounds, rfl⟩
  | tunRead frame =>
      rw [step, Option.ite_none_right_eq_some] at ht
      obtain ⟨hreading, ht⟩ := ht
      obtain ⟨d, hd, rfl⟩ := Option.map_eq_some_iff.mp ht
      exact Or.inr (Or.inl ⟨frame, d, rfl, hreading, hd, rfl⟩)
  | serialWritten =>
      obtain ⟨port, hport, rfl⟩ := Option.map_eq_some_iff.mp ht
      exact Or.inr (Or.inr (Or.inl ⟨port, rfl, hport, rfl⟩))
  | tunWritten =>
      obtain ⟨d, hd, rfl⟩ := Option.map_eq_some_iff.mp ht
      exact Or.inr (Or.inr (Or.inr ⟨d, rfl, hd, rfl⟩))

/-- After `s.received` bytes of the stream of `ms`, exactly the messages whose bytes have all
arrived have been handled, in order and with the effects of `Delivered`, the rest is in the buffer
at index `0`, a read into the rest of the buffer is outstanding, and the next bytes can be handled
however many of them arrive. -/
structure Parsed (env : HostEnv) (initial : DeviceDetails) (ms : List DeviceMessage) (s : HostRun) :
    Prop where
  handled_eq : s.handled = (complete DeviceMessage.encode ms s.received).map DeviceMessage.encode
  getData_eq : s.device.serialPort.buffer.getData = tail DeviceMessage.encode ms s.received
  readIndex_eq : s.device.serialPort.buffer.readIndex = 0
  delivered : Delivered env initial (complete DeviceMessage.encode ms s.received) s.device
  readRequest_eq : s.device.serialPort.readRequest =
    some s.device.serialPort.buffer.getWritable.length
  defined : ∀ count, CanRead (stream DeviceMessage.encode ms) s count →
    (step env (stream DeviceMessage.encode ms) s (.serialRead count)).isSome

/-- The invariant of the runs: `Parsed` with what it rests on. -/
structure Inv (env : HostEnv) (initial : DeviceDetails) (ms : List DeviceMessage) (s : HostRun) :
    Prop where
  received_le : s.received ≤ (stream DeviceMessage.encode ms).length
  handled_eq : s.handled = (complete DeviceMessage.encode ms s.received).map DeviceMessage.encode
  delivered : Delivered env initial (complete DeviceMessage.encode ms s.received) s.device
  listening : Listening ms s.received s.device.serialPort

variable {initial : DeviceDetails}

/-- A serial read that can complete is handled and keeps the invariant. -/
theorem Inv.serialRead (hms : ∀ m ∈ ms, m.WellFormed) {s : HostRun} (h : Inv env initial ms s)
    {count : ℕ} (hcan : CanRead (stream DeviceMessage.encode ms) s count) :
    ∃ t, step env (stream DeviceMessage.encode ms) s (.serialRead count) = some t ∧
      Inv env initial ms t ∧
        ∃ (ns : List DeviceMessage) (buffer : ReceivingBuffer (1024 * 4)),
          t.device = (ns.foldl (deliver env) s.device.readCompleted).rearm buffer := by
  obtain ⟨⟨size, hsize, hcount⟩, hreceived⟩ := id hcan
  rw [h.listening.readRequest_eq, Option.some.injEq] at hsize
  obtain ⟨buffer, ns, hns, hread, hlistening⟩ :=
    readHandle_stream env hms h.listening (hsize ▸ hcount) hreceived
  have hdelivered : Delivered env initial (complete DeviceMessage.encode ms s.received)
      s.device.readCompleted := h.delivered.congr rfl rfl rfl
  refine ⟨⟨(ns.foldl (deliver env) s.device.readCompleted).rearm buffer, s.received + count,
    s.handled ++ ns.map DeviceMessage.encode⟩, ?_, ⟨hreceived, ?_, ?_, hlistening⟩, ns, buffer, rfl⟩
  · rw [step, if_pos hcan, readHandleInBounds_eq_some.mpr ⟨hread, fun span hspan => ?_⟩]
    · rfl
    -- the messages that are handled are among those that the device sends
    · obtain ⟨m, hm, rfl⟩ := List.mem_map.mp hspan
      have hsent : complete DeviceMessage.encode ms (s.received + count) <+: ms :=
        complete_prefix ms _
      exact inBounds_encode (hms m (hsent.subset (hns ▸ List.mem_append_right _ hm)))
  · rw [h.handled_eq, ← List.map_append, hns]
  · rw [← hns]
    exact (hdelivered.foldl ns).congr rfl rfl rfl

/-- Every event keeps the invariant. -/
theorem inv_step (hms : ∀ m ∈ ms, m.WellFormed) (s : HostRun) (e : HostEvent) (t : HostRun)
    (h : Inv env initial ms s) (ht : step env (stream DeviceMessage.encode ms) s e = some t) :
    Inv env initial ms t := by
  rcases step_cases ht with ⟨count, r, rfl, hcan, -, -, -⟩ | ⟨frame, d, rfl, -, hd, rfl⟩ |
    ⟨port, rfl, hport, rfl⟩ | ⟨d, rfl, hd, rfl⟩
  · obtain ⟨t', ht', hinv, -⟩ := h.serialRead hms hcan
    rw [ht, Option.some.injEq] at ht'
    exact ht' ▸ hinv
  -- the other events leave the receiving side of the port alone
  · refine ⟨h.received_le, h.handled_eq, h.delivered.tunReadHandle hd, ?_⟩
    rcases tunReadHandle_cases hd with ⟨_, rfl⟩ | ⟨_, _, _, _, _, rfl⟩
    · exact h.listening
    · exact ⟨h.listening.1, h.listening.2, h.listening.3, h.listening.4⟩
  · refine ⟨h.received_le, h.handled_eq, h.delivered.writeCompleted hport, ?_⟩
    obtain ⟨q, -, rfl⟩ := SerialPortSocket.writeCompleted_cases hport
    exact ⟨h.listening.1, h.listening.2, h.listening.3, h.listening.4⟩
  · refine ⟨h.received_le, h.handled_eq, h.delivered.tunWriteCompleted hd, ?_⟩
    obtain ⟨q, -, rfl⟩ := tunWriteCompleted_cases hd
    exact h.listening

/-- The invariant does not depend on what the device sends later. -/
theorem Inv.append {s : HostRun} (h : Inv env initial ms s) (ns : List DeviceMessage) :
    Inv env initial (ms ++ ns) s := by
  have hcomplete := complete_append DeviceMessage.encode_ne_nil h.received_le ns
  have htail := tail_append DeviceMessage.encode_ne_nil h.received_le ns
  refine ⟨?_, ?_, ?_, ?_⟩
  · rw [stream_append, List.length_append]
    exact Nat.le_add_right_of_le h.received_le
  · rw [hcomplete, h.handled_eq]
  · rw [hcomplete]
    exact h.delivered
  · exact ⟨h.listening.1, htail ▸ h.listening.2, h.listening.3, h.listening.4⟩

/-- The invariant implies what it is for. -/
theorem Inv.parsed (hms : ∀ m ∈ ms, m.WellFormed) {s : HostRun} (h : Inv env initial ms s) :
    Parsed env initial ms s where
  handled_eq := h.handled_eq
  getData_eq := h.listening.getData_eq
  readIndex_eq := h.listening.readIndex_eq
  delivered := h.delivered
  readRequest_eq := h.listening.readRequest_eq
  defined count hcan := by
    obtain ⟨t, ht, -⟩ := h.serialRead hms hcan
    exact ht ▸ rfl

/-- A new device object has received nothing and done nothing. -/
theorem inv_start (env : HostEnv) (contents : List.Vector UInt8 (1024 * 4)) (id : String)
    (details : DeviceDetails) (tunFdBuffer : List.Vector UInt8 512) (ms : List DeviceMessage) :
    Inv env { details with deviceName := [] } ms
      (start (.new (.new contents) id details tunFdBuffer)) := by
  have hcomplete := complete_zero DeviceMessage.encode_ne_nil ms
  have htail := tail_zero DeviceMessage.encode_ne_nil ms
  refine ⟨Nat.zero_le _, ?_, ?_, ?_⟩
  · show [] = (complete DeviceMessage.encode ms 0).map DeviceMessage.encode
    rw [hcomplete, List.map_nil]
  · show Delivered env _ (complete DeviceMessage.encode ms 0) _
    rw [hcomplete]
    exact ⟨rfl, rfl, rfl, rfl, rfl⟩
  · exact ⟨ReceivingBuffer.wellFormed_new contents, htail.symm, rfl, rfl⟩

/-- In every run of a new device object on a stream of messages, cut into reads in any way and
interleaved with TAP frames and completed writes in any way, every state is `Parsed`. -/
theorem hostRun_parsed (env : HostEnv) (contents : List.Vector UInt8 (1024 * 4)) (id : String)
    (details : DeviceDetails) (tunFdBuffer : List.Vector UInt8 512) (ms : List DeviceMessage)
    (hms : ∀ m ∈ ms, m.WellFormed) (es : List HostEvent) :
    Always (step env (stream DeviceMessage.encode ms))
      (Parsed env { details with deviceName := [] } ms)
      (start (.new (.new contents) id details tunFdBuffer)) es :=
  always_of_invariant (inv_step hms) (fun _ h => h.parsed hms)
    (inv_start env contents id details tunFdBuffer ms) es

/-- A ping and two packets, cut in the header of the first packet and behind the id of the second;
then a frame has been written. -/
theorem hostRun_parsed_packet :
    let ms :=
      [.ping, .receivedPacket (.replicate 6 7) [1, 82], .receivedPacket (.replicate 6 8) [3]]
    let details : DeviceDetails := ⟨[], .replicate 6 0, 0, ⟨0, 0, 0⟩⟩
    let env : HostEnv := ⟨.little, fun _ => []⟩
    let s₀ := start (.new (.new (.replicate _ 0)) "espnow0" details (.replicate _ 0))
    let es := [.serialRead 6, .serialRead 12, .serialRead 11, .tunWritten]
    (run (step env (stream DeviceMessage.encode ms)) s₀ es).map
        (fun s => (s.handled, s.device.tunFdWriteBuffers.written)) =
      some (ms.map DeviceMessage.encode, [tapFrame (.replicate 6 7) [1, 82]]) ∧
    Always (step env (stream DeviceMessage.encode ms)) (Parsed env details ms) s₀ es := by
  intro ms details env s₀ es
  refine ⟨by decide +kernel, hostRun_parsed env (.replicate _ 0) "espnow0" details (.replicate _ 0)
    ms ?_ es⟩
  intro m hm
  simp only [ms, List.mem_cons, List.not_mem_nil, or_false] at hm
  rcases hm with rfl | rfl | rfl
  · exact ⟨trivial, by decide⟩
  · exact ⟨show 2 ≤ 498 by decide, by decide⟩
  · exact ⟨show 1 ≤ 498 by decide, by decide⟩

end HostRun
