import EspNowOnLinux.Control.DeviceManager
import EspNowOnLinux.Daemon.AnyStream
import EspNowOnLinux.Daemon.MessageCodec
import EspNowOnLinux.Daemon.SerialOutput
import EspNowOnLinux.Lib.Receiver

/-!
# The accounts of a device

What a device object has done after any run, whatever bytes the serial port and the TAP device have
brought: told by the bytes and the frames that were read, and by nothing else.

## Main results

* `step_cases`: what an event can do;
* `accounts_run`: each byte read is part of a message that has been handled, part of a rest that was
  dropped, or in the buffer; the frames queued, the packets written, the answer to the handshake,
  the details and the statistics are just those of the messages handled and the frames read; and
  which bytes the next read may bring.
-/

open Bridging Bytes Framing Messages SerialLine StateMachine

namespace EspnowUartDevice

/-- The bytes that the serial reads bring, read by read. -/
def serialReads (es : List Event) : List (List UInt8) :=
  es.filterMap fun
    | .serialRead bytes => some bytes
    | _ => none

/-- The frames that the TAP reads bring. -/
def tunReads (es : List Event) : List (PacketBuffer 512) :=
  es.filterMap fun
    | .tunRead frame => some frame
    | _ => none

/-- After the messages `ms` and the TAP frames `tapped`: the frames queued, the answer, the event
and the details are those of `ms`, the packets written are those of `tapped`, and the statistics
count both. -/
structure Accounts (env : HostEnv) (initial : DeviceDetails) (tapped : List (PacketBuffer 512))
    (ms : List DeviceMessage) (d : EspnowUartDevice) : Prop where
  delivered : Delivered env initial ms d
  written : Written env.order (forwardedPackets tapped) d.requestedStart
    d.serialPort.writeQueue.accepted
  broadcastReceived_eq : d.statistics.broadcastReceived = (DeviceMessage.frames ms).length
  broadcastSent_eq : d.statistics.broadcastSent = (forwardedPackets tapped).length

variable {env : HostEnv} {initial : DeviceDetails} {d t : EspnowUartDevice}

/-! ## What the handlers count -/

/-- The packets counted are those whose frames have been queued. -/
def CountsFrames (d : EspnowUartDevice) : Prop :=
  d.statistics.broadcastReceived = d.tunFdWriteBuffers.accepted.length

variable (env) in
theorem countsFrames_deliver (h : CountsFrames d) (m : DeviceMessage) :
    CountsFrames (deliver env d m) := by
  cases m with
  | startDevice message =>
      show CountsFrames (receiveStartDevice env d message)
      unfold receiveStartDevice
      split <;> exact h
  -- a frame is queued and counted
  | receivedPacket mac payload =>
      show _ + 1 = (d.tunFdWriteBuffers.write (tapFrame mac payload)).accepted.length
      rw [AsyncQueue.accepted_write, List.length_append, h]
      rfl
  | logInfo text => exact h
  | logInfoUart payload => exact h
  | ping => exact h

theorem broadcastSent_deliver (d : EspnowUartDevice) (m : DeviceMessage) :
    (deliver env d m).statistics.broadcastSent = d.statistics.broadcastSent := by
  cases m with
  | startDevice message =>
      show (receiveStartDevice env d message).statistics.broadcastSent = _
      unfold receiveStartDevice
      split <;> rfl
  | receivedPacket mac payload => rfl
  | logInfo text => rfl
  | logInfoUart payload => rfl
  | ping => rfl

variable (env) in
/-- Messages count themselves, and no frame that is sent. -/
theorem foldl_deliver_counts (h : CountsFrames d) (ms : List DeviceMessage) :
    CountsFrames (ms.foldl (deliver env) d) ∧
      (ms.foldl (deliver env) d).statistics.broadcastSent = d.statistics.broadcastSent := by
  induction ms generalizing d with
  | nil => exact ⟨h, rfl⟩
  | cons m ms ih =>
      obtain ⟨hcounts, hsent⟩ := ih (countsFrames_deliver env h m)
      exact ⟨hcounts, hsent.trans (broadcastSent_deliver d m)⟩

/-! ## What an event does -/

/-- What an event can do. -/
theorem step_cases {e : Event} (ht : step env d e = some t) :
    (∃ bytes size r, e = .serialRead bytes ∧ d.serialPort.readRequest = some size ∧
        bytes.length ≤ size ∧ readHandleInBounds env d bytes = some r ∧ t = r.1) ∨
      (∃ frame, e = .tunRead frame ∧ d.tunReading = true ∧
        tunReadHandle env d false frame = some t) ∨
      (∃ port, e = .serialWritten ∧ d.serialPort.writeCompleted = some port ∧
        t = { d with serialPort := port }) ∨
      (e = .tunWritten ∧ d.tunWriteCompleted = some t) := by
  cases e with
  | serialRead bytes =>
      rw [step] at ht
      split at ht
      · next size hsize =>
        rw [Option.ite_none_right_eq_some] at ht
        obtain ⟨hle, ht⟩ := ht
        obtain ⟨r, hr, rfl⟩ := Option.map_eq_some_iff.mp ht
        exact Or.inl ⟨bytes, size, r, rfl, hsize, hle, hr, rfl⟩
      · cases ht
  | tunRead frame =>
      rw [step, Option.ite_none_right_eq_some] at ht
      exact Or.inr (Or.inl ⟨frame, rfl, ht⟩)
  | serialWritten =>
      obtain ⟨port, hport, rfl⟩ := Option.map_eq_some_iff.mp ht
      exact Or.inr (Or.inr (Or.inl ⟨port, rfl, hport, rfl⟩))
  | tunWritten => exact Or.inr (Or.inr (Or.inr ⟨rfl, ht⟩))

section SerialRead

variable {bytes : List UInt8} {size : ℕ}

/-- A read that has been handled has been handled as the cut of the bytes in the buffer says. -/
theorem readHandleInBounds_cut (h : HostRun.Ready d.serialPort)
    (hsize : d.serialPort.readRequest = some size) (hle : bytes.length ≤ size)
    {r : EspnowUartDevice × List (List UInt8)} (hr : readHandleInBounds env d bytes = some r)
    {spans : List (List UInt8)} {rest : List UInt8}
    (hcut : Cut messageLength? (d.serialPort.buffer.getData ++ bytes) spans rest) :
    ∃ buffer : ReceivingBuffer (1024 * 4),
      r.1 = ((spans.filterMap decode?).foldl (deliver env) d.readCompleted).rearm buffer ∧
      buffer.WellFormed ∧ buffer.getData = keptRest Unknown rest ∧ buffer.readIndex = 0 := by
  have hrequest := h.readRequest_eq
  rw [hsize, Option.some.injEq] at hrequest
  obtain ⟨buffer, hread, hbuffer⟩ := readHandle_cut env h.wellFormed (hrequest ▸ hle) hcut
  obtain rfl := Option.some.inj (hread.symm.trans (readHandleInBounds_eq_some.mp hr).1)
  exact ⟨buffer, by rw [foldl_afterMessage env hcut.complete], hbuffer⟩

/-- A read that can complete is handled iff what it consumes is in bounds. -/
theorem isSome_serialRead_iff (env : HostEnv) (h : HostRun.Ready d.serialPort)
    (hsize : d.serialPort.readRequest = some size) (hle : bytes.length ≤ size) :
    (step env d (.serialRead bytes)).isSome ↔
      ConsumesInBounds (d.serialPort.buffer.getData ++ bytes) := by
  have hrequest := h.readRequest_eq
  rw [hsize, Option.some.injEq] at hrequest
  rw [step, hsize]
  dsimp only
  rw [if_pos hle, Option.isSome_map]
  exact isSome_readHandleInBounds_iff env h.wellFormed (hrequest ▸ hle)

end SerialRead

/-! ## Whole runs -/

/-- The bytes read are received as `handle_serial_packet` tells the lengths of messages, and the
device is that after the messages among them. -/
def Received (env : HostEnv) (initial : DeviceDetails) (reads : List (List UInt8))
    (d : EspnowUartDevice) : Prop :=
  ∃ taken, Receives messageLength? Unknown [] reads taken d.serialPort.buffer.getData ∧
    Delivered env initial ((Taken.messages taken).filterMap decode?) d

/-- What has been written for the TAP frames `tapped`, and the count of it. -/
structure Sent (o : ByteOrder) (tapped : List (PacketBuffer 512)) (d : EspnowUartDevice) :
    Prop where
  written : Written o (forwardedPackets tapped) d.requestedStart d.serialPort.writeQueue.accepted
  broadcastSent_eq : d.statistics.broadcastSent = (forwardedPackets tapped).length

/-- The invariant of a device and the events that have happened to it. -/
structure History (env : HostEnv) (initial : DeviceDetails) (es : List Event)
    (d : EspnowUartDevice) : Prop where
  ready : ∀ size, d.serialPort.readRequest = some size → HostRun.Ready d.serialPort
  counts : CountsFrames d
  received : Received env initial (serialReads es) d
  sent : Sent env.order (tunReads es) d

variable {es : List Event} {reads : List (List UInt8)} {tapped : List (PacketBuffer 512)}

theorem serialReads_concat (es : List Event) (e : Event) :
    serialReads (es ++ [e]) = serialReads es ++ serialReads [e] := List.filterMap_append

theorem tunReads_concat (es : List Event) (e : Event) :
    tunReads (es ++ [e]) = tunReads es ++ tunReads [e] := List.filterMap_append

/-- An event that is no serial read. -/
theorem serialReads_other (es : List Event) {e : Event} (he : serialReads [e] = []) :
    serialReads (es ++ [e]) = serialReads es := by
  rw [serialReads_concat, he, List.append_nil]

/-- An event that is no TAP read. -/
theorem tunReads_other (es : List Event) {e : Event} (he : tunReads [e] = []) :
    tunReads (es ++ [e]) = tunReads es := by
  rw [tunReads_concat, he, List.append_nil]

/-- The messages that a read completes. -/
theorem Received.read (h : Received env initial reads d) {bytes rest : List UInt8}
    {spans : List (List UInt8)}
    (hcut : Cut messageLength? (d.serialPort.buffer.getData ++ bytes) spans rest)
    {buffer : ReceivingBuffer (1024 * 4)} (hkept : buffer.getData = keptRest Unknown rest) :
    Received env initial (reads ++ [bytes])
      (((spans.filterMap decode?).foldl (deliver env) d.readCompleted).rearm buffer) := by
  obtain ⟨taken, htaken, hdelivered⟩ := h
  refine ⟨taken ++ (spans.map .message ++ takenRest Unknown rest), ?_, ?_⟩
  · show Receives _ _ _ _ _ buffer.getData
    rw [hkept]
    exact htaken.concat hcut
  · have hread : Delivered env initial ((Taken.messages taken).filterMap decode?)
        d.readCompleted := hdelivered.congr rfl rfl rfl
    rw [messages_append, messages_append, messages_map_message, messages_takenRest,
      List.append_nil, List.filterMap_append]
    exact (hread.foldl (spans.filterMap decode?)).congr rfl rfl rfl

/-- Nothing is read. -/
theorem Received.congr (h : Received env initial reads d)
    (hbuffer : t.serialPort.buffer = d.serialPort.buffer)
    (hdelivered : ∀ ms, Delivered env initial ms d → Delivered env initial ms t) :
    Received env initial reads t := by
  obtain ⟨taken, htaken, hd⟩ := h
  exact ⟨taken, hbuffer ▸ htaken, hdelivered _ hd⟩

/-- Nothing but the answer is written. -/
theorem Sent.answers {o : ByteOrder} (h : Sent o tapped d) (hanswers : Answers d t)
    (hcount : t.statistics.broadcastSent = d.statistics.broadcastSent) : Sent o tapped t := by
  refine ⟨?_, hcount.trans h.broadcastSent_eq⟩
  -- the first announcement is answered, and no other message is
  rcases hanswers with ⟨hrequested, hqueue⟩ | ⟨hfalse, htrue, p, hp, hqueue⟩
  · rw [hrequested, hqueue]
    exact h.written
  · rw [htrue, hqueue, AsyncQueue.accepted_write]
    exact (hfalse ▸ h.written).answer hp

/-- A TAP frame is written and counted iff it is forwarded. -/
theorem Sent.tunRead (h : Sent env.order tapped d) {frame : PacketBuffer 512}
    (ht : tunReadHandle env d false frame = some t) : Sent env.order (tapped ++ [frame]) t := by
  rcases tunReadHandle_forwarded? ht with ⟨hnone, _, rfl⟩ | ⟨packet, p, _, hsome, hp, rfl⟩
  · have hforwarded : forwardedPackets (tapped ++ [frame]) = forwardedPackets tapped := by
      rw [forwardedPackets, List.filterMap_append, List.filterMap_cons_none hnone]
      exact List.append_nil _
    exact ⟨hforwarded ▸ h.written, hforwarded ▸ h.broadcastSent_eq⟩
  · have hforwarded : forwardedPackets (tapped ++ [frame]) =
        forwardedPackets tapped ++ [packet] := by
      rw [forwardedPackets, List.filterMap_append, List.filterMap_cons_some hsome]
      rfl
    constructor
    · rw [hforwarded]
      show Written _ _ _ (d.serialPort.writeQueue.write p).accepted
      rw [AsyncQueue.accepted_write]
      exact h.written.packet hp
    · rw [hforwarded, List.length_append]
      exact congrArg (· + 1) h.broadcastSent_eq

/-- Nothing is read from the serial port. -/
theorem History.other (h : History env initial es d) {es' : List Event}
    (hreads : serialReads es' = serialReads es)
    (hbuffer : t.serialPort.buffer = d.serialPort.buffer)
    (hrequest : ∀ size, t.serialPort.readRequest = some size →
      d.serialPort.readRequest = some size)
    (hreceived : t.statistics.broadcastReceived = d.statistics.broadcastReceived)
    (hframes : t.tunFdWriteBuffers.accepted = d.tunFdWriteBuffers.accepted)
    (hdelivered : ∀ ms, Delivered env initial ms d → Delivered env initial ms t)
    (hsent : Sent env.order (tunReads es') t) : History env initial es' t := by
  refine ⟨fun size hsize => ?_, ?_, ?_, hsent⟩
  -- the buffer and the outstanding read are as they were
  · have hready := h.ready size (hrequest size hsize)
    refine ⟨hbuffer ▸ hready.wellFormed, hbuffer ▸ hready.readIndex_eq, ?_⟩
    rw [hsize, hbuffer, ← hrequest size hsize]
    exact hready.readRequest_eq
  · rw [CountsFrames, hreceived, hframes]
    exact h.counts
  · exact hreads ▸ h.received.congr hbuffer hdelivered

/-- A serial read. -/
theorem History.serialRead (h : History env initial es d) {bytes : List UInt8} {size : ℕ}
    (hsize : d.serialPort.readRequest = some size) (hle : bytes.length ≤ size)
    {r : EspnowUartDevice × List (List UInt8)} (hr : readHandleInBounds env d bytes = some r) :
    History env initial (es ++ [.serialRead bytes]) r.1 := by
  obtain ⟨spans, rest, hcut⟩ :=
    selfDelimiting_messageLength?.exists_cut (d.serialPort.buffer.getData ++ bytes)
  obtain ⟨buffer, hstep, hwf, hkept, hindex⟩ :=
    readHandleInBounds_cut (h.ready size hsize) hsize hle hr hcut
  have hanswers := answers_readHandle (readHandleInBounds_eq_some.mp hr).1
  -- the messages among the bytes are delivered, and none of them is sent
  obtain ⟨hcounts, hsent⟩ := foldl_deliver_counts env
    (show CountsFrames d.readCompleted from h.counts) (spans.filterMap decode?)
  rw [hstep] at hanswers ⊢
  refine ⟨fun _ _ => ⟨hwf, hindex, rfl⟩, hcounts, ?_, ?_⟩
  · rw [serialReads_concat]
    exact h.received.read hcut hkept
  · rw [tunReads_other es rfl]
    exact h.sent.answers hanswers hsent

/-- Every event keeps the invariant. -/
theorem history_step (es : List Event) (d : EspnowUartDevice) (e : Event) (t : EspnowUartDevice)
    (h : History env initial es d) (ht : step env d e = some t) :
    History env initial (es ++ [e]) t := by
  rcases step_cases ht with ⟨bytes, size, r, rfl, hsize, hle, hr, rfl⟩ | ⟨frame, rfl, -, hd⟩ |
    ⟨port, rfl, hport, rfl⟩ | ⟨rfl, hd⟩
  · exact h.serialRead hsize hle hr
  -- a TAP frame: it is forwarded or dropped, and read from the TAP device in either case
  · have hdelivered (ms : List DeviceMessage) (hms : Delivered env initial ms d) :
        Delivered env initial ms t := hms.tunReadHandle hd
    have hreads := serialReads_other es (e := .tunRead frame) rfl
    have hsent : Sent env.order (tunReads (es ++ [.tunRead frame])) t := by
      rw [tunReads_concat]
      exact h.sent.tunRead hd
    rcases tunReadHandle_forwarded? hd with ⟨-, _, rfl⟩ | ⟨_, _, _, -, -, rfl⟩
    · exact h.other hreads rfl (fun _ hsize => hsize) rfl rfl hdelivered hsent
    · exact h.other hreads rfl (fun _ hsize => hsize) rfl rfl hdelivered hsent
  -- a completed write changes nothing that the accounts are about
  · obtain ⟨q, hacc, rfl⟩ := SerialPortSocket.writeCompleted_cases hport
    refine h.other (serialReads_other es rfl) rfl (fun _ hsize => hsize) rfl rfl
      (fun ms hms => hms.writeCompleted hport) ?_
    rw [tunReads_other es rfl]
    exact ⟨hacc ▸ h.sent.written, h.sent.broadcastSent_eq⟩
  · obtain ⟨q, hacc, rfl⟩ := tunWriteCompleted_cases hd
    refine h.other (serialReads_other es rfl) rfl (fun _ hsize => hsize) rfl hacc
      (fun ms hms => hms.tunWriteCompleted hd) ?_
    rw [tunReads_other es rfl]
    exact ⟨h.sent.written, h.sent.broadcastSent_eq⟩

/-- A device that has just been opened. -/
theorem history_new (env : HostEnv) (contents : List.Vector UInt8 (1024 * 4)) (espnowId : String)
    (deviceDetails : DeviceDetails) (tunFdBuffer : List.Vector UInt8 512) :
    History env { deviceDetails with deviceName := [] } []
      (.new (.new contents) espnowId deviceDetails tunFdBuffer) where
  ready := fun _ _ => HostRun.ready_fresh contents espnowId deviceDetails tunFdBuffer
  counts := rfl
  received := ⟨[], .nil [], ⟨rfl, rfl, rfl, rfl, rfl⟩⟩
  sent := ⟨⟨rfl, rfl⟩, rfl⟩

/-- It holds along every run. -/
theorem history_run (env : HostEnv) (contents : List.Vector UInt8 (1024 * 4)) (espnowId : String)
    (deviceDetails : DeviceDetails) (tunFdBuffer : List.Vector UInt8 512)
    (hrun : run (step env) (.new (.new contents) espnowId deviceDetails tunFdBuffer) es = some d) :
    History env { deviceDetails with deviceName := [] } es d := by
  have h := run_history history_step
    (history_new env contents espnowId deviceDetails tunFdBuffer) hrun
  rwa [List.nil_append] at h

/-- The invariant implies the accounts. -/
theorem History.accounts (h : History env initial es d) :
    ∃ taken, Receives messageLength? Unknown [] (serialReads es) taken
        d.serialPort.buffer.getData ∧
      Accounts env initial (tunReads es) ((Taken.messages taken).filterMap decode?) d := by
  obtain ⟨taken, htaken, hdelivered⟩ := h.received
  refine ⟨taken, htaken, hdelivered, h.sent.written, ?_, h.sent.broadcastSent_eq⟩
  rw [h.counts, hdelivered.frames_eq]

/-- In every run of a device, whatever is read from the serial port and from the TAP device and
whenever writes complete: the bytes read are received as `messageLength?` says, in this way only,
none is lost, and the device is as the messages among them and the frames read have made it. What
the outstanding read brings is handled iff the frames of the packets in it fit their array and what
is dropped of it is whole lines of the dump. -/
theorem accounts_run (env : HostEnv) (contents : List.Vector UInt8 (1024 * 4)) (espnowId : String)
    (deviceDetails : DeviceDetails) (tunFdBuffer : List.Vector UInt8 512) {es : List Event}
    {d : EspnowUartDevice}
    (hrun : run (step env) (.new (.new contents) espnowId deviceDetails tunFdBuffer) es = some d) :
    (∃ taken,
      Receives messageLength? Unknown [] (serialReads es) taken d.serialPort.buffer.getData ∧
      (∀ taken' left, Receives messageLength? Unknown [] (serialReads es) taken' left →
        taken' = taken ∧ left = d.serialPort.buffer.getData) ∧
      taken.flatMap Taken.data ++ d.serialPort.buffer.getData = (serialReads es).flatten ∧
      Accounts env { deviceDetails with deviceName := [] } (tunReads es)
        ((Taken.messages taken).filterMap decode?) d) ∧
    ∀ bytes size, d.serialPort.readRequest = some size → bytes.length ≤ size →
      ((step env d (.serialRead bytes)).isSome ↔
        ConsumesInBounds (d.serialPort.buffer.getData ++ bytes)) := by
  have h := history_run env contents espnowId deviceDetails tunFdBuffer hrun
  obtain ⟨taken, htaken, haccounts⟩ := h.accounts
  refine ⟨⟨taken, htaken, fun taken' left h' => h'.unique selfDelimiting_messageLength? htaken,
    htaken.flatten_data, haccounts⟩, fun bytes size hsize hle => ?_⟩
  exact isSome_serialRead_iff env (h.ready size hsize) hsize hle

/-- A line of bytes that start no message, a packet in two reads and a TAP frame. -/
theorem accounts_run_packet :
    let env : HostEnv := ⟨.little, fun _ => []⟩
    let details : DeviceDetails := ⟨[], .replicate 6 0, 0, ⟨0, 0, 0⟩⟩
    let frame : PacketBuffer 512 := ⟨List.replicate 12 255 ++ [0x88, 0xb5, 1], by simp⟩
    let es : List Event := [.serialRead (List.replicate 32 2), .serialRead [82, 7, 7, 7, 7, 7, 7],
      .tunRead frame, .serialRead [0, 0, 0, 1, 9]]
    ∃ d, run (step env) (.new (.new (.replicate _ 0)) "espnow0" details (.replicate _ 0)) es =
        some d ∧ d.statistics = ⟨1, 1⟩ ∧
      ∃ taken, Receives messageLength? Unknown [] (serialReads es) taken
          d.serialPort.buffer.getData ∧
        Accounts env details (tunReads es) ((Taken.messages taken).filterMap decode?) d := by
  intro env details frame es
  have hstatistics : (run (step env)
      (.new (.new (.replicate _ 0)) "espnow0" details (.replicate _ 0)) es).map statistics =
        some ⟨1, 1⟩ := by decide +kernel
  obtain ⟨d, hrun, hd⟩ := Option.map_eq_some_iff.mp hstatistics
  obtain ⟨⟨taken, htaken, -, -, haccounts⟩, -⟩ := accounts_run env _ _ details _ hrun
  exact ⟨d, hrun, hd, taken, htaken, haccounts⟩

end EspnowUartDevice
