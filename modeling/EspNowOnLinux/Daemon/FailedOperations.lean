import EspNowOnLinux.Daemon.DeviceRuns
import EspNowOnLinux.Daemon.TapWrites
import EspNowOnLinux.Lib.FailingWrites

/-!
# Operations that fail

A device has four chains of operations, and each of its handlers does something else with an error:

* `read_handle` and `tun_read_handle` return without starting the next read, which ends the chain;
* `write_handle` does not look at the error, and goes on with the next packet;
* `handle_tun_write` returns without starting the next write, which any packet received later does.

An operation that fails has transferred nothing, and one that succeeds all that it was given: the
handlers do not look at how much that is.

## Main results

* `failures_run`: the accounts of a device hold in runs with failures too, and a chain of reads ends
  with its first failure and only so;
* `SerialPortSocket.failedWrites_run`: the packets lost are those whose writes failed;
* `failedTapWrites_run`: of the frames for the TAP device none is lost, and those that a failure has
  left behind are written with the next packet received.
-/

open Framing Messages StateMachine

/-! ## Packets for the device -/

namespace SerialPortSocket

/-- The operation that was started first fails and `write_handle` is called, which does not look at
the error. -/
def writeFailed (s : SerialPortSocket) : Option SerialPortSocket :=
  s.writeQueue.abort.bind fun q => writeHandle { s with writeQueue := q }

/-- What can happen to a socket that is only written to. -/
inductive FailingEvent
  /-- `write` is called, or the operation that was started first succeeds, with all of its packet
  transferred. -/
  | event (e : Event)
  /-- The operation that was started first fails. -/
  | writeFailed

/-- The socket after an event. -/
def failingStep (s : SerialPortSocket) : FailingEvent → Option SerialPortSocket
  | .event e => step s e
  | .writeFailed => s.writeFailed

/-- An event in terms of the queue. -/
def FailingEvent.toQueue : FailingEvent → AsyncQueue.FailingEvent (PacketBuffer 512)
  | .event e => .event e.toQueue
  | .writeFailed => .fail

/-- The packets passed to `write`. -/
def failingWrites (es : List FailingEvent) : List (PacketBuffer 512) :=
  AsyncQueue.failingWrites (es.map FailingEvent.toQueue)

/-- How the operations have ended, in order. -/
def outcomes (es : List FailingEvent) : List Bool :=
  AsyncQueue.outcomes (es.map FailingEvent.toQueue)

/-- `write` is called only while `write_queue_` is empty. -/
def IdleWriteFailing (s : SerialPortSocket) : FailingEvent → Prop
  | .event (.write _) => s.writeQueue.queue = []
  | .event .writeCompleted | .writeFailed => True

instance (s : SerialPortSocket) : DecidablePred (IdleWriteFailing s)
  | .event (.write _) => inferInstanceAs (Decidable (s.writeQueue.queue = []))
  | .event .writeCompleted | .writeFailed => .isTrue trivial

/-- What `write_handle` does to the queue. -/
theorem writeHandle_eq (s : SerialPortSocket) (q : AsyncQueue (PacketBuffer 512)) :
    writeHandle { s with writeQueue := q } =
      (finish q).map fun q => { s with writeQueue := q } := by
  by_cases hq : q.queue ≠ []
  · rw [writeHandle, finish, if_pos hq, if_pos hq, AsyncQueue.popAndRestart, Option.map_map]
    rfl
  · rw [writeHandle, finish, if_neg hq, if_neg hq, Option.map_some]

/-- Nothing is pushed. -/
theorem accepted_finish (q t : AsyncQueue (PacketBuffer 512)) (h : finish q = some t) :
    t.accepted = q.accepted := by
  unfold finish at h
  split at h
  · exact AsyncQueue.accepted_of_popAndRestart h
  · rw [Option.some.inj h]

/-- A failure is for the queue what a success is, but for the transfer. -/
theorem writeFailed_eq (s : SerialPortSocket) :
    s.writeFailed = (s.writeQueue.abort.bind finish).map fun q => { s with writeQueue := q } := by
  rw [writeFailed, Option.map_bind]
  exact congrArg _ (funext fun q => writeHandle_eq s q)

/-- The socket's write side is an `AsyncQueue` that goes on after a failure. -/
theorem failingStep_map (s : SerialPortSocket) (e : FailingEvent) :
    (failingStep s e).map writeQueue =
      AsyncQueue.failingStep finish finish s.writeQueue e.toQueue := by
  cases e with
  | event e => exact step_map s e
  | writeFailed =>
      rw [failingStep, writeFailed_eq, Option.map_map]
      exact congrFun Option.map_id _

/-- In every run in which each packet is written while `write_queue_` is empty, whichever operations
fail, as long as one that succeeds transfers all of its packet: the packets passed to `write` are
those whose operations have ended, in order, and one that is being written; of the former just those
are transferred whose operations succeeded. -/
theorem failedWrites_run (contents : List.Vector UInt8 (1024 * 4)) {es : List FailingEvent}
    {s : SerialPortSocket} (hidle : EachStep failingStep IdleWriteFailing (new contents) es)
    (hrun : run failingStep (new contents) es = some s) :
    s.writeQueue.queue.length ≤ 1 ∧ s.writeQueue.RefersLive ∧
      ∃ done : List (PacketBuffer 512 × Bool),
        failingWrites es = done.map Prod.fst ++ s.writeQueue.queue ∧
        outcomes es = done.map Prod.snd ∧
        s.writeQueue.written = (done.filter Prod.snd).map Prod.fst := by
  have hqueue : run (AsyncQueue.failingStep finish finish) .empty (es.map FailingEvent.toQueue) =
      some s.writeQueue := by
    show run _ (new contents).writeQueue _ = _
    rw [← run_map failingStep_map, hrun, Option.map_some]
  have hwrites := eachStep_map failingStep_map AsyncQueue.IdleWriteFailing (new contents) es
  -- the two conditions say the same of corresponding events
  have hevent (s : SerialPortSocket) (e : FailingEvent) :
      AsyncQueue.IdleWriteFailing s.writeQueue e.toQueue ↔ IdleWriteFailing s e := by
    match e with
    | .event (.write _) | .event .writeCompleted | .writeFailed => rfl
  simp only [hevent] at hwrites
  have hlossy := AsyncQueue.lossy_run finish_eq finish_eq (hwrites.mp hidle) hqueue
  obtain ⟨done, haccepted, hdone⟩ := hlossy.done
  refine ⟨hlossy.length_le, hlossy.refersLive, done, ?_, hdone⟩
  rw [← haccepted, AsyncQueue.accepted_failingRun accepted_finish accepted_finish hqueue]
  rfl

/-- The second of three packets is lost. -/
theorem failedWrites_run_three :
    let a : PacketBuffer 512 := ⟨[1], by decide⟩
    let b : PacketBuffer 512 := ⟨[2], by decide⟩
    let es : List FailingEvent := [.event (.write a), .event .writeCompleted, .event (.write b),
      .writeFailed, .event (.write a), .event .writeCompleted]
    ∃ s, run failingStep (new (.replicate _ 0)) es = some s ∧ s.writeQueue.written = [a, a] ∧
      ∃ done : List (PacketBuffer 512 × Bool),
        failingWrites es = done.map Prod.fst ++ s.writeQueue.queue ∧
        outcomes es = done.map Prod.snd ∧
        s.writeQueue.written = (done.filter Prod.snd).map Prod.fst := by
  intro a b es
  have hwritten : (run failingStep (new (.replicate _ 0)) es).map (fun s => s.writeQueue.written) =
      some [a, a] := rfl
  obtain ⟨s, hrun, hs⟩ := Option.map_eq_some_iff.mp hwritten
  have hdone := failedWrites_run (.replicate _ 0) (by decide +kernel) hrun
  exact ⟨s, hrun, hs, hdone.2.2⟩

end SerialPortSocket

namespace EspnowUartDevice

/-! ## Frames for the TAP device -/

/-- The operation that was started first fails and `handle_tun_write` is called with the error. -/
def tunWriteFailed (d : EspnowUartDevice) : Option EspnowUartDevice :=
  d.tunFdWriteBuffers.abort.bind fun q => handleTunWrite { d with tunFdWriteBuffers := q } true

/-- What can happen to the TAP write queue. -/
inductive FailingTapEvent
  /-- A packet is received, or the operation that was started first succeeds. -/
  | event (e : TapEvent)
  /-- The operation that was started first fails. -/
  | tunWriteFailed

/-- The device after an event. -/
def failingTapStep (env : HostEnv) (d : EspnowUartDevice) :
    FailingTapEvent → Option EspnowUartDevice
  | .event e => tapStep env d e
  | .tunWriteFailed => d.tunWriteFailed

/-- An event in terms of the queue. -/
def FailingTapEvent.toQueue : FailingTapEvent → AsyncQueue.FailingEvent (List UInt8)
  | .event e => .event e.toQueue
  | .tunWriteFailed => .fail

/-- The frames of the packets received, in order. -/
def failingFrames (es : List FailingTapEvent) : List (List UInt8) :=
  AsyncQueue.failingWrites (es.map FailingTapEvent.toQueue)

/-- The payload of a packet leaves room for the header of its frame. -/
def FitsFrameFailing (d : EspnowUartDevice) : FailingTapEvent → Prop
  | .event e => FitsFrame d e
  | .tunWriteFailed => True

/-- A packet is handled only while no TAP write is outstanding. -/
def QuietReceive (d : EspnowUartDevice) : FailingTapEvent → Prop
  | .event (.received _) => d.tunFdWriteBuffers.inFlight = []
  | .event .tunWriteCompleted | .tunWriteFailed => True

instance (d : EspnowUartDevice) : DecidablePred (QuietReceive d)
  | .event (.received _) => inferInstanceAs (Decidable (d.tunFdWriteBuffers.inFlight = []))
  | .event .tunWriteCompleted | .tunWriteFailed => .isTrue trivial

variable {env : HostEnv} {d t : EspnowUartDevice}

/-- After a failure the frame is still in the deque, and nothing has been started. -/
theorem tunWriteFailed_eq (d : EspnowUartDevice) :
    d.tunWriteFailed =
      (d.tunFdWriteBuffers.abort.bind some).map fun q => { d with tunFdWriteBuffers := q } := by
  rw [tunWriteFailed, Option.map_bind]
  rfl

theorem fitsFrame_of_failingTapStep {d t : EspnowUartDevice} {e : FailingTapEvent}
    (ht : failingTapStep env d e = some t) : FitsFrameFailing d e := by
  cases e with
  | event e => exact fitsFrame_of_step ht
  | tunWriteFailed => trivial

variable (env) in
/-- The device's TAP side is an `AsyncQueue` that stops at a failure. -/
theorem failingTapStep_map (d : EspnowUartDevice) (e : FailingTapEvent)
    (h : FitsFrameFailing d e) :
    (failingTapStep env d e).map tunFdWriteBuffers =
      AsyncQueue.failingStep AsyncQueue.popAndRestart some d.tunFdWriteBuffers e.toQueue := by
  cases e with
  | event e => exact tapStep_map env d e h
  | tunWriteFailed =>
      rw [failingTapStep, tunWriteFailed_eq, Option.map_map]
      exact congrFun Option.map_id _

/-- A run in terms of the queue. -/
theorem failingTapRun_map {es : List FailingTapEvent} (hrun : run (failingTapStep env) d es =
    some t) : run (AsyncQueue.failingStep AsyncQueue.popAndRestart some) d.tunFdWriteBuffers
      (es.map FailingTapEvent.toQueue) = some t.tunFdWriteBuffers := by
  have hfits : EachEvent (failingTapStep env) FitsFrameFailing d es :=
    eachEvent_of_run (fun _ _ _ => fitsFrame_of_failingTapStep) hrun
  rw [← run_map_of_eachEvent (failingTapStep_map env) hfits, hrun, Option.map_some]

/-- In a run in which each packet is handled while no TAP write is outstanding, the queue is one
whose operations are repeated when they have failed. -/
theorem retrying_failingTapRun {port : SerialPortSocket} {id : String} {details : DeviceDetails}
    {tunFdBuffer : List.Vector UInt8 512} {es : List FailingTapEvent}
    (hquiet : EachStep (failingTapStep env) QuietReceive (new port id details tunFdBuffer) es)
    (hrun : run (failingTapStep env) (new port id details tunFdBuffer) es = some d) :
    d.tunFdWriteBuffers.Retrying := by
  have hfits :
      EachEvent (failingTapStep env) FitsFrameFailing (new port id details tunFdBuffer) es :=
    eachEvent_of_run (fun _ _ _ => fitsFrame_of_failingTapStep) hrun
  have hwrites := eachStep_map_of_eachEvent (failingTapStep_map env) AsyncQueue.QuietWrite hfits
  have hevent (d : EspnowUartDevice) (e : FailingTapEvent) :
      AsyncQueue.QuietWrite d.tunFdWriteBuffers e.toQueue ↔ QuietReceive d e := by
    match e with
    | .event (.received _) | .event .tunWriteCompleted | .tunWriteFailed => rfl
  simp only [hevent] at hwrites
  have halways := always_of_eachStep AsyncQueue.retrying_step (fun _ h => h)
    (AsyncQueue.retrying_empty (α := List UInt8)) (hwrites.mp hquiet)
  exact halways.last (failingTapRun_map hrun)

/-- In every run in which each packet is handled while no TAP write is outstanding, whichever writes
fail: no packet has had more than 498 bytes, and the frames written and those in the deque are the
frames of the packets received, once each and in order. With no write outstanding nothing happens
until a packet of at most 498 bytes is received, and then all of them are written if the writes
succeed. -/
theorem failedTapWrites_run (env : HostEnv) (port : SerialPortSocket) (id : String)
    (details : DeviceDetails) (tunFdBuffer : List.Vector UInt8 512) {es : List FailingTapEvent}
    (hquiet : EachStep (failingTapStep env) QuietReceive (new port id details tunFdBuffer) es)
    (hrun : run (failingTapStep env) (new port id details tunFdBuffer) es = some d) :
    EachEvent (failingTapStep env) FitsFrameFailing (new port id details tunFdBuffer) es ∧
      d.tunFdWriteBuffers.written ++ d.tunFdWriteBuffers.queue = failingFrames es ∧
      (d.tunFdWriteBuffers.inFlight = [] → ∀ message, message.packet.data.length ≤ 498 →
        ∃ t, run (failingTapStep env) d (.event (.received message) ::
            List.replicate (d.tunFdWriteBuffers.queue.length + 1)
              (.event .tunWriteCompleted)) = some t ∧
          t.tunFdWriteBuffers.queue = [] ∧
          t.tunFdWriteBuffers.written = failingFrames es ++ [frameOf message]) := by
  have hretrying := retrying_failingTapRun hquiet hrun
  have haccepted : d.tunFdWriteBuffers.accepted = failingFrames es :=
    AsyncQueue.accepted_failingRun (fun _ _ => AsyncQueue.accepted_of_popAndRestart)
      (fun q t h => by rw [Option.some.inj h]) (failingTapRun_map hrun)
  refine ⟨eachEvent_of_run (fun _ _ _ => fitsFrame_of_failingTapStep) hrun,
    by rw [← hretrying.accepted_eq, haccepted], fun hfly message hfits => ?_⟩
  -- the queue's run is the image of one of the device
  obtain ⟨q, hqueue, hempty, hwritten⟩ := hretrying.resume hfly (frameOf message)
  have hreceived : EachEvent (failingTapStep env) FitsFrameFailing d [.event (.received message)] :=
    ⟨hfits, fun _ _ => trivial⟩
  have hmap := run_map_of_eachEvent (failingTapStep_map env)
    (hreceived.append_replicate (d := .event .tunWriteCompleted) (fun _ => trivial)
      (d.tunFdWriteBuffers.queue.length + 1))
  rw [List.cons_append, List.nil_append, List.map_cons, List.map_replicate] at hmap
  obtain ⟨t, ht, rfl⟩ := Option.map_eq_some_iff.mp (hmap.trans hqueue)
  exact ⟨t, ht, hempty, hwritten.trans (congrArg (· ++ [frameOf message]) haccepted)⟩

/-- The frame of the first packet is written together with that of the second. -/
theorem failedTapWrites_run_two :
    let env : HostEnv := ⟨.little, fun _ => []⟩
    let port := SerialPortSocket.new (.replicate _ 0)
    let details : DeviceDetails := ⟨[], .replicate 6 0, 0, ⟨0, 0, 0⟩⟩
    let p : ReceivedPacket := { mac := .replicate 6 1, data := [1] }
    let message : ReceivedMessage := ⟨p, [], by decide, by decide⟩
    let es : List FailingTapEvent := [.event (.received message), .tunWriteFailed]
    ∃ d, run (failingTapStep env) (new port "espnow0" details (.replicate _ 0)) es = some d ∧
      d.tunFdWriteBuffers.inFlight = [] ∧
      d.tunFdWriteBuffers.written ++ d.tunFdWriteBuffers.queue = failingFrames es := by
  intro env port details p message es
  have hfly : (run (failingTapStep env) (new port "espnow0" details (.replicate _ 0)) es).map
      (fun d => d.tunFdWriteBuffers.inFlight) = some [] := by decide +kernel
  obtain ⟨d, hrun, hd⟩ := Option.map_eq_some_iff.mp hfly
  have hquiet : EachStep (failingTapStep env) QuietReceive
      (new port "espnow0" details (.replicate _ 0)) es := by decide +kernel
  exact ⟨d, hrun, hd,
    (failedTapWrites_run env port "espnow0" details (.replicate _ 0) hquiet hrun).2.1⟩

/-! ## All four chains -/

/-- What can happen to a device. -/
inductive FailingEvent
  /-- An operation succeeds. -/
  | event (e : Event)
  /-- `read_handle` is called with an error. -/
  | serialReadFailed
  /-- `tun_read_handle` is called with an error. -/
  | tunReadFailed
  /-- `write_handle` is called with an error. -/
  | serialWriteFailed
  /-- `handle_tun_write` is called with an error. -/
  | tunWriteFailed

/-- The device after an event; `none` is an event that cannot happen, or undefined behaviour. -/
def failingStep (env : HostEnv) (d : EspnowUartDevice) : FailingEvent → Option EspnowUartDevice
  | .event e => step env d e
  | .serialReadFailed =>
      match d.serialPort.readRequest with
      | some _ => (readHandle env d true []).map fun r => r.1
      | none => none
  | .tunReadFailed =>
      if d.tunReading then tunReadHandle env d true ⟨[], Nat.zero_le _⟩ else none
  | .serialWriteFailed =>
      d.serialPort.writeFailed.map fun port => { d with serialPort := port }
  | .tunWriteFailed => d.tunWriteFailed

/-- The operations that have succeeded. -/
def succeeded (es : List FailingEvent) : List Event :=
  es.filterMap fun
    | .event e => some e
    | _ => none

theorem succeeded_event (es : List FailingEvent) (e : Event) :
    succeeded (es ++ [.event e]) = succeeded es ++ [e] := List.filterMap_append

theorem mem_of_mem_succeeded {es : List FailingEvent} {e : Event} (h : e ∈ succeeded es) :
    .event e ∈ es := by
  obtain ⟨event, hevent, hsome⟩ := List.mem_filterMap.mp h
  cases event with
  | event event => exact Option.some.inj hsome ▸ hevent
  | serialReadFailed => cases hsome
  | tunReadFailed => cases hsome
  | serialWriteFailed => cases hsome
  | tunWriteFailed => cases hsome

/-- A failure is no success. -/
theorem succeeded_failure (es : List FailingEvent) {e : FailingEvent} (he : succeeded [e] = []) :
    succeeded (es ++ [e]) = succeeded es := by
  show (es ++ [e]).filterMap _ = _
  rw [List.filterMap_append]
  exact (congrArg _ he).trans (List.append_nil _)

/-- What a failure does: it ends a chain of reads, or changes how far the queues have got. -/
theorem failingStep_cases {e : FailingEvent} (ht : failingStep env d e = some t) :
    (∃ event, e = .event event ∧ step env d event = some t) ∨
      (e = .serialReadFailed ∧ d.serialPort.readRequest ≠ none ∧ t = d.readCompleted) ∨
      (e = .tunReadFailed ∧ d.tunReading = true ∧ t = { d with tunReading := false }) ∨
      (∃ q, e = .serialWriteFailed ∧ q.accepted = d.serialPort.writeQueue.accepted ∧
        t = { d with serialPort := { d.serialPort with writeQueue := q } }) ∨
      (∃ q, e = .tunWriteFailed ∧ q.accepted = d.tunFdWriteBuffers.accepted ∧
        t = { d with tunFdWriteBuffers := q }) := by
  cases e with
  | event event => exact Or.inl ⟨event, rfl, ht⟩
  | serialReadFailed =>
      rw [failingStep] at ht
      split at ht
      · next hsize =>
        exact Or.inr (Or.inl ⟨rfl, by rw [hsize]; exact Option.some_ne_none _,
          (Option.some.inj ht).symm⟩)
      · cases ht
  | tunReadFailed =>
      rw [failingStep, Option.ite_none_right_eq_some] at ht
      exact Or.inr (Or.inr (Or.inl ⟨rfl, ht.1, (Option.some.inj ht.2).symm⟩))
  | serialWriteFailed =>
      rw [failingStep, SerialPortSocket.writeFailed_eq, Option.map_map] at ht
      obtain ⟨q, hq, rfl⟩ := Option.map_eq_some_iff.mp ht
      -- the next write is started, whatever the error
      obtain ⟨r, hr, hfinish⟩ := Option.bind_eq_some_iff.mp hq
      have hacc := (SerialPortSocket.accepted_finish r q hfinish).trans
        (AsyncQueue.accepted_of_abort hr)
      exact Or.inr (Or.inr (Or.inr (Or.inl ⟨q, rfl, hacc, rfl⟩)))
  | tunWriteFailed =>
      rw [failingStep, tunWriteFailed_eq] at ht
      obtain ⟨q, hq, rfl⟩ := Option.map_eq_some_iff.mp ht
      obtain ⟨r, hr, hsome⟩ := Option.bind_eq_some_iff.mp hq
      obtain rfl := Option.some.inj hsome
      exact Or.inr (Or.inr (Or.inr (Or.inr ⟨r, rfl, AsyncQueue.accepted_of_abort hr, rfl⟩)))

/-- Messages do not touch the chain of TAP reads. -/
theorem tunReading_foldl_deliver (env : HostEnv) (ms : List DeviceMessage) (d : EspnowUartDevice) :
    (ms.foldl (deliver env) d).tunReading = d.tunReading := by
  induction ms generalizing d with
  | nil => rfl
  | cons m ms ih =>
      rw [List.foldl_cons, ih]
      cases m with
      | startDevice message =>
          show (receiveStartDevice env d message).tunReading = _
          unfold receiveStartDevice
          split <;> rfl
      | receivedPacket mac payload => rfl
      | logInfo text => rfl
      | logInfoUart payload => rfl
      | ping => rfl

/-- A success keeps the chains of reads going that are, and starts none. -/
theorem step_reads {initial : DeviceDetails} {es : List Event} (h : History env initial es d)
    {e : Event} (ht : step env d e = some t) :
    (t.serialPort.readRequest = none ↔ d.serialPort.readRequest = none) ∧
      t.tunReading = d.tunReading := by
  rcases step_cases ht with ⟨bytes, size, r, rfl, hsize, hle, hr, rfl⟩ | ⟨frame, rfl, -, hd⟩ |
    ⟨port, rfl, hport, rfl⟩ | ⟨rfl, hd⟩
  · obtain ⟨spans, rest, hcut⟩ :=
      selfDelimiting_messageLength?.exists_cut (d.serialPort.buffer.getData ++ bytes)
    obtain ⟨buffer, hstep, -⟩ := readHandleInBounds_cut (h.ready size hsize) hsize hle hr hcut
    rw [hstep]
    -- the next read has been started, as the one before it had been
    refine ⟨⟨fun hnone => ?_, fun hnone => ?_⟩, tunReading_foldl_deliver env _ d.readCompleted⟩
    · cases hnone
    · rw [hsize] at hnone
      cases hnone
  · rcases tunReadHandle_forwarded? hd with ⟨-, _, rfl⟩ | ⟨_, _, _, -, -, rfl⟩
    · exact ⟨Iff.rfl, rfl⟩
    · exact ⟨Iff.rfl, rfl⟩
  · obtain ⟨q, -, rfl⟩ := SerialPortSocket.writeCompleted_cases hport
    exact ⟨Iff.rfl, rfl⟩
  · obtain ⟨q, -, rfl⟩ := tunWriteCompleted_cases hd
    exact ⟨Iff.rfl, rfl⟩

/-- The invariant of a device and the events that have happened to it, failures among them: that of
the successes, and a chain of reads has ended iff a read has failed. -/
structure FailingHistory (env : HostEnv) (initial : DeviceDetails) (es : List FailingEvent)
    (d : EspnowUartDevice) : Prop where
  history : History env initial (succeeded es) d
  serialRead_iff : d.serialPort.readRequest = none ↔ .serialReadFailed ∈ es
  tunRead_iff : d.tunReading = false ↔ .tunReadFailed ∈ es

variable {initial : DeviceDetails}

/-- Every event keeps the invariant. -/
theorem failingHistory_step (es : List FailingEvent) (d : EspnowUartDevice) (e : FailingEvent)
    (t : EspnowUartDevice) (h : FailingHistory env initial es d)
    (ht : failingStep env d e = some t) : FailingHistory env initial (es ++ [e]) t := by
  obtain ⟨hhistory, hserial, htun⟩ := h
  rcases failingStep_cases ht with ⟨event, rfl, hevent⟩ | ⟨rfl, -, rfl⟩ | ⟨rfl, -, rfl⟩ |
    ⟨q, rfl, hacc, rfl⟩ | ⟨q, rfl, hacc, rfl⟩
  · obtain ⟨hrequest, hreading⟩ := step_reads hhistory hevent
    refine ⟨?_, by simpa [hrequest] using hserial, by simpa [hreading] using htun⟩
    rw [succeeded_event]
    exact history_step _ d event t hhistory hevent
  -- no read is outstanding any more
  · refine ⟨?_, by simp [readCompleted], by simpa [readCompleted] using htun⟩
    rw [succeeded_failure es rfl]
    exact hhistory.other rfl rfl (fun _ hsize => by cases hsize) rfl rfl
      (fun _ hms => hms.congr rfl rfl rfl) ⟨hhistory.sent.written, hhistory.sent.broadcastSent_eq⟩
  · refine ⟨?_, by simpa using hserial, by simp⟩
    rw [succeeded_failure es rfl]
    exact hhistory.other rfl rfl (fun _ hsize => hsize) rfl rfl
      (fun _ hms => hms.congr rfl rfl rfl) ⟨hhistory.sent.written, hhistory.sent.broadcastSent_eq⟩
  -- what has been accepted is still accepted, whether it has been written or not
  · refine ⟨?_, by simpa using hserial, by simpa using htun⟩
    rw [succeeded_failure es rfl]
    refine hhistory.other rfl rfl (fun _ hsize => hsize) rfl rfl (fun _ hms => ?_)
      ⟨hacc ▸ hhistory.sent.written, hhistory.sent.broadcastSent_eq⟩
    refine hms.congr rfl ?_ rfl
    rw [startHosts, startHosts, hacc]
  · refine ⟨?_, by simpa using hserial, by simpa using htun⟩
    rw [succeeded_failure es rfl]
    exact hhistory.other rfl rfl (fun _ hsize => hsize) rfl hacc
      (fun _ hms => hms.congr hacc rfl rfl) ⟨hhistory.sent.written, hhistory.sent.broadcastSent_eq⟩

section Run

variable (contents : List.Vector UInt8 (1024 * 4)) (espnowId : String)
  (deviceDetails : DeviceDetails) (tunFdBuffer : List.Vector UInt8 512)

/-- The invariant holds in every run. -/
theorem failingHistory_run {es : List FailingEvent}
    (hrun : run (failingStep env) (.new (.new contents) espnowId deviceDetails tunFdBuffer) es =
      some d) : FailingHistory env { deviceDetails with deviceName := [] } es d := by
  have hstart : FailingHistory env { deviceDetails with deviceName := [] } []
      (.new (.new contents) espnowId deviceDetails tunFdBuffer) :=
    ⟨history_new env contents espnowId deviceDetails tunFdBuffer, by simp [new,
      SerialPortSocket.startReading], by simp [new]⟩
  exact run_history failingHistory_step hstart hrun

/-- A success in a run happens to a device that the invariant holds of. -/
theorem failingHistory_before {es fs : List FailingEvent} {e : Event}
    (hrun : run (failingStep env) (.new (.new contents) espnowId deviceDetails tunFdBuffer)
      (es ++ fs) = some d) (he : e ∈ succeeded fs) :
    ∃ gs u t, es <+: gs ∧ FailingHistory env { deviceDetails with deviceName := [] } gs u ∧
      step env u e = some t := by
  obtain ⟨before, after, rfl⟩ := List.append_of_mem (mem_of_mem_succeeded he)
  rw [← List.append_assoc] at hrun
  obtain ⟨u, t, hu, ht⟩ := run_append_cons hrun
  exact ⟨es ++ before, u, t, List.prefix_append _ _,
    failingHistory_run contents espnowId deviceDetails tunFdBuffer hu, ht⟩

/-- After a failed serial read nothing is read from the serial port any more. -/
theorem serialReads_end {es fs : List FailingEvent}
    (hrun : run (failingStep env) (.new (.new contents) espnowId deviceDetails tunFdBuffer)
      (es ++ .serialReadFailed :: fs) = some d) : serialReads (succeeded fs) = [] := by
  rw [List.append_cons] at hrun
  refine List.filterMap_eq_nil_iff.mpr fun e he => ?_
  obtain ⟨gs, u, t, hbegun, hu, ht⟩ :=
    failingHistory_before contents espnowId deviceDetails tunFdBuffer hrun he
  -- in the state in which it would happen, no read is outstanding
  have hnone := hu.serialRead_iff.mpr (hbegun.subset (by simp))
  cases e with
  | serialRead bytes =>
      rw [step, hnone] at ht
      cases ht
  | tunRead frame => rfl
  | serialWritten => rfl
  | tunWritten => rfl

/-- After a failed TAP read no frame is read any more. -/
theorem tunReads_end {es fs : List FailingEvent}
    (hrun : run (failingStep env) (.new (.new contents) espnowId deviceDetails tunFdBuffer)
      (es ++ .tunReadFailed :: fs) = some d) : tunReads (succeeded fs) = [] := by
  rw [List.append_cons] at hrun
  refine List.filterMap_eq_nil_iff.mpr fun e he => ?_
  obtain ⟨gs, u, t, hbegun, hu, ht⟩ :=
    failingHistory_before contents espnowId deviceDetails tunFdBuffer hrun he
  -- in the state in which it would happen, no TAP read is outstanding
  have hfalse := hu.tunRead_iff.mpr (hbegun.subset (by simp))
  cases e with
  | tunRead frame =>
      rw [step, hfalse] at ht
      cases ht
  | serialRead bytes => rfl
  | serialWritten => rfl
  | tunWritten => rfl

end Run

/-- In every run of a device, whichever operations fail: the accounts are those of what has been
read; after a failed serial read nothing is read from the serial port, and after a failed TAP read
nothing from the TAP device; and as long as no read of it has failed, a chain is waiting for what
comes, whatever has become of the others. What comes from the serial port is handled iff the frames
of the packets in it fit their array and what is dropped of it is whole lines of the dump. -/
theorem failures_run (env : HostEnv) (contents : List.Vector UInt8 (1024 * 4)) (espnowId : String)
    (deviceDetails : DeviceDetails) (tunFdBuffer : List.Vector UInt8 512)
    {es : List FailingEvent} {d : EspnowUartDevice}
    (hrun : run (failingStep env) (.new (.new contents) espnowId deviceDetails tunFdBuffer) es =
      some d) :
    (∃ taken, Receives messageLength? Unknown [] (serialReads (succeeded es)) taken
        d.serialPort.buffer.getData ∧
      Accounts env { deviceDetails with deviceName := [] } (tunReads (succeeded es))
        ((Taken.messages taken).filterMap decode?) d) ∧
      (∀ before after, es = before ++ .serialReadFailed :: after →
        serialReads (succeeded after) = []) ∧
      (∀ before after, es = before ++ .tunReadFailed :: after → tunReads (succeeded after) = []) ∧
      (.serialReadFailed ∉ es → ∃ size, d.serialPort.readRequest = some size ∧
        ∀ bytes, bytes.length ≤ size →
          ((failingStep env d (.event (.serialRead bytes))).isSome ↔
            ConsumesInBounds (d.serialPort.buffer.getData ++ bytes))) ∧
      (.tunReadFailed ∉ es → d.tunReading = true) := by
  have h := failingHistory_run contents espnowId deviceDetails tunFdBuffer hrun
  refine ⟨h.history.accounts, ?_, ?_, fun hnot => ?_, fun hnot => ?_⟩
  · rintro before after rfl
    exact serialReads_end contents espnowId deviceDetails tunFdBuffer hrun
  · rintro before after rfl
    exact tunReads_end contents espnowId deviceDetails tunFdBuffer hrun
  · obtain ⟨size, hsize⟩ :=
      Option.ne_none_iff_exists'.mp fun hnone => hnot (h.serialRead_iff.mp hnone)
    exact ⟨size, hsize, fun bytes hle =>
      isSome_serialRead_iff env (h.history.ready size hsize) hsize hle⟩
  · exact Bool.eq_true_of_not_eq_false fun hfalse => hnot (h.tunRead_iff.mp hfalse)

/-- A frame is forwarded and its write fails, the TAP device fails, and a packet is received. -/
theorem failures_run_packet :
    let env : HostEnv := ⟨.little, fun _ => []⟩
    let details : DeviceDetails := ⟨[], .replicate 6 0, 0, ⟨0, 0, 0⟩⟩
    let frame : PacketBuffer 512 := ⟨List.replicate 12 255 ++ [0x88, 0xb5, 1], by simp⟩
    let es : List FailingEvent := [.event (.tunRead frame), .serialWriteFailed, .tunReadFailed,
      .event (.serialRead [82, 7, 7, 7, 7, 7, 7, 0, 0, 0, 1, 9]), .tunWriteFailed]
    let start : EspnowUartDevice := .new (.new (.replicate _ 0)) "espnow0" details (.replicate _ 0)
    ∃ d, run (failingStep env) start es = some d ∧ d.statistics = ⟨1, 1⟩ ∧
      ∃ taken, Receives messageLength? Unknown [] (serialReads (succeeded es)) taken
          d.serialPort.buffer.getData ∧
        Accounts env details (tunReads (succeeded es))
          ((Taken.messages taken).filterMap decode?) d := by
  intro env details frame es start
  have hstatistics : (run (failingStep env) start es).map statistics = some ⟨1, 1⟩ := by
    decide +kernel
  obtain ⟨d, hrun, hd⟩ := Option.map_eq_some_iff.mp hstatistics
  exact ⟨d, hrun, hd, (failures_run env _ _ details _ hrun).1⟩

end EspnowUartDevice
