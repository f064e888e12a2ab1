import EspNowOnLinux.Daemon.EspnowUartDevice

/-!
# Received packets and TAP writes

Every `RECEIVED_PACKET` pushes a frame to `tun_fd_write_buffers_` and starts a write, whether or not
one is outstanding, and every completion pops a frame. Here the two happen in any order; several
packets in one serial read are packets without a completion between them.

## Main result

* `tapWrites_iff`: the frames are assembled within their array, the deque is never popped empty,
  frames are written once and in order, and `broadcast_received` counts them, iff no packet has more
  than 498 bytes and each is handled while the deque is empty. Two packets in one read already break
  it (`tapWrites_fails`).
-/

open Bytes Messages StateMachine

namespace EspnowUartDevice

/-- A `RECEIVED_PACKET` at the front of the receiving buffer, and what follows it there. -/
structure ReceivedMessage where
  packet : ReceivedPacket
  following : List UInt8
  id_eq : packet.id = MessageId.receivedPacket
  fits : 11 + packet.data.length + following.length ≤ 1024 * 4

/-- What can happen to the TAP write queue. -/
inductive TapEvent
  /-- `handle_serial_packet` is called on data that a packet is at the front of. -/
  | received (message : ReceivedMessage)
  /-- The TAP write that was started first completes. -/
  | tunWriteCompleted

/-- The device after an event; `none` is a `pop_front` on an empty deque, or a frame that is copied
past the end of its array. -/
def tapStep (env : HostEnv) (d : EspnowUartDevice) : TapEvent → Option EspnowUartDevice
  | .received message =>
      (handleInBounds env d (message.packet.serialize env.order ++ message.following)).map
        fun r => r.state
  | .tunWriteCompleted => d.tunWriteCompleted

/-- The frame of a packet. -/
def frameOf (message : ReceivedMessage) : List UInt8 :=
  tapFrame message.packet.mac message.packet.data

/-- The frames of the packets received, in order. -/
def receivedFrames (es : List TapEvent) : List (List UInt8) :=
  es.filterMap fun
    | .received message => some (frameOf message)
    | .tunWriteCompleted => none

/-- An event in terms of the queue. -/
def TapEvent.toQueue : TapEvent → AsyncQueue.Event (List UInt8)
  | .received message => .write (frameOf message)
  | .tunWriteCompleted => .complete

/-- A packet that is received is handled: its frame is assembled within the array. -/
def Assembled (env : HostEnv) (d : EspnowUartDevice) : TapEvent → Prop
  | .received message => (tapStep env d (.received message)).isSome
  | .tunWriteCompleted => True

/-- The payload of a packet leaves room for the header of its frame. -/
def FitsFrame (_ : EspnowUartDevice) : TapEvent → Prop
  | .received message => message.packet.data.length ≤ 498
  | .tunWriteCompleted => True

/-- A packet is handled only while `tun_fd_write_buffers_` is empty. -/
def IdleReceive (d : EspnowUartDevice) : TapEvent → Prop
  | .received _ => d.tunFdWriteBuffers.queue = []
  | .tunWriteCompleted => True

/-- No completion finds the deque empty, the frames written are a prefix of those received, and
`broadcast_received` counts the frames written and those still queued. -/
structure TapExactlyOnce (d : EspnowUartDevice) : Prop where
  neverDry : d.tunFdWriteBuffers.NeverDry
  written_prefix : d.tunFdWriteBuffers.written <+: d.tunFdWriteBuffers.accepted
  count : d.statistics.broadcastReceived =
    d.tunFdWriteBuffers.written.length + d.tunFdWriteBuffers.queue.length

/-- `broadcast_received` counts the frames pushed. -/
def Counted (d : EspnowUartDevice) : Prop :=
  d.statistics.broadcastReceived = d.tunFdWriteBuffers.accepted.length

variable {env : HostEnv}

/-- A received packet is in bounds iff its payload has at most 498 bytes. -/
theorem ReceivedMessage.inBounds_iff (o : ByteOrder) (message : ReceivedMessage) :
    InBounds (message.packet.serialize o ++ message.following) ↔
      message.packet.data.length ≤ 498 := by
  have hfits := message.fits
  exact inBounds_serialize_iff o message.following message.id_eq (by omega)

/-- A received packet whose frame fits is one write on the queue. -/
theorem tapStep_received (d : EspnowUartDevice) {message : ReceivedMessage}
    (h : message.packet.data.length ≤ 498) :
    tapStep env d (.received message) =
      some (receivePacket d message.packet.mac message.packet.data) := by
  have hfits := message.fits
  rw [tapStep, handleInBounds, if_pos ((message.inBounds_iff env.order).mpr h),
    handleSerialPacket_serialize env d env.order _ message.id_eq (by omega), Option.map_some]

/-- A packet is handled iff its frame fits. -/
theorem assembled_iff (d : EspnowUartDevice) (e : TapEvent) :
    Assembled env d e ↔ FitsFrame d e := by
  cases e with
  | received message =>
      refine ⟨fun h => ?_, fun h => ?_⟩
      · show message.packet.data.length ≤ 498
        by_contra hlong
        have hnone : tapStep env d (.received message) = none := by
          rw [tapStep, handleInBounds, if_neg (mt (message.inBounds_iff env.order).mp hlong)]
          rfl
        rw [Assembled, hnone] at h
        cases h
      · rw [Assembled, tapStep_received d h]
        rfl
  | tunWriteCompleted => rfl

/-- The frame of a packet that is handled fits. -/
theorem fitsFrame_of_step {d t : EspnowUartDevice} {e : TapEvent} (ht : tapStep env d e = some t) :
    FitsFrame d e := by
  cases e with
  | received message => exact (assembled_iff d _).mp (Option.isSome_of_mem ht)
  | tunWriteCompleted => trivial

/-- A completion pops the front, if there is one. -/
theorem tapStep_tunWriteCompleted (d : EspnowUartDevice) :
    tapStep env d .tunWriteCompleted =
      (AsyncQueue.step AsyncQueue.popAndRestart d.tunFdWriteBuffers .complete).map
        fun q => { d with tunFdWriteBuffers := q } := by
  rw [tapStep, tunWriteCompleted, AsyncQueue.step, Option.map_bind]
  refine congrArg _ (funext fun q => ?_)
  show handleTunWrite _ false = (AsyncQueue.popAndRestart q).map _
  rw [AsyncQueue.popAndRestart, Option.map_map]
  rfl

variable (env) in
/-- The device's TAP side is an `AsyncQueue`. -/
theorem tapStep_map (d : EspnowUartDevice) (e : TapEvent) (h : FitsFrame d e) :
    (tapStep env d e).map tunFdWriteBuffers =
      AsyncQueue.step AsyncQueue.popAndRestart d.tunFdWriteBuffers e.toQueue := by
  cases e with
  | received message =>
      rw [tapStep_received d h]
      rfl
  | tunWriteCompleted =>
      rw [tapStep_tunWriteCompleted, Option.map_map]
      exact congrFun Option.map_id _

/-- A packet counts one and pushes one; a completion does neither. -/
theorem counted_step (d : EspnowUartDevice) (e : TapEvent) (t : EspnowUartDevice)
    (h : Counted d) (ht : tapStep env d e = some t) : Counted t := by
  cases e with
  | received message =>
      rw [tapStep_received d (fitsFrame_of_step ht), Option.some.injEq] at ht
      subst ht
      simp [Counted, receivePacket, show d.statistics.broadcastReceived = _ from h]
  | tunWriteCompleted =>
      obtain ⟨q, hacc, rfl⟩ := tunWriteCompleted_cases ht
      show d.statistics.broadcastReceived = q.accepted.length
      rw [hacc]
      exact h

/-- The frames pushed are those of the packets received. -/
theorem accepted_tapRun {d t : EspnowUartDevice} {es : List TapEvent}
    (hrun : run (tapStep env) d es = some t) :
    t.tunFdWriteBuffers.accepted = d.tunFdWriteBuffers.accepted ++ receivedFrames es := by
  have hqueue : run (AsyncQueue.step AsyncQueue.popAndRestart) d.tunFdWriteBuffers
      (es.map TapEvent.toQueue) = some t.tunFdWriteBuffers := by
    have hfits : EachEvent (tapStep env) FitsFrame d es :=
      eachEvent_of_run (fun _ _ _ => fitsFrame_of_step) hrun
    rw [← run_map_of_eachEvent (tapStep_map env) hfits, hrun, Option.map_some]
  rw [AsyncQueue.accepted_run (fun _ _ => AsyncQueue.accepted_of_popAndRestart) hqueue,
    AsyncQueue.writes, List.filterMap_map, receivedFrames]
  congr 2
  funext e
  cases e <;> rfl

/-- Along every run from a new device, and while what it leaves outstanding completes, each frame is
assembled within its array, the deque is never popped empty and the frames are written exactly once
and in order, iff no payload has more than 498 bytes and each packet is handled while the deque is
empty. -/
theorem tapWrites_iff (env : HostEnv) (port : SerialPortSocket) (id : String)
    (details : DeviceDetails) (tunFdBuffer : List.Vector UInt8 512) (es : List TapEvent) :
    (∀ t, run (tapStep env) (new port id details tunFdBuffer) es = some t →
        t.tunFdWriteBuffers.accepted = receivedFrames es) ∧
      (EachEvent (tapStep env) (Assembled env) (new port id details tunFdBuffer) es ∧
          AlwaysDrained (tapStep env) TapExactlyOnce .tunWriteCompleted
            (new port id details tunFdBuffer) es ↔
        EachEvent (tapStep env) FitsFrame (new port id details tunFdBuffer) es ∧
          EachStep (tapStep env) IdleReceive (new port id details tunFdBuffer) es) := by
  refine ⟨fun t ht => accepted_tapRun ht, ?_⟩
  have hassembled : EachEvent (tapStep env) (Assembled env) (new port id details tunFdBuffer) es ↔
      EachEvent (tapStep env) FitsFrame (new port id details tunFdBuffer) es :=
    eachEvent_congr counted_step (fun d e _ => assembled_iff d e)
      (show Counted (new port id details tunFdBuffer) from rfl) es
  rw [hassembled]
  refine and_congr_right fun hfits => ?_
  -- in terms of the queue
  have hqueue := AsyncQueue.neverDry_iff_idleWrites (fun _ _ => rfl)
    (AsyncQueue.singleFlight_empty (α := List UInt8)) (es.map TapEvent.toQueue)
  have hprop := alwaysDrained_map_of_eachEvent (tapStep_map env)
    (fun q => q.NeverDry ∧ q.written <+: q.accepted ∧
      q.accepted.length = q.written.length + q.queue.length)
    (d := .tunWriteCompleted) (fun _ => trivial) hfits
  have hcond := eachStep_map_of_eachEvent (tapStep_map env) AsyncQueue.IdleWrite hfits
  have hidle (d : EspnowUartDevice) (e : TapEvent) :
      AsyncQueue.IdleWrite d.tunFdWriteBuffers e.toQueue ↔ IdleReceive d e := by
    cases e <;> rfl
  simp only [hidle] at hcond
  -- the counter counts what was pushed
  have hcount (d : EspnowUartDevice) (h : Counted d) : TapExactlyOnce d ↔
      d.tunFdWriteBuffers.NeverDry ∧ d.tunFdWriteBuffers.written <+: d.tunFdWriteBuffers.accepted ∧
        d.tunFdWriteBuffers.accepted.length =
          d.tunFdWriteBuffers.written.length + d.tunFdWriteBuffers.queue.length := by
    rw [← show d.statistics.broadcastReceived = _ from h]
    exact ⟨fun h => ⟨h.1, h.2, h.3⟩, fun h => ⟨h.1, h.2.1, h.2.2⟩⟩
  have hstart : Counted (new port id details tunFdBuffer) := rfl
  exact (alwaysDrained_congr counted_step hcount hstart es).trans
    (hprop.trans (hqueue.trans hcond.symm))

/-- Two packets in one read: the first frame is written twice, and the third completion pops an
empty deque. -/
theorem tapWrites_fails :
    let env : HostEnv := ⟨.little, fun _ => []⟩
    let port := SerialPortSocket.new (.replicate _ 0)
    let d := new port "espnow0" ⟨[], .replicate 6 0, 0, ⟨0, 0, 0⟩⟩ (.replicate _ 0)
    let p : ReceivedPacket := { mac := .replicate 6 1, data := [1] }
    let q : ReceivedPacket := { mac := .replicate 6 1, data := [2] }
    let first : ReceivedMessage := ⟨p, q.serialize .little, by decide, by decide⟩
    let second : ReceivedMessage := ⟨q, [], by decide, by decide⟩
    (run (tapStep env) d [.received first, .received second, .tunWriteCompleted,
        .tunWriteCompleted]).map (fun d => d.tunFdWriteBuffers.written) =
          some [frameOf first, frameOf first] ∧
      run (tapStep env) d [.received first, .received second, .tunWriteCompleted,
        .tunWriteCompleted, .tunWriteCompleted] = none ∧
      ¬ AlwaysDrained (tapStep env) TapExactlyOnce .tunWriteCompleted d
        [.received first, .received second] := by
  intro env port d p q first second
  have hreceived (es : List TapEvent) :
      run (tapStep env) d (.received first :: .received second :: es) =
        run (tapStep env) (receivePacket (receivePacket d p.mac p.data) q.mac q.data) es := by
    rw [run_cons, tapStep_received d (by decide), Option.bind_some, run_cons,
      tapStep_received _ (by decide), Option.bind_some]
  refine ⟨by rw [hreceived]; rfl, by rw [hreceived]; rfl, fun h => ?_⟩
  -- after two completions an operation is outstanding and the deque is empty
  have hrun : (run (tapStep env) d [.received first, .received second, .tunWriteCompleted,
      .tunWriteCompleted]).map tunFdWriteBuffers =
        some ⟨[], [(1, frameOf second)], 2, [frameOf first, frameOf second],
          [frameOf first, frameOf first]⟩ := by
    rw [hreceived]; rfl
  obtain ⟨t, hqueue, hexactlyOnce⟩ := (h 2).exists_last hrun
  have hdry : t.tunFdWriteBuffers.NeverDry := hexactlyOnce.neverDry
  rw [hqueue] at hdry
  exact hdry (by simp) rfl

end EspnowUartDevice
