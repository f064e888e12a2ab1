import EspNowOnLinux.Lib.AsyncQueue
import EspNowOnLinux.Utility.ReceivingBuffer

/-!
# The serial port of the daemon

`serial_port_socket`: the queue of packets to write, the asynchronous operations on it, and the
outstanding read. `write` and `write_handle` both start an operation on the front of the queue, so
the queue is an `AsyncQueue` and the class is a discipline of calling its operations (`step_map`).

The loop of `read_handle` is `ReceivingBuffer.consumeLoop`; it calls back into the owner of the
port, so `readHandle` is with the owner. No one installs a `write_handler_`.

## Main result

* `SerialPortSocket.exactlyOnce_iff`: packets are transferred once, in order and out of live buffers
  iff each of them is written while the queue is empty. A packet that is written while another one
  is being transferred starts a second operation on the front of the queue (`exactlyOnce_fails`).
-/

open StateMachine

/-- `packet_buffer<buffer_size>`: the part of the array that `size` covers. -/
structure PacketBuffer (bufferSize : ℕ) where
  /-- The bytes of the packet. -/
  buffer : List UInt8
  /-- The packet fits in the array. -/
  size_le : buffer.length ≤ bufferSize
  deriving DecidableEq

/-- `serial_port_socket`, with the port in terms of the operations outstanding on it. -/
structure SerialPortSocket where
  /-- `buffer_`. -/
  buffer : ReceivingBuffer (1024 * 4)
  /-- `write_queue_` and the operations that `start_writing` has started. -/
  writeQueue : AsyncQueue (PacketBuffer 512)
  /-- The size of the buffer that the outstanding `async_read_some` was given. -/
  readRequest : Option ℕ

namespace SerialPortSocket

/-- A socket as it is constructed, over an array that holds `contents`. -/
def new (contents : List.Vector UInt8 (1024 * 4)) : SerialPortSocket :=
  ⟨.new contents, .empty, none⟩

/-- `serial_port_socket::start_reading`. -/
def startReading (s : SerialPortSocket) : SerialPortSocket :=
  { s with readRequest := some s.buffer.getWritable.length }

/-- `serial_port_socket::start_writing`. -/
def startWriting (s : SerialPortSocket) : SerialPortSocket :=
  { s with writeQueue := s.writeQueue.startWrite }

/-- `serial_port_socket::write`. The copy into the `packet_buffer<512>` is not checked; `none` is a
copy past its end. -/
def write (s : SerialPortSocket) (data : List UInt8) : Option SerialPortSocket :=
  if h : data.length ≤ 512 then
    some (startWriting { s with writeQueue := s.writeQueue.push ⟨data, h⟩ })
  else none

/-- `serial_port_socket::write_handle`. -/
def writeHandle (s : SerialPortSocket) : Option SerialPortSocket :=
  if s.writeQueue.queue ≠ [] then
    s.writeQueue.popFront.map fun q => startWriting { s with writeQueue := q }
  else some s

/-- The operation that was started first has transferred its buffer and `write_handle` is called. -/
def writeCompleted (s : SerialPortSocket) : Option SerialPortSocket :=
  s.writeQueue.transfer.bind fun q => writeHandle { s with writeQueue := q }

/-- A packet that fits is pushed and an operation is started. -/
theorem write_eq (s : SerialPortSocket) {data : List UInt8} (h : data.length ≤ 512) :
    s.write data = some { s with writeQueue := s.writeQueue.write ⟨data, h⟩ } := by
  rw [write, dif_pos h]
  rfl

/-- What the completion of a write does to the queue. -/
def finish (q : AsyncQueue (PacketBuffer 512)) : Option (AsyncQueue (PacketBuffer 512)) :=
  if q.queue ≠ [] then q.popAndRestart else some q

theorem finish_eq (q : AsyncQueue (PacketBuffer 512)) (hq : q.queue ≠ []) :
    finish q = q.popAndRestart := if_pos hq

/-- A completion changes the queue only. -/
theorem writeCompleted_eq (s : SerialPortSocket) :
    s.writeCompleted =
      (AsyncQueue.step finish s.writeQueue .complete).map fun q => { s with writeQueue := q } := by
  rw [writeCompleted, AsyncQueue.step, Option.map_bind]
  refine congrArg _ (funext fun q => ?_)
  by_cases hq : q.queue ≠ []
  · show writeHandle _ = (finish q).map _
    rw [writeHandle, finish, if_pos hq, if_pos hq, AsyncQueue.popAndRestart, Option.map_map]
    rfl
  · show writeHandle _ = (finish q).map _
    rw [writeHandle, finish, if_neg hq, if_neg hq, Option.map_some]

/-! ## Interleavings of writes and completions -/

/-- What can happen to a socket that is only written to. -/
inductive Event
  /-- `write` is called with a packet of at most 512 bytes. -/
  | write (packet : PacketBuffer 512)
  /-- The operation that was started first completes. -/
  | writeCompleted
  deriving DecidableEq

/-- The socket after an event. -/
def step (s : SerialPortSocket) : Event → Option SerialPortSocket
  | .write packet => s.write packet.buffer
  | .writeCompleted => s.writeCompleted

/-- An event in terms of the queue. -/
def Event.toQueue : Event → AsyncQueue.Event (PacketBuffer 512)
  | .write packet => .write packet
  | .writeCompleted => .complete

/-- The packets passed to `write`. -/
def writes (es : List Event) : List (PacketBuffer 512) := AsyncQueue.writes (es.map Event.toQueue)

/-- The socket's write side is an `AsyncQueue` with `finish` as its completion handler. -/
theorem step_map (s : SerialPortSocket) (e : Event) :
    (step s e).map writeQueue = AsyncQueue.step finish s.writeQueue e.toQueue := by
  cases e with
  | write packet =>
      rw [step, write_eq s packet.size_le]
      rfl
  | writeCompleted =>
      rw [step, writeCompleted_eq, Option.map_map]
      exact congrFun Option.map_id _

/-- `write` is called only while `write_queue_` is empty. -/
def IdleWrite (s : SerialPortSocket) : Event → Prop
  | .write _ => s.writeQueue.queue = []
  | .writeCompleted => True

/-- The packets transferred are a prefix of those passed to `write`, all of them once no operation
is outstanding, and every outstanding operation refers to an element of the queue. -/
def ExactlyOnce (s : SerialPortSocket) : Prop :=
  s.writeQueue.RefersLive ∧ s.writeQueue.InOrder

/-- What has been accepted is what `write` was called with. -/
theorem accepted_run {s t : SerialPortSocket} {es : List Event} (hrun : run step s es = some t) :
    t.writeQueue.accepted = s.writeQueue.accepted ++ writes es := by
  have hacc (q u : AsyncQueue (PacketBuffer 512)) (hu : finish q = some u) :
      u.accepted = q.accepted := by
    unfold finish at hu
    split at hu
    · exact AsyncQueue.accepted_of_popAndRestart hu
    · rw [Option.some.inj hu]
  refine AsyncQueue.accepted_run hacc ?_
  rw [← run_map step_map, hrun, Option.map_some]

/-- A completion pushes nothing. -/
theorem accepted_writeCompleted {s t : SerialPortSocket} (h : s.writeCompleted = some t) :
    t.writeQueue.accepted = s.writeQueue.accepted := by
  have hrun : run step s [.writeCompleted] = some t := by
    rw [run_cons, step, h]
    rfl
  rw [accepted_run hrun]
  exact List.append_nil _

/-- A completion changes nothing but the queue, and pushes nothing to it. -/
theorem writeCompleted_cases {s t : SerialPortSocket} (h : s.writeCompleted = some t) :
    ∃ q, q.accepted = s.writeQueue.accepted ∧ t = { s with writeQueue := q } := by
  have hacc := accepted_writeCompleted h
  rw [writeCompleted_eq] at h
  obtain ⟨q, -, rfl⟩ := Option.map_eq_some_iff.mp h
  exact ⟨q, hacc, rfl⟩

/-- Along every run from a new socket, and while what it leaves outstanding completes, packets are
transferred exactly once, in order and out of elements of the queue, iff each call of `write` finds
the queue empty. -/
theorem exactlyOnce_iff (contents : List.Vector UInt8 (1024 * 4)) (es : List Event) :
    (∀ t, run step (new contents) es = some t → t.writeQueue.accepted = writes es) ∧
      (AlwaysDrained step ExactlyOnce .writeCompleted (new contents) es ↔
        EachStep step IdleWrite (new contents) es) := by
  refine ⟨fun t ht => accepted_run ht, ?_⟩
  have hqueue := AsyncQueue.refersLive_iff_idleWrites finish_eq
    (AsyncQueue.singleFlight_empty (α := PacketBuffer 512)) (es.map Event.toQueue)
  have hprop := alwaysDrained_map step_map (fun q => q.RefersLive ∧ q.InOrder)
    .writeCompleted (new contents) es
  have hcond := eachStep_map step_map AsyncQueue.IdleWrite (new contents) es
  have hidle (s : SerialPortSocket) (e : Event) :
      AsyncQueue.IdleWrite s.writeQueue e.toQueue ↔ IdleWrite s e := by
    cases e <;> rfl
  simp only [hidle] at hcond
  exact hprop.trans (hqueue.trans hcond.symm)

/-- Two packets written back to back: the first is transferred twice, the second time out of an
element that has been removed. -/
theorem exactlyOnce_fails :
    let a : PacketBuffer 512 := ⟨[1], by decide⟩
    let b : PacketBuffer 512 := ⟨[2], by decide⟩
    let socket := new (List.Vector.replicate _ 0)
    (run step socket [.write a, .write b, .writeCompleted, .writeCompleted, .writeCompleted]).map
        (fun s => s.writeQueue.written) = some [a, a, b] ∧
      ¬ AlwaysDrained step ExactlyOnce .writeCompleted socket [.write a, .write b] := by
  intro a b socket
  refine ⟨rfl, fun h => ?_⟩
  -- after the first completion an operation on the removed element is outstanding
  have hrun : (run step socket [.write a, .write b, .writeCompleted]).map writeQueue =
      some ⟨[b], [(0, a), (1, b)], 1, [a, b], [a]⟩ := rfl
  obtain ⟨t, hqueue, hexactlyOnce⟩ := (h 1).exists_last hrun
  have hlive : t.writeQueue.RefersLive := hexactlyOnce.1
  rw [hqueue] at hlive
  exact absurd (hlive (0, a) List.mem_cons_self).1 (by decide)

end SerialPortSocket
