import EspNowOnLinux.Daemon.SerialPortSocket

/-!
# Short writes

`async_write_some` may transfer a part of the buffer that it is given, and `write_handle` pops that
buffer whatever `bytes_transferred` is. Here packets are written one at a time, each when the
previous operation has completed, and an operation transfers any number of bytes up to the size of
its buffer.

## Main result

* `inFull_iff`: whenever no operation is outstanding the line carries the packets, byte for byte,
  throughout a run iff every operation transfers its whole packet. What a short write leaves over is
  never transferred.
-/

open StateMachine

/-- A socket and the bytes that have been put on the serial line. -/
structure ShortWrites where
  socket : SerialPortSocket
  line : List UInt8

namespace ShortWrites

/-- What can happen to the socket. -/
inductive Event
  /-- `write` is called. -/
  | write (packet : PacketBuffer 512)
  /-- The outstanding operation completes without an error. -/
  | writeCompleted (bytesTransferred : ℕ)
  deriving DecidableEq

/-- A socket over an array that holds `contents`. -/
def start (contents : List.Vector UInt8 (1024 * 4)) : ShortWrites := ⟨.new contents, []⟩

/-- `async_write_some` can transfer this many of `size` bytes: at least one, if there is one. -/
def Transfers (size bytesTransferred : ℕ) : Prop :=
  bytesTransferred ≤ size ∧ (0 < size → 0 < bytesTransferred)

instance (size bytesTransferred : ℕ) : Decidable (Transfers size bytesTransferred) :=
  inferInstanceAs (Decidable (_ ∧ _))

/-- The state after an event; `none` is an event that cannot happen. -/
def step (s : ShortWrites) : Event → Option ShortWrites
  | .write packet =>
      -- the previous operation has completed
      if s.socket.writeQueue.inFlight = [] then
        (s.socket.write packet.buffer).map fun socket => { s with socket }
      else none
  | .writeCompleted bytesTransferred =>
      match s.socket.writeQueue.inFlight with
      | [] => none
      | (_, packet) :: _ =>
        if Transfers packet.buffer.length bytesTransferred then
          s.socket.writeCompleted.map fun socket =>
            ⟨socket, s.line ++ packet.buffer.take bytesTransferred⟩
        else none

/-- The packets that `write` is called with. -/
def writes (es : List Event) : List (PacketBuffer 512) :=
  es.filterMap fun
    | .write packet => some packet
    | .writeCompleted _ => none

/-- The bytes of packets, one after the other. -/
def bytes (packets : List (PacketBuffer 512)) : List UInt8 := packets.flatMap PacketBuffer.buffer

/-- With no operation outstanding, what is on the line is what was written. -/
def InFull (s : ShortWrites) : Prop :=
  s.socket.writeQueue.inFlight = [] → s.line = bytes s.socket.writeQueue.accepted

/-- The operation transfers its whole packet. -/
def FullWrite (s : ShortWrites) : Event → Prop
  | .write _ => True
  | .writeCompleted bytesTransferred =>
      ∀ op ∈ s.socket.writeQueue.inFlight, bytesTransferred = op.2.buffer.length

/-! ## One step -/

/-- A packet is written to an empty queue, and an operation on it is started. -/
theorem step_write {s t : ShortWrites} {packet : PacketBuffer 512}
    (hflight : s.socket.writeQueue.SingleFlight) (h : step s (.write packet) = some t) :
    s.socket.writeQueue.written = s.socket.writeQueue.accepted ∧ t.line = s.line ∧
    t.socket.writeQueue = { s.socket.writeQueue with
      queue := [packet]
      inFlight := [(s.socket.writeQueue.popped, packet)]
      accepted := s.socket.writeQueue.accepted ++ [packet] } := by
  rw [step] at h
  split at h
  · next hidle =>
    rw [SerialPortSocket.write_eq _ packet.size_le, Option.map_some] at h
    obtain rfl := Option.some.inj h
    have hqueue : s.socket.writeQueue.queue = [] := by
      have hmap := hflight.inFlight_eq
      rw [hidle] at hmap
      exact List.map_eq_nil_iff.mp hmap.symm
    refine ⟨hflight.inOrder.2 hidle, rfl, ?_⟩
    rw [AsyncQueue.write_of_idle packet hqueue, hidle]
    rfl
  · cases h

/-- A completion puts a part of the packet on the line and pops the packet. -/
theorem step_writeCompleted {s t : ShortWrites} {bytesTransferred : ℕ}
    (hflight : s.socket.writeQueue.SingleFlight)
    (h : step s (.writeCompleted bytesTransferred) = some t) :
    ∃ packet : PacketBuffer 512,
      s.socket.writeQueue.inFlight = [(s.socket.writeQueue.popped, packet)] ∧
      s.socket.writeQueue.accepted = s.socket.writeQueue.written ++ [packet] ∧
      bytesTransferred ≤ packet.buffer.length ∧
      t.line = s.line ++ packet.buffer.take bytesTransferred ∧
      t.socket.writeQueue = { s.socket.writeQueue with
        queue := []
        inFlight := []
        popped := s.socket.writeQueue.popped + 1
        written := s.socket.writeQueue.written ++ [packet] } := by
  rw [step] at h
  rcases hflight.cases with ⟨-, hidle, -⟩ | ⟨packet, hqueue, hfly, hacc⟩
  · rw [hidle] at h
    cases h
  · rw [hfly] at h
    dsimp only at h
    split at h
    · next htransfers =>
      rw [SerialPortSocket.writeCompleted_eq,
        AsyncQueue.step_complete SerialPortSocket.finish_eq hfly hqueue] at h
      obtain rfl := Option.some.inj h
      exact ⟨packet, hfly, hacc, htransfers.1, rfl, rfl⟩
    · cases h

/-! ## Whole runs -/

/-- The invariant of the runs without short writes. -/
structure Inv (s : ShortWrites) : Prop where
  singleFlight : s.socket.writeQueue.SingleFlight
  line_eq : s.line = bytes s.socket.writeQueue.written

theorem bytes_concat (packets : List (PacketBuffer 512)) (packet : PacketBuffer 512) :
    bytes (packets ++ [packet]) = bytes packets ++ packet.buffer := by
  rw [bytes, List.flatMap_append, List.flatMap_singleton]
  rfl

theorem Inv.inFull {s : ShortWrites} (h : Inv s) : InFull s := by
  intro hidle
  rw [h.line_eq, h.singleFlight.inOrder.2 hidle]

/-- There is one operation at a time, whether it is short or not. -/
theorem singleFlight_step {s t : ShortWrites} {e : Event}
    (h : s.socket.writeQueue.SingleFlight) (ht : step s e = some t) :
    t.socket.writeQueue.SingleFlight := by
  cases e with
  | write packet =>
      obtain ⟨hwritten, -, hqueue⟩ := step_write h ht
      rw [hqueue]
      exact ⟨le_rfl, rfl, congrArg (· ++ [packet]) hwritten.symm⟩
  | writeCompleted bytesTransferred =>
      obtain ⟨packet, -, hacc, -, -, hqueue⟩ := step_writeCompleted h ht
      rw [hqueue]
      exact ⟨Nat.zero_le _, rfl, hacc.trans (List.append_nil _).symm⟩

/-- A step that is not a short write keeps the invariant. -/
theorem inv_step (s : ShortWrites) (e : Event) (t : ShortWrites) (h : Inv s)
    (hfull : FullWrite s e) (ht : step s e = some t) : Inv t := by
  refine ⟨singleFlight_step h.singleFlight ht, ?_⟩
  cases e with
  | write packet =>
      obtain ⟨-, hline, hqueue⟩ := step_write h.singleFlight ht
      rw [hline, h.line_eq, hqueue]
  | writeCompleted bytesTransferred =>
      obtain ⟨packet, hfly, -, -, hline, hqueue⟩ := step_writeCompleted h.singleFlight ht
      have hcount : bytesTransferred = packet.buffer.length :=
        hfull _ (hfly ▸ List.mem_singleton_self _)
      rw [hline, hcount, List.take_length, hqueue, bytes_concat, h.line_eq]

/-- After a short write nothing is outstanding and bytes are missing. -/
theorem fullWrite_of_inFull (s : ShortWrites) (e : Event) (t : ShortWrites) (h : Inv s)
    (ht : step s e = some t) (hinFull : InFull t) : FullWrite s e := by
  cases e with
  | write packet => trivial
  | writeCompleted bytesTransferred =>
      obtain ⟨packet, hfly, hacc, hle, hline, hqueue⟩ := step_writeCompleted h.singleFlight ht
      have hbytes : t.line = bytes t.socket.writeQueue.accepted := hinFull (by rw [hqueue])
      rw [hline, hqueue, hacc, bytes_concat, h.line_eq] at hbytes
      have hlength := congrArg List.length (List.append_cancel_left hbytes)
      rw [List.length_take] at hlength
      intro op hop
      rw [hfly, List.mem_singleton] at hop
      subst hop
      show bytesTransferred = packet.buffer.length
      omega

/-- What the queue has accepted is what was passed to `write`. -/
theorem accepted_run {s t : ShortWrites} {es : List Event}
    (h : s.socket.writeQueue.SingleFlight) (hrun : run step s es = some t) :
    t.socket.writeQueue.accepted = s.socket.writeQueue.accepted ++ writes es := by
  induction es generalizing s with
  | nil =>
      obtain rfl : s = t := Option.some.inj hrun
      exact (List.append_nil _).symm
  | cons e es ih =>
      obtain ⟨u, hu, hrun⟩ := run_cons_eq_some.mp hrun
      rw [ih (singleFlight_step h hu) hrun]
      cases e with
      | write packet =>
          obtain ⟨-, -, hqueue⟩ := step_write h hu
          rw [hqueue, List.append_assoc]
          rfl
      | writeCompleted bytesTransferred =>
          obtain ⟨_, -, -, -, -, hqueue⟩ := step_writeCompleted h hu
          rw [hqueue]
          rfl

/-- Along every run from a new socket the queue accepts what is passed to `write`, and, whenever no
operation is outstanding, the line carries just that iff no operation is a short write. -/
theorem inFull_iff (contents : List.Vector UInt8 (1024 * 4)) (es : List Event) :
    (∀ t, run step (start contents) es = some t → t.socket.writeQueue.accepted = writes es) ∧
      (Always step InFull (start contents) es ↔ EachStep step FullWrite (start contents) es) :=
  ⟨fun _ ht => accepted_run AsyncQueue.singleFlight_empty ht,
    always_iff_eachStep Inv inv_step (fun _ h => h.inFull) fullWrite_of_inFull
      ⟨AsyncQueue.singleFlight_empty, rfl⟩ es⟩

/-- Of a packet of two bytes one is transferred: the other one is lost, and the next packet follows
right behind. -/
theorem inFull_fails :
    let a : PacketBuffer 512 := ⟨[1, 2], by decide⟩
    let b : PacketBuffer 512 := ⟨[3, 4], by decide⟩
    let es : List Event := [.write a, .writeCompleted 1, .write b, .writeCompleted 2]
    (run step (start (.replicate _ 0)) es).map line = some [1, 3, 4] ∧
      ¬ Always step InFull (start (.replicate _ 0)) es := by
  intro a b es
  refine ⟨rfl, fun h => ?_⟩
  have hrun : (run step (start (.replicate _ 0)) es).map
      (fun s => (s.line, s.socket.writeQueue)) =
        some ([1, 3, 4], ⟨[], [], 2, [a, b], [a, b]⟩) := rfl
  obtain ⟨t, hmap, hlast⟩ := h.exists_last hrun
  obtain ⟨hline, hqueue⟩ := Prod.mk.inj hmap
  have hinFull : t.line = bytes t.socket.writeQueue.accepted := hlast (by rw [hqueue])
  rw [hline, hqueue] at hinFull
  exact absurd hinFull (by decide)

end ShortWrites
