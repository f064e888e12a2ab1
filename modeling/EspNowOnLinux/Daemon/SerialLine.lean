import EspNowOnLinux.Daemon.HostRun

/-!
# The serial line to a device

What the daemon writes to a device, one packet after the other, and where in the bytes its answer
to the handshake begins. The line is what `serial_port_socket::write` has been called with.

## Main results

* `writes_step`: whatever happens to the daemon, it writes its answer or a frame, and nothing else;
* `AnswerAt.unique` and `Delivered.answers`: it answers once;
* `answerAt_of_head?`: at the beginning of a message only the answer has the id `START_HOST`.
-/

open Bytes Framing Messages StateMachine

/-- The packets written to a device, in order. -/
abbrev SerialLine := List (PacketBuffer 512)

namespace SerialLine

/-- The bytes that the device can read. -/
def bytes (line : SerialLine) : List UInt8 := stream PacketBuffer.buffer line

/-- What the daemon writes: its answer, or a frame as a `PACKET_TO_SEND`. -/
def IsMessage (o : ByteOrder) (p : PacketBuffer 512) : Prop :=
  p.buffer = startHost ∨
    ∃ packet : PacketToSend, packet.id = MessageId.packetToSend ∧ p.buffer = packet.serialize o

/-- The answer is a packet of its own that begins after `n` bytes. -/
def AnswerAt (line : SerialLine) (n : ℕ) : Prop :=
  ∃ pre p post, line = pre ++ p :: post ∧ p.buffer = startHost ∧ (bytes pre).length = n

/-- The first `n` bytes end inside a message. -/
def MidMessage (line : SerialLine) (n : ℕ) : Prop := tail PacketBuffer.buffer line n ≠ []

variable {line new : SerialLine} {n m : ℕ}

theorem bytes_append (line new : SerialLine) : bytes (line ++ new) = bytes line ++ bytes new :=
  stream_append line new

/-- What is written later moves no answer. -/
theorem AnswerAt.append (h : AnswerAt line n) (new : SerialLine) : AnswerAt (line ++ new) n := by
  obtain ⟨pre, p, post, rfl, hp, hn⟩ := h
  exact ⟨pre, p, post ++ new, by rw [List.append_assoc, List.cons_append], hp, hn⟩

/-- An answer among the packets written later lies behind all bytes written before. -/
theorem exists_answerAt {p : PacketBuffer 512} (hmem : p ∈ new) (hp : p.buffer = startHost)
    (line : SerialLine) : ∃ n, (bytes line).length ≤ n ∧ AnswerAt (line ++ new) n := by
  obtain ⟨pre, post, rfl⟩ := List.append_of_mem hmem
  refine ⟨(bytes (line ++ pre)).length, ?_, line ++ pre, p, post, ?_, hp, rfl⟩
  · rw [bytes_append, List.length_append]
    exact Nat.le_add_right _ _
  · rw [List.append_assoc]

/-- Of two answers one comes first. -/
theorem AnswerAt.two_of_lt (hn : AnswerAt line n) (hm : AnswerAt line m) (hlt : n < m) :
    2 ≤ ((line.map PacketBuffer.buffer).filter (· = startHost)).length := by
  obtain ⟨pre, p, post, hline, hp, rfl⟩ := hn
  obtain ⟨pre', p', post', hline', hp', rfl⟩ := hm
  rw [hline] at hline'
  rcases List.append_eq_append_iff.mp hline' with ⟨mid, rfl, htail⟩ | ⟨mid, rfl, -⟩
  -- the packets before the second answer are those before the first, `p` and others
  · cases mid with
    | nil =>
        rw [List.append_nil] at hlt
        exact absurd hlt (Nat.lt_irrefl _)
    | cons q mid =>
        rw [List.cons_append, List.cons.injEq] at htail
        obtain ⟨rfl, rfl⟩ := htail
        simp only [hline, List.map_append, List.map_cons, hp, hp', List.filter_append,
          List.filter_cons, decide_true, if_true, List.length_append, List.length_cons]
        omega
  · rw [bytes_append, List.length_append] at hlt
    omega

/-- With one answer on the line there is one place where it begins. -/
theorem AnswerAt.unique (hn : AnswerAt line n) (hm : AnswerAt line m)
    (hone : ((line.map PacketBuffer.buffer).filter (· = startHost)).length ≤ 1) : n = m := by
  rcases Nat.lt_trichotomy n m with hlt | heq | hgt
  · have htwo := hn.two_of_lt hm hlt
    omega
  · exact heq
  · have htwo := hm.two_of_lt hn hgt
    omega

/-- An answer has a byte. -/
theorem AnswerAt.lt_length (h : AnswerAt line n) : n < line.bytes.length := by
  obtain ⟨pre, p, post, rfl, hp, rfl⟩ := h
  rw [bytes_append, List.length_append, bytes, bytes, stream_cons, hp, List.length_append]
  exact Nat.lt_add_of_pos_right (Nat.add_pos_left Nat.one_pos _)

/-- An answer begins at the beginning of a message. -/
theorem AnswerAt.not_midMessage (h : AnswerAt line n) : ¬ MidMessage line n := by
  obtain ⟨pre, p, post, rfl, -, rfl⟩ := h
  refine not_not_intro ((tail_eq_nil_iff ?_).mpr ⟨pre, List.prefix_append _ _, rfl⟩)
  show (bytes pre).length ≤ (bytes (pre ++ p :: post)).length
  rw [bytes_append, List.length_append]
  exact Nat.le_add_right _ _

/-- A message that begins with the id of `START_HOST` is the answer. -/
theorem IsMessage.eq_startHost {o : ByteOrder} {p : PacketBuffer 512} (h : IsMessage o p)
    (hid : p.buffer.head? = some MessageId.startHost) : p.buffer = startHost := by
  rcases h with h | ⟨packet, hpacket, h⟩
  · exact h
  · rw [h, PacketToSend.serialize_eq, packetBytes, hpacket] at hid
    exact absurd (Option.some.inj hid) (by decide)

theorem IsMessage.ne_nil {o : ByteOrder} {p : PacketBuffer 512} (h : IsMessage o p) :
    p.buffer ≠ [] := by
  rcases h with h | ⟨packet, -, h⟩
  · rw [h]
    exact List.cons_ne_nil _ _
  · refine List.ne_nil_of_length_pos ?_
    rw [h, PacketToSend.length_serialize]
    omega

/-- Where a message begins and the next byte is the id of `START_HOST`, the answer begins. -/
theorem answerAt_of_head? {o : ByteOrder} (hline : ∀ p ∈ line, IsMessage o p)
    (hn : n ≤ line.bytes.length) (hmid : ¬ MidMessage line n)
    (hid : (line.bytes.drop n).head? = some MessageId.startHost) : AnswerAt line n := by
  obtain ⟨pre, ⟨post, rfl⟩, rfl⟩ := (tail_eq_nil_iff hn).mp (not_not.mp hmid)
  have hdrop : (bytes (pre ++ post)).drop (stream PacketBuffer.buffer pre).length = bytes post := by
    rw [bytes_append]
    exact List.drop_left
  rw [hdrop] at hid
  -- the next byte is the first one of the next message
  cases post with
  | nil => cases hid
  | cons p post =>
      have hp := hline p (List.mem_append_right pre List.mem_cons_self)
      rw [bytes, stream_cons, List.head?_append_of_ne_nil _ hp.ne_nil] at hid
      exact ⟨pre, p, post, rfl, hp.eq_startHost hid, rfl⟩

end SerialLine

namespace EspnowUartDevice

open SerialLine

/-- The line to the device. -/
def line (d : EspnowUartDevice) : SerialLine := d.serialPort.writeQueue.accepted

/-- From `d` to `t` the daemon has written messages. -/
def Writes (o : ByteOrder) (d t : EspnowUartDevice) : Prop :=
  ∃ new, t.line = d.line ++ new ∧ ∀ p ∈ new, IsMessage o p

variable {env : HostEnv} {d t u : EspnowUartDevice}

theorem Writes.of_eq {o : ByteOrder} (h : t.line = d.line) : Writes o d t :=
  ⟨[], by rw [h, List.append_nil], fun _ hp => absurd hp List.not_mem_nil⟩

theorem Writes.of_write {o : ByteOrder} {p : PacketBuffer 512}
    (h : t.serialPort.writeQueue = d.serialPort.writeQueue.write p) (hp : IsMessage o p) :
    Writes o d t := by
  refine ⟨[p], ?_, fun q hq => List.mem_singleton.mp hq ▸ hp⟩
  rw [line, h, AsyncQueue.accepted_write]
  rfl

theorem Writes.trans {o : ByteOrder} (h : Writes o d t) (h' : Writes o t u) : Writes o d u := by
  obtain ⟨new, hnew, hp⟩ := h
  obtain ⟨new', hnew', hp'⟩ := h'
  refine ⟨new ++ new', by rw [hnew', hnew, List.append_assoc], fun p hmem => ?_⟩
  rcases List.mem_append.mp hmem with h | h
  · exact hp p h
  · exact hp' p h

/-- A message from the device leads to the answer or to nothing. -/
theorem writes_deliver (o : ByteOrder) (d : EspnowUartDevice) (m : DeviceMessage) :
    Writes o d (deliver env d m) := by
  cases m with
  | startDevice message =>
      rw [deliver, receiveStartDevice]
      split
      · exact .of_write rfl (Or.inl rfl)
      · exact .of_eq rfl
  | receivedPacket mac payload => exact .of_eq rfl
  | logInfo text => exact .of_eq rfl
  | logInfoUart payload => exact .of_eq rfl
  | ping => exact .of_eq rfl

theorem writes_foldl (o : ByteOrder) (ns : List DeviceMessage) (d : EspnowUartDevice) :
    Writes o d (ns.foldl (deliver env) d) := by
  induction ns generalizing d with
  | nil => exact .of_eq rfl
  | cons n ns ih => exact (writes_deliver o d n).trans (ih _)

/-- A frame is written as a `PACKET_TO_SEND` or not at all. -/
theorem writes_tunReadHandle {frame : PacketBuffer 512}
    (ht : tunReadHandle env d false frame = some t) : Writes env.order d t := by
  rcases tunReadHandle_cases ht with ⟨buffer, rfl⟩ | ⟨packet, hfits, buffer, statistics, hid, rfl⟩
  · exact .of_eq rfl
  · exact .of_write rfl (Or.inr ⟨packet, hid, rfl⟩)

variable {initial : DeviceDetails} {ms : List DeviceMessage}

/-- There is an answer on the line iff `requested_start_` is set, and then there is one. -/
theorem Delivered.answers (h : Delivered env initial ms d) :
    ((d.line.map PacketBuffer.buffer).filter (· = startHost)).length = d.requestedStart.toNat := by
  have hstartHosts : (d.line.map PacketBuffer.buffer).filter (· = startHost) = _ := h.startHosts_eq
  rw [hstartHosts, h.requestedStart_eq]
  cases DeviceMessage.firstStart ms <;> rfl

end EspnowUartDevice

namespace HostRun

open EspnowUartDevice

/-- Whatever happens to the daemon, it writes messages. -/
theorem writes_step {env : HostEnv} {initial : DeviceDetails} {ms : List DeviceMessage}
    (hms : ∀ m ∈ ms, m.WellFormed) {s t : HostRun} {e : HostEvent} (h : Inv env initial ms s)
    (ht : step env (stream DeviceMessage.encode ms) s e = some t) :
    Writes env.order s.device t.device := by
  rcases step_cases ht with ⟨count, r, rfl, hcan, -, -⟩ | ⟨frame, d, rfl, -, hd, rfl⟩ |
    ⟨port, rfl, hport, rfl⟩ | ⟨d, rfl, hd, rfl⟩
  · obtain ⟨t', ht', -, ns, buffer, hdevice⟩ := h.serialRead hms hcan
    obtain rfl := Option.some.inj (ht'.symm.trans ht)
    rw [hdevice]
    exact (writes_foldl env.order ns s.device.readCompleted).trans (.of_eq rfl)
  · exact writes_tunReadHandle hd
  · obtain ⟨q, hacc, rfl⟩ := SerialPortSocket.writeCompleted_cases hport
    exact .of_eq hacc
  -- a write to the TAP device is none to the serial port
  · obtain ⟨q, -, rfl⟩ := tunWriteCompleted_cases hd
    exact .of_eq rfl

end HostRun
