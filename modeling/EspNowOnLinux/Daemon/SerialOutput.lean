import EspNowOnLinux.Bridging
import EspNowOnLinux.Daemon.SerialLine

/-!
# What the daemon writes to the serial port

The frames that the daemon forwards, the answer to the handshake, and both of them in the order in
which they are passed to `serial_port_socket::write`. What the serial port brings may be anything.

## Main results

* `tunReadHandle_forwarded?`: what a TAP frame is forwarded as, if it is;
* `answers_readHandle`: whatever a serial read brings, the answer is `START_HOST`, and it is given
  once;
* `Written.split`: behind the answer there are only packets.
-/

open Bridging Bytes Framing Messages

/-! ## Forwarded frames and the answer -/

/-- The packet that a TAP frame is forwarded as, if it is. -/
def forwarded? (frame : PacketBuffer 512) : Option PacketToSend :=
  if h : 14 ≤ frame.buffer.length ∧ frameType frame.buffer = [0x88, 0xb5] then
    some (forwarded frame.buffer h.1)
  else none

/-- The packets that TAP frames are forwarded as. -/
def forwardedPackets (tapped : List (PacketBuffer 512)) : List PacketToSend :=
  tapped.filterMap forwarded?

/-- What is forwarded fits into the buffers of both sides. -/
theorem sendable_forwarded {frame : PacketBuffer 512} {packet : PacketToSend}
    (h : forwarded? frame = some packet) : JtagTask.Sendable packet := by
  unfold forwarded? at h
  split at h
  · next hframe =>
    obtain rfl := Option.some.inj h
    have hfits := length_forwarded hframe.1 .little
    rw [PacketToSend.length_serialize] at hfits
    exact ⟨rfl, hfits⟩
  · cases h

namespace EspnowUartDevice

variable {env : HostEnv} {d t : EspnowUartDevice}

/-- A frame is forwarded as `forwarded?` says, or is dropped. -/
theorem tunReadHandle_forwarded? {frame : PacketBuffer 512}
    (ht : tunReadHandle env d false frame = some t) :
    (forwarded? frame = none ∧ ∃ tunFdBuffer, t = { d with tunFdBuffer }) ∨
      ∃ packet p tunFdBuffer, forwarded? frame = some packet ∧
        p.buffer = packet.serialize env.order ∧ t = { d with
          serialPort := { d.serialPort with writeQueue := d.serialPort.writeQueue.write p }
          tunFdBuffer
          statistics := { d.statistics with
            broadcastSent := d.statistics.broadcastSent + 1 } } := by
  by_cases hlen : 14 ≤ frame.buffer.length
  · by_cases htype : frameType frame.buffer = [0x88, 0xb5]
    · rw [tunReadHandle_forwarded env d hlen htype, Option.some.injEq] at ht
      exact Or.inr ⟨_, _, _, dif_pos ⟨hlen, htype⟩, rfl, ht.symm⟩
    · rw [tunReadHandle_dropped env d hlen htype, Option.some.injEq] at ht
      exact Or.inl ⟨dif_neg fun h => htype h.2, _, ht.symm⟩
  -- a frame that is too short is not forwarded, whatever the array holds behind it
  · rw [tunReadHandle, if_neg Bool.false_ne_true] at ht
    simp only [if_neg hlen, Option.ite_none_left_eq_some, Option.some.injEq] at ht
    exact Or.inl ⟨dif_neg fun h => hlen h.1, _, ht.2.symm⟩

/-- The answer sets `requested_start_` and writes `START_HOST`. -/
theorem answerStartDevice_cases {data : List UInt8} (h : answerStartDevice env d data = some t) :
    t.requestedStart = true ∧
      t.serialPort.writeQueue = d.serialPort.writeQueue.write ⟨startHost, by decide⟩ := by
  rw [answerStartDevice, SerialPortSocket.write_eq _ (by decide), Option.bind_eq_bind,
    Option.bind_some] at h
  obtain ⟨got, -, hgot⟩ := Option.bind_eq_some_iff.mp h
  obtain rfl := Option.some.inj hgot
  exact ⟨rfl, rfl⟩

/-- From `d` to `t` the serial port was not written to, or the answer was given. -/
def Answers (d t : EspnowUartDevice) : Prop :=
  (t.requestedStart = d.requestedStart ∧
      t.serialPort.writeQueue = d.serialPort.writeQueue) ∨
    (d.requestedStart = false ∧ t.requestedStart = true ∧ ∃ p : PacketBuffer 512,
      p.buffer = startHost ∧ t.serialPort.writeQueue = d.serialPort.writeQueue.write p)

/-- Whatever a serial read brings, the answer to it is `START_HOST`, and it is given once. -/
theorem answers_readHandle {bytes : List UInt8} {r : EspnowUartDevice × List (List UInt8)}
    (hr : readHandle env d false bytes = some r) : Answers d r.1 := by
  rw [readHandle, if_neg Bool.false_ne_true] at hr
  obtain ⟨u, hu, rfl⟩ := Option.map_eq_some_iff.mp hr
  have hstep (s : EspnowUartDevice) (data : List UInt8) (r : Reply EspnowUartDevice UInt8)
      (hs : Answers d s) (hr : serialPortReadHandle env false s data = some r) :
      Answers d r.state := by
    rcases handleSerialPacket_cases hr with hsame | ⟨hfalse, hanswer⟩ | ⟨mac, payload, hreceived⟩
    · rwa [hsame]
    -- this is the first answer, as there is none in `s`
    · rcases hs with ⟨hrequested, hqueue⟩ | ⟨-, htrue, -⟩
      · obtain ⟨htrue, hwrite⟩ := answerStartDevice_cases hanswer
        exact Or.inr ⟨hrequested ▸ hfalse, htrue, ⟨startHost, by decide⟩, rfl, hqueue ▸ hwrite⟩
      · rw [hfalse] at htrue
        cases htrue
    · rw [hreceived]
      exact hs
  exact ReceivingBuffer.consumeLoop_invariant hstep (fun _ _ h => h)
    (show Answers d d.readCompleted from Or.inl ⟨rfl, rfl⟩) hu

end EspnowUartDevice

/-! ## The line -/

namespace SerialLine

/-- What the daemon has written: its answer at most once, and the packets that frames are forwarded
as. -/
structure Written (o : ByteOrder) (packets : List PacketToSend) (answered : Bool)
    (line : SerialLine) : Prop where
  packets_eq : (line.map PacketBuffer.buffer).filter (· ≠ startHost) =
    packets.map (PacketToSend.serialize o)
  answers_eq : ((line.map PacketBuffer.buffer).filter (· = startHost)).length = answered.toNat

variable {o : ByteOrder} {packets more : List PacketToSend} {answered : Bool}
  {line new : SerialLine}

/-- A packet is not the answer. -/
theorem serialize_ne_startHost (o : ByteOrder) (packet : PacketToSend) :
    packet.serialize o ≠ startHost := by
  intro heq
  have hlen := packet.length_serialize o
  rw [heq, show startHost.length = 1 from rfl] at hlen
  omega

theorem Written.answer (h : Written o packets false line) {p : PacketBuffer 512}
    (hp : p.buffer = startHost) : Written o packets true (line ++ [p]) := by
  constructor
  · rw [← h.packets_eq, List.map_append, List.filter_append]
    simp [hp]
  · rw [List.map_append, List.filter_append, List.length_append, h.answers_eq]
    simp [hp]

theorem Written.packet (h : Written o packets answered line) {packet : PacketToSend}
    {p : PacketBuffer 512} (hp : p.buffer = packet.serialize o) :
    Written o (packets ++ [packet]) answered (line ++ [p]) := by
  have hne := serialize_ne_startHost o packet
  constructor
  · rw [List.map_append, List.filter_append, h.packets_eq]
    simp [hp, hne]
  · rw [List.map_append, List.filter_append, List.length_append, h.answers_eq]
    simp [hp, hne]

theorem Written.isMessage (h : Written o packets answered line)
    (hid : ∀ packet ∈ packets, packet.id = MessageId.packetToSend) :
    ∀ p ∈ line, IsMessage o p := by
  intro p hp
  by_cases hstart : p.buffer = startHost
  · exact Or.inl hstart
  · have hmem : p.buffer ∈ (line.map PacketBuffer.buffer).filter (· ≠ startHost) :=
      List.mem_filter.mpr ⟨List.mem_map_of_mem hp, decide_eq_true hstart⟩
    rw [h.packets_eq] at hmem
    obtain ⟨packet, hpacket, hbuffer⟩ := List.mem_map.mp hmem
    exact Or.inr ⟨packet, hid packet hpacket, hbuffer.symm⟩

/-- Behind the answer there are only packets, and they are the last ones. The others have been
written before them, with the answer. -/
theorem Written.split (h : Written o packets answered line) {pre post : SerialLine}
    (hline : line = pre ++ post) (hanswer : ∃ p ∈ pre, p.buffer = startHost) :
    answered = true ∧ ∃ before after, packets = before ++ after ∧ Written o before true pre ∧
      post.map PacketBuffer.buffer = after.map (PacketToSend.serialize o) := by
  obtain ⟨hpackets, hanswers⟩ := h
  obtain ⟨p, hp, hstart⟩ := hanswer
  have hpos : 0 < ((pre.map PacketBuffer.buffer).filter (· = startHost)).length :=
    List.length_pos_of_mem (List.mem_filter.mpr ⟨List.mem_map_of_mem hp, decide_eq_true hstart⟩)
  rw [hline, List.map_append, List.filter_append] at hpackets hanswers
  rw [List.length_append] at hanswers
  have hle := Bool.toNat_le answered
  -- the one answer is in `pre`
  have hnone : (post.map PacketBuffer.buffer).filter (· = startHost) = [] :=
    List.eq_nil_of_length_eq_zero (by omega)
  have hpost : (post.map PacketBuffer.buffer).filter (· ≠ startHost) =
      post.map PacketBuffer.buffer := by
    refine List.filter_eq_self.mpr fun bytes hbytes => decide_eq_true fun heq => ?_
    have hmem : bytes ∈ (post.map PacketBuffer.buffer).filter (· = startHost) :=
      List.mem_filter.mpr ⟨hbytes, decide_eq_true heq⟩
    rw [hnone] at hmem
    exact List.not_mem_nil hmem
  rw [hpost] at hpackets
  obtain ⟨before, after, hsplit, hbefore, hafter⟩ := List.map_eq_append_iff.mp hpackets.symm
  have hone : answered.toNat = 1 := by omega
  refine ⟨Bool.toNat_eq_one.mp hone, before, after, hsplit, ⟨hbefore.symm, ?_⟩, hafter.symm⟩
  rw [Bool.toNat_true]
  omega

end SerialLine
