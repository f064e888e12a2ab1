import EspNowOnLinux.Daemon.SerialOutput
import EspNowOnLinux.Network.Node

/-!
# From the TAP device to the radio

What becomes of the frames that the daemon reads from its TAP device: those with the ethertype are
written to the serial port, before the answer to the handshake and after it, the handshake loop of
the device drops what it reads, and `jtag_receive_task` sends the rest. The device reads what the
daemon's writes have transferred, the whole packet in each of them, and the daemon may get anything
at all from the device.

## Main result

* `sent_consecutive`: if each packet is written while no other one is being written, and the read
  that ends the handshake begins and ends between two packets, then the calls of `esp_now_send` are
  those of consecutive forwarded frames: what is lost has been written in front of the end of that
  read, and nothing is lost, repeated, reordered or altered behind it.
-/

open Bridging Bytes Framing Messages SerialLine StateMachine

namespace ToRadio

instance (line : SerialLine) (n : ℕ) : Decidable (MidMessage line n) :=
  inferInstanceAs (Decidable (tail PacketBuffer.buffer line n ≠ []))

variable {o : ByteOrder} {packets more : List PacketToSend} {answered : Bool}
  {line new : SerialLine}

/-! ## The device -/

/-- What the task can read of the bytes that are there does not depend on those that follow. -/
theorem jtagStep_append {env : FirmwareEnv} {bytes : List UInt8} {run run' : JtagRun} {count : ℕ}
    (more : List UInt8) (h : run.step env bytes count = some run') :
    run.step env (bytes ++ more) count = some run' := by
  rw [JtagRun.step, Option.ite_none_right_eq_some] at h
  obtain ⟨hcan, hrun⟩ := h
  have hle := hcan.2
  have hmore : JtagRun.CanRead (bytes ++ more) run count :=
    ⟨hcan.1, by rw [List.length_append]; exact Nat.le_add_right_of_le hle⟩
  rw [JtagRun.step, if_pos hmore, List.drop_append_of_le_length (by omega),
    List.take_append_of_le_length (by rw [List.length_drop]; omega), hrun]

/-- The task's invariant does not depend on what is sent later. -/
theorem jtagInv_append {run : JtagRun} (h : run.Inv o packets) (more : List PacketToSend) :
    run.Inv o (packets ++ more) := by
  have hcomplete := complete_append JtagRun.serialize_ne_nil h.received_le more
  have htail := tail_append JtagRun.serialize_ne_nil h.received_le more
  refine ⟨?_, ?_, h.wellFormed, ?_⟩
  · rw [stream_append, List.length_append]
    exact Nat.le_add_right_of_le h.received_le
  · rw [hcomplete, h.sent_eq]
  · rw [htail, h.getData_eq]

/-- The task runs on the packets that are written behind the first `origin` bytes, among which the
answer is. -/
structure Handed (o : ByteOrder) (packets : List PacketToSend) (line : SerialLine) (origin : ℕ)
    (pre post : SerialLine) (before after : List PacketToSend) (run : JtagRun) : Prop where
  line_eq : line = pre ++ post
  answer : ∃ p ∈ pre, p.buffer = startHost
  origin_eq : (bytes pre).length = origin
  packets_eq : packets = before ++ after
  pre_written : Written o before true pre
  post_eq : post.map PacketBuffer.buffer = after.map (PacketToSend.serialize o)
  inv : run.Inv o after

/-- Where the device is with the bytes that have been transferred to it. -/
def Position (o : ByteOrder) (packets : List PacketToSend) (line : SerialLine)
    (transferred : List UInt8) : UsbMain → Prop
  | .pushing taken => taken ≤ transferred.length
  | .reading taken => taken ≤ transferred.length
  | .task _ origin run => ∃ pre post before after,
      Handed o packets line origin pre post before after run

/-- One more packet. -/
theorem Handed.packet {origin : ℕ} {pre post : SerialLine} {before after : List PacketToSend}
    {run : JtagRun} (h : Handed o packets line origin pre post before after run)
    {packet : PacketToSend} {p : PacketBuffer 512} (hp : p.buffer = packet.serialize o) :
    Handed o (packets ++ [packet]) (line ++ [p]) origin pre (post ++ [p]) before
      (after ++ [packet]) run where
  line_eq := by rw [h.line_eq, List.append_assoc]
  answer := h.answer
  origin_eq := h.origin_eq
  packets_eq := by rw [h.packets_eq, List.append_assoc]
  pre_written := h.pre_written
  post_eq := by
    rw [List.map_append, List.map_append, h.post_eq]
    exact congrArg (fun bytes => _ ++ [bytes]) hp
  inv := jtagInv_append h.inv _

/-- What the task reads is what is written behind the answer. -/
theorem Handed.bytes_drop {origin : ℕ} {pre post : SerialLine} {before after : List PacketToSend}
    {run : JtagRun} (h : Handed o packets line origin pre post before after run) :
    (bytes line).drop origin = stream (PacketToSend.serialize o) after := by
  rw [h.line_eq, bytes_append, ← h.origin_eq, List.drop_left, bytes, stream, List.flatMap_def,
    h.post_eq, ← List.flatMap_def]
  rfl

/-- A read of the task. -/
theorem Handed.read {env : FirmwareEnv} {origin count : ℕ} {pre post : SerialLine}
    {before after : List PacketToSend} {run run' : JtagRun} {transferred : List UInt8}
    (h : Handed o packets line origin pre post before after run)
    (hsendable : ∀ packet ∈ packets, JtagTask.Sendable packet)
    (htransferred : transferred <+: bytes line)
    (ht : run.step env (transferred.drop origin) count = some run') :
    Handed o packets line origin pre post before after run' := by
  obtain ⟨rest, hrest⟩ := htransferred.drop origin
  have hstep := jtagStep_append rest ht
  rw [hrest, h.bytes_drop] at hstep
  have hafter : ∀ packet ∈ after, JtagTask.Sendable packet := fun packet hpacket =>
    hsendable packet (h.packets_eq ▸ List.mem_append_right before hpacket)
  exact ⟨h.line_eq, h.answer, h.origin_eq, h.packets_eq, h.pre_written, h.post_eq,
    JtagRun.inv_step hafter run count run' h.inv hstep⟩

/-- A read that begins and ends between two packets and begins with the id of the answer hands the
rest over. -/
theorem exists_handed {taken count : ℕ} (h : Written o packets answered line)
    (hid : ∀ packet ∈ packets, packet.id = MessageId.packetToSend)
    (hpos : 0 < count) (hle : taken + count ≤ (bytes line).length)
    (hhead : ((bytes line).drop taken).head? = some MessageId.startHost)
    (hbegin : ¬ MidMessage line taken) (hend : ¬ MidMessage line (taken + count))
    (contents : List.Vector UInt8 512) :
    ∃ pre post before after, Handed o packets line (taken + count) pre post before after
      (.start contents) := by
  obtain ⟨front, p, back, hfront, hp, hlen⟩ :=
    answerAt_of_head? (h.isMessage hid) (by omega) hbegin hhead
  obtain ⟨pre, ⟨post, hpre⟩, horigin⟩ := (tail_eq_nil_iff hle).mp (not_not.mp hend)
  -- the answer is among the packets read, since the read goes beyond where it begins
  have hfront' : front <+: line := ⟨p :: back, hfront.symm⟩
  have hanswer : p ∈ pre := by
    rcases List.prefix_or_prefix_of_prefix hfront' ⟨post, hpre⟩ with hshort | hlong
    · obtain ⟨mid, rfl⟩ := hshort
      cases mid with
      | nil =>
          rw [List.append_nil] at horigin
          have hsame : (bytes front).length = taken + count := horigin
          omega
      | cons q mid =>
          rw [hfront, List.append_assoc] at hpre
          obtain ⟨rfl, -⟩ := List.cons.inj (List.append_cancel_left hpre)
          exact List.mem_append_right front List.mem_cons_self
    · obtain ⟨mid, rfl⟩ := hlong
      rw [bytes_append, List.length_append] at hlen
      have hsame : (bytes pre).length = taken + count := horigin
      omega
  obtain ⟨-, before, after, hpackets, hbefore, hafter⟩ := h.split hpre.symm ⟨p, hanswer, hp⟩
  exact ⟨pre, post, before, after, hpre.symm, ⟨p, hanswer, hp⟩, horigin, hpackets, hbefore, hafter,
    JtagRun.inv_start o contents after⟩

end ToRadio

/-! ## What happens to the daemon -/

namespace ToRadio

variable {o : ByteOrder} {setup : Setup} {host host' : HostRun} {bytes : List UInt8}

/-- The frame that an event reads from the TAP device. -/
def frames : HostEvent → List (PacketBuffer 512)
  | .tunRead frame => [frame]
  | _ => []

/-- What an event writes to the serial port. -/
theorem hostStep_writes {e : HostEvent}
    (ht : HostRun.step setup.host bytes host e = some host') :
    (host'.device.requestedStart = host.device.requestedStart ∧
        host'.device.serialPort.writeQueue = host.device.serialPort.writeQueue ∧
        forwardedPackets (frames e) = []) ∨
      (host.device.requestedStart = false ∧ host'.device.requestedStart = true ∧
        forwardedPackets (frames e) = [] ∧ ∃ p : PacketBuffer 512, p.buffer = startHost ∧
          host'.device.serialPort.writeQueue = host.device.serialPort.writeQueue.write p) ∨
      (host'.device.requestedStart = host.device.requestedStart ∧
        ∃ packet p, forwardedPackets (frames e) = [packet] ∧
          p.buffer = packet.serialize setup.host.order ∧
          host'.device.serialPort.writeQueue = host.device.serialPort.writeQueue.write p) ∨
      (host'.device.requestedStart = host.device.requestedStart ∧
        forwardedPackets (frames e) = [] ∧ host'.device.line = host.device.line ∧
        AsyncQueue.step SerialPortSocket.finish host.device.serialPort.writeQueue .complete =
          some host'.device.serialPort.writeQueue) := by
  rcases HostRun.step_cases ht with ⟨count, r, rfl, -, hr, -, rfl⟩ | ⟨frame, d, rfl, -, hd, rfl⟩ |
    ⟨port, rfl, hport, rfl⟩ | ⟨d, rfl, hd, rfl⟩
  -- a serial read answers the first announcement, and writes nothing else
  · rcases EspnowUartDevice.answers_readHandle hr with ⟨hrequested, hqueue⟩ |
      ⟨hfalse, htrue, hp⟩
    · exact Or.inl ⟨hrequested, hqueue, rfl⟩
    · exact Or.inr (Or.inl ⟨hfalse, htrue, rfl, hp⟩)
  -- a TAP frame is forwarded or dropped
  · rcases EspnowUartDevice.tunReadHandle_forwarded? hd with
      ⟨hnone, _, rfl⟩ | ⟨packet, p, _, hsome, hp, rfl⟩
    · exact Or.inl ⟨rfl, rfl, List.filterMap_cons_none hnone⟩
    · exact Or.inr (Or.inr (Or.inl ⟨rfl, packet, p, List.filterMap_cons_some hsome, hp, rfl⟩))
  · refine Or.inr (Or.inr (Or.inr
      ⟨rfl, rfl, SerialPortSocket.accepted_writeCompleted hport, ?_⟩))
    rw [SerialPortSocket.writeCompleted_eq] at hport
    obtain ⟨q, hq, rfl⟩ := Option.map_eq_some_iff.mp hport
    exact hq
  · obtain ⟨q, -, rfl⟩ := EspnowUartDevice.tunWriteCompleted_cases hd
    exact Or.inl ⟨rfl, rfl, rfl⟩

/-- What has been transferred stays transferred. -/
theorem written_prefix {q t : AsyncQueue (PacketBuffer 512)}
    {e : AsyncQueue.Event (PacketBuffer 512)} (h : q.SingleFlight)
    (ht : AsyncQueue.step SerialPortSocket.finish q e = some t) : q.written <+: t.written := by
  -- while nothing is outstanding nothing is transferred, else the front is
  rcases h.cases with ⟨hq, hfly, -⟩ | ⟨x, hq, hfly, -⟩
  · cases e with
    | write y =>
        obtain rfl : q.write y = t := Option.some.inj ht
        rw [AsyncQueue.write_of_idle y hq]
    | complete => simp [AsyncQueue.step, AsyncQueue.transfer, hfly] at ht
  · cases e with
    | write y =>
        obtain rfl : q.write y = t := Option.some.inj ht
        rw [AsyncQueue.write_of_cons y hq]
    | complete =>
        rw [AsyncQueue.step_complete SerialPortSocket.finish_eq hfly hq, Option.some.injEq] at ht
        subst ht
        exact List.prefix_append _ _

/-- The invariant. -/
structure Inv (o : ByteOrder) (tapped : List (PacketBuffer 512)) (device : EspnowUartDevice)
    (usb : UsbMain) : Prop where
  flight : device.serialPort.writeQueue.SingleFlight
  written : Written o (forwardedPackets tapped) device.requestedStart device.line
  position : Position o (forwardedPackets tapped) device.line
    (stream PacketBuffer.buffer device.serialPort.writeQueue.written) usb

variable {tapped : List (PacketBuffer 512)} {device : EspnowUartDevice} {usb : UsbMain}

/-- What has been transferred is the first part of what was written. -/
theorem Inv.transferred_prefix (h : Inv o tapped device usb) :
    stream PacketBuffer.buffer device.serialPort.writeQueue.written <+:
      SerialLine.bytes device.line := by
  obtain ⟨rest, hrest⟩ := h.flight.inOrder.1
  refine ⟨stream PacketBuffer.buffer rest, ?_⟩
  rw [← stream_append, hrest]
  rfl

theorem sendable_of_mem {packet : PacketToSend} (h : packet ∈ forwardedPackets tapped) :
    JtagTask.Sendable packet := by
  obtain ⟨frame, -, hframe⟩ := List.mem_filterMap.mp h
  exact sendable_forwarded hframe

/-- More has been transferred, and nothing has been written. -/
theorem Position.mono {packets : List PacketToSend} {line : SerialLine}
    {transferred transferred' : List UInt8} (h : Position o packets line transferred usb)
    (hle : transferred.length ≤ transferred'.length) :
    Position o packets line transferred' usb := by
  cases usb with
  | pushing taken => exact Nat.le_trans h hle
  | reading taken => exact Nat.le_trans h hle
  | task first origin run => exact h

/-- A packet is written to the empty queue. -/
theorem Inv.write {tapped' : List (PacketBuffer 512)} {device' : EspnowUartDevice}
    {p : PacketBuffer 512} (h : Inv o tapped device usb)
    (hidle : device.serialPort.writeQueue.queue = [])
    (hqueue : device'.serialPort.writeQueue = device.serialPort.writeQueue.write p)
    (hwritten : Written o (forwardedPackets tapped') device'.requestedStart (device.line ++ [p]))
    (hposition : Position o (forwardedPackets tapped') (device.line ++ [p])
      (stream PacketBuffer.buffer device.serialPort.writeQueue.written) usb) :
    Inv o tapped' device' usb := by
  have hline : device'.line = device.line ++ [p] := by
    rw [EspnowUartDevice.line, hqueue, AsyncQueue.accepted_write]
    rfl
  have hflight : (device.serialPort.writeQueue.write p).SingleFlight :=
    AsyncQueue.singleFlight_step SerialPortSocket.finish_eq _ (.write p) _ h.flight hidle rfl
  have htransferred : device'.serialPort.writeQueue.written =
      device.serialPort.writeQueue.written := by
    rw [hqueue, AsyncQueue.write_of_idle p hidle]
  exact ⟨hqueue ▸ hflight, hline ▸ hwritten, by rw [hline, htransferred]; exact hposition⟩

/-- The answer is written. The task is not running yet: it runs behind the answer. -/
theorem Inv.answer {device' : EspnowUartDevice} {p : PacketBuffer 512}
    (h : Inv o tapped device usb) (hidle : device.serialPort.writeQueue.queue = [])
    (hqueue : device'.serialPort.writeQueue = device.serialPort.writeQueue.write p)
    (hp : p.buffer = startHost) (hfalse : device.requestedStart = false)
    (htrue : device'.requestedStart = true) : Inv o tapped device' usb := by
  have hwritten := h.written
  have hposition := h.position
  rw [hfalse] at hwritten
  refine h.write hidle hqueue (htrue ▸ hwritten.answer hp) ?_
  cases usb with
  | pushing taken => exact hposition
  | reading taken => exact hposition
  | task first origin run =>
      obtain ⟨pre, post, before, after, hhanded⟩ := hposition
      -- the task runs behind an answer, and none has been written
      exact absurd (hwritten.split hhanded.line_eq hhanded.answer).1 Bool.false_ne_true

/-- A packet is written. -/
theorem Inv.packet {device' : EspnowUartDevice} {packet : PacketToSend}
    {p : PacketBuffer 512} (h : Inv o tapped device usb)
    (hidle : device.serialPort.writeQueue.queue = [])
    (hqueue : device'.serialPort.writeQueue = device.serialPort.writeQueue.write p)
    (hp : p.buffer = packet.serialize o)
    (hrequested : device'.requestedStart = device.requestedStart)
    {new : List (PacketBuffer 512)} (hnew : forwardedPackets new = [packet]) :
    Inv o (tapped ++ new) device' usb := by
  have hpackets : forwardedPackets (tapped ++ new) = forwardedPackets tapped ++ [packet] := by
    rw [forwardedPackets, List.filterMap_append]
    exact congrArg _ hnew
  have hposition := h.position
  refine h.write hidle hqueue (by rw [hrequested, hpackets]; exact h.written.packet hp) ?_
  rw [hpackets]
  cases usb with
  | pushing taken => exact hposition
  | reading taken => exact hposition
  | task first origin run =>
      obtain ⟨pre, post, before, after, hhanded⟩ := hposition
      exact ⟨pre, post ++ [p], before, after ++ [packet], hhanded.packet hp⟩

/-- Something happens to the daemon, and it writes only while the queue is empty. -/
theorem Inv.hostStep {e : HostEvent} (h : Inv setup.host.order tapped host.device usb)
    (hidle : host'.device.line ≠ host.device.line →
      host.device.serialPort.writeQueue.queue = [])
    (ht : HostRun.step setup.host bytes host e = some host') :
    Inv setup.host.order (tapped ++ frames e) host'.device usb := by
  have hchanged {p : PacketBuffer 512} (hqueue : host'.device.serialPort.writeQueue =
      host.device.serialPort.writeQueue.write p) :
      host.device.serialPort.writeQueue.queue = [] := by
    refine hidle fun heq => ?_
    rw [EspnowUartDevice.line, EspnowUartDevice.line, hqueue, AsyncQueue.accepted_write] at heq
    simpa using congrArg List.length heq
  have hsame (hnone : forwardedPackets (frames e) = []) :
      forwardedPackets (tapped ++ frames e) = forwardedPackets tapped := by
    rw [forwardedPackets, List.filterMap_append]
    exact (congrArg _ hnone).trans (List.append_nil _)
  rcases hostStep_writes ht with ⟨hrequested, hqueue, hnone⟩ |
    ⟨hfalse, htrue, hnone, p, hp, hqueue⟩ | ⟨hrequested, packet, p, hnew, hp, hqueue⟩ |
    ⟨hrequested, hnone, hline, hcomplete⟩
  · have hline : host'.device.line = host.device.line := congrArg AsyncQueue.accepted hqueue
    refine ⟨hqueue ▸ h.flight, ?_, ?_⟩
    · rw [hsame hnone, hrequested, hline]
      exact h.written
    · rw [hsame hnone, hline, hqueue]
      exact h.position
  · have hanswer := h.answer (hchanged hqueue) hqueue hp hfalse htrue
    exact ⟨hanswer.flight, by rw [hsame hnone]; exact hanswer.written,
      by rw [hsame hnone]; exact hanswer.position⟩
  · exact h.packet (hchanged hqueue) hqueue hp hrequested hnew
  -- a completion: more has been transferred
  · obtain ⟨rest, hrest⟩ := written_prefix h.flight hcomplete
    refine ⟨AsyncQueue.singleFlight_step SerialPortSocket.finish_eq _ .complete _ h.flight trivial
      hcomplete, ?_, ?_⟩
    · rw [hsame hnone, hrequested, hline]
      exact h.written
    · rw [hsame hnone, hline]
      refine h.position.mono ?_
      rw [← hrest, stream_append, List.length_append]
      exact Nat.le_add_right _ _

/-- The device is handed bytes: the loop drops them, or they end it, or they are the task's. -/
theorem Inv.read {env : FirmwareEnv} {contents : List.Vector UInt8 512} {count : ℕ}
    {usb' : UsbMain} (h : Inv o tapped device usb)
    (hclean : ∀ taken, usb = .reading taken → 0 < count →
      ((stream PacketBuffer.buffer device.serialPort.writeQueue.written).drop taken).head? =
        some MessageId.startHost →
      ¬ MidMessage device.line taken ∧ ¬ MidMessage device.line (taken + count))
    (ht : usb.read env contents
      (stream PacketBuffer.buffer device.serialPort.writeQueue.written) count = some usb') :
    Inv o tapped device usb' := by
  refine ⟨h.flight, h.written, ?_⟩
  have hposition := h.position
  have hprefix := h.transferred_prefix
  cases usb with
  | pushing taken => cases ht
  | reading taken =>
      obtain ⟨hle, ⟨hpos, hhead, rfl⟩ | ⟨-, rfl⟩⟩ := UsbMain.read_reading ht
      -- the read begins with the answer's id: it ends the loop
      · obtain ⟨hbegin, hend⟩ := hclean taken rfl hpos hhead
        obtain ⟨rest, hrest⟩ := hprefix
        refine exists_handed h.written (fun packet hpacket => (sendable_of_mem hpacket).id_eq) hpos
          ?_ ?_ hbegin hend contents
        · rw [← hrest, List.length_append]
          exact Nat.le_add_right_of_le hle
        · rw [← hrest, List.drop_append_of_le_length (by omega), List.head?_append, hhead]
          rfl
      · exact hle
  | task first origin run =>
      obtain ⟨run', hrun, rfl⟩ := Option.map_eq_some_iff.mp ht
      obtain ⟨pre, post, before, after, hhanded⟩ := hposition
      exact ⟨pre, post, before, after,
        hhanded.read (fun packet hpacket => sendable_of_mem hpacket) hprefix hrun⟩

end ToRadio

/-! ## Whole runs -/

namespace Node

open ToRadio

variable (setup : Setup)

/-- A packet that the daemon writes to the serial port finds no other one there. -/
def IdleWrite (s : Node) (e : Event) : Prop :=
  ∀ t ∈ step setup s e, t.host.device.line ≠ s.host.device.line →
    s.host.device.serialPort.writeQueue.queue = []

instance (s : Node) (e : Event) : Decidable (IdleWrite setup s e) :=
  inferInstanceAs (Decidable (∀ t ∈ step setup s e, _))

/-- The read that ends the handshake begins and ends between two packets. -/
def CleanHandover (s : Node) : Event → Prop
  | .read count =>
    match s.usb with
    | .reading taken => 0 < count → (s.toDevice.drop taken).head? = some MessageId.startHost →
        ¬ MidMessage s.host.device.line taken ∧ ¬ MidMessage s.host.device.line (taken + count)
    | _ => True
  | _ => True

instance (s : Node) : ∀ e, Decidable (CleanHandover s e)
  | .read count =>
      match h : s.usb with
      | .pushing _ => isTrue (by rw [CleanHandover, h]; trivial)
      | .reading taken => decidable_of_iff (0 < count →
          (s.toDevice.drop taken).head? = some MessageId.startHost →
          ¬ MidMessage s.host.device.line taken ∧ ¬ MidMessage s.host.device.line (taken + count))
          (by rw [CleanHandover, h])
      | .task _ _ _ => isTrue (by rw [CleanHandover, h]; trivial)
  | .host _ => isTrue trivial
  | .announce => isTrue trivial
  | .log _ => isTrue trivial
  | .ping => isTrue trivial
  | .received _ _ => isTrue trivial
  | .callback => isTrue trivial
  | .sendFailed => isTrue trivial
  | .main => isTrue trivial
  | .uart _ => isTrue trivial

/-- The calls of `esp_now_send` are those of consecutive packets among those that the frames read so
far are forwarded as. Once everything has been transferred and read, they are the last ones. -/
structure Forwards (s : Node) : Prop where
  /-- Nothing is sent before the handshake is complete. -/
  nil_of_not_ready : ¬ s.Ready → s.sent = []
  /-- What is missing are the packets `before`, written in front of the end of the handshake. Of
  those behind it, all that the device has read completely have been sent. -/
  handed : ∀ first origin run, s.usb = .task first origin run → ∃ pre post before after,
    s.host.device.line = pre ++ post ∧ (SerialLine.bytes pre).length = origin ∧
    forwardedPackets s.tapped = before ++ after ∧
    SerialLine.Written setup.host.order before true pre ∧
    post.map PacketBuffer.buffer = after.map (PacketToSend.serialize setup.host.order) ∧
    s.sent =
      JtagRun.calls (complete (PacketToSend.serialize setup.host.order) after run.received) ∧
    (s.host.device.serialPort.writeQueue.queue = [] →
      origin + run.received = s.toDevice.length → s.sent = JtagRun.calls after)
  isInfix : s.sent <:+: JtagRun.calls (forwardedPackets s.tapped)
  isSuffix : ∀ first origin run, s.usb = .task first origin run →
    s.host.device.serialPort.writeQueue.queue = [] →
    origin + run.received = s.toDevice.length →
    s.sent <:+ JtagRun.calls (forwardedPackets s.tapped)

/-- The invariant for a node. -/
def ToRadioInv (s : Node) : Prop :=
  ToRadio.Inv setup.host.order s.tapped s.host.device s.usb

variable {setup} {s t : Node}

/-- Every event keeps the invariant. -/
theorem toRadioInv_step {e : Event} (h : s.ToRadioInv setup) (hidle : IdleWrite setup s e)
    (hclean : CleanHandover s e) (ht : step setup s e = some t) : t.ToRadioInv setup := by
  have hwrites := hidle t ht
  -- the daemon writes, the loop announces or reads, and no other event concerns the invariant
  by_cases hhost : ∃ e', e = .host e'
  · obtain ⟨e', rfl⟩ := hhost
    obtain ⟨host, hstep, rfl⟩ := Option.map_eq_some_iff.mp ht
    have hinv := ToRadio.Inv.hostStep h hwrites hstep
    cases e' <;> exact hinv
  by_cases hannounce : e = .announce
  · subst hannounce
    obtain ⟨usb, hpush, ht⟩ := Option.bind_eq_some_iff.mp ht
    obtain ⟨line, -, rfl⟩ := call_cases ht
    refine ⟨h.flight, h.written, ?_⟩
    have hposition := h.position
    cases hs : s.usb with
    | pushing taken =>
        rw [hs] at hpush hposition
        obtain rfl := Option.some.inj hpush
        exact hposition
    | reading taken => rw [hs] at hpush; cases hpush
    | task first origin run => rw [hs] at hpush; cases hpush
  by_cases hread : ∃ count, e = .read count
  · obtain ⟨count, rfl⟩ := hread
    rw [step, Option.ite_none_right_eq_some] at ht
    obtain ⟨usb, husb, rfl⟩ := Option.map_eq_some_iff.mp ht.2
    refine ToRadio.Inv.read h (fun taken htaken hpos hhead => ?_) husb
    rw [CleanHandover, htaken] at hclean
    exact hclean hpos hhead
  · obtain ⟨hsame, htapped, husb⟩ := step_frame (fun e' he => hhost ⟨e', he⟩) hannounce
      (fun count he => hread ⟨count, he⟩) ht
    rw [ToRadioInv, hsame, htapped, husb]
    exact h

/-- Before the handshake is complete the task does not run. -/
theorem sent_of_not_ready (h : ¬ s.Ready) : s.sent = [] := by
  unfold sent
  cases hs : s.usb with
  | pushing taken => rfl
  | reading taken => rfl
  | task first origin run => exact absurd ⟨first, origin, run, hs⟩ h

/-- What the task has sent are packets that were written behind the answer. -/
theorem ToRadioInv.consecutive (h : s.ToRadioInv setup) :
    s.sent <:+: JtagRun.calls (forwardedPackets s.tapped) := by
  have hposition := h.position
  unfold sent
  cases hs : s.usb with
  | pushing taken => exact List.nil_infix
  | reading taken => exact List.nil_infix
  | task first origin run =>
      -- the packets before the handover, those sent since, and those that are still on the way
      rw [hs] at hposition
      obtain ⟨pre, post, before, after, hhanded⟩ := hposition
      let o := setup.host.order
      have hafter := complete_append_pending (PacketToSend.serialize o) after run.received
      refine ⟨JtagRun.calls before,
        JtagRun.calls (pending (PacketToSend.serialize o) after run.received), ?_⟩
      show _ ++ run.task.done.sent ++ _ = _
      rw [hhanded.inv.sent_eq, hhanded.packets_eq, JtagRun.calls, JtagRun.calls, JtagRun.calls,
        JtagRun.calls, List.append_assoc, ← List.map_append, hafter, ← List.map_append]

/-- With nothing left on the way, the task has sent all packets behind the handover. -/
theorem ToRadioInv.all_sent (h : s.ToRadioInv setup) {first origin : ℕ} {run : JtagRun}
    {pre post : SerialLine} {before after : List PacketToSend}
    (hhanded : Handed setup.host.order (forwardedPackets s.tapped) s.host.device.line origin pre
      post before after run) (hs : s.usb = .task first origin run)
    (hqueue : s.host.device.serialPort.writeQueue.queue = [])
    (hread : origin + run.received = s.toDevice.length) : s.sent = JtagRun.calls after := by
  -- with the queue empty, all that was written has been transferred
  have hline : s.toDevice = SerialLine.bytes s.host.device.line := by
    have hall := h.flight.accepted_eq
    rw [hqueue, List.append_nil] at hall
    rw [toDevice, ← hall]
    rfl
  have hlength := congrArg List.length hhanded.bytes_drop
  rw [List.length_drop, ← hline, ← hread, Nat.add_sub_cancel_left] at hlength
  have hcomplete : complete (PacketToSend.serialize setup.host.order) after run.received = after :=
    complete_eq_self _ hlength.ge
  rw [sent, hs]
  show run.task.done.sent = _
  rw [hhanded.inv.sent_eq, hcomplete]

/-- The invariant implies what it is for. -/
theorem ToRadioInv.forwards (h : s.ToRadioInv setup) : s.Forwards setup := by
  have hhanded {first origin : ℕ} {run : JtagRun} (hs : s.usb = .task first origin run) :
      ∃ pre post before after, Handed setup.host.order (forwardedPackets s.tapped)
        s.host.device.line origin pre post before after run := by
    have hposition := h.position
    rwa [hs] at hposition
  refine ⟨sent_of_not_ready, fun first origin run hs => ?_, h.consecutive,
    fun first origin run hs hqueue hread => ?_⟩
  · obtain ⟨pre, post, before, after, hh⟩ := hhanded hs
    refine ⟨pre, post, before, after, hh.line_eq, hh.origin_eq, hh.packets_eq, hh.pre_written,
      hh.post_eq, ?_, h.all_sent hh hs⟩
    rw [sent, hs]
    exact hh.inv.sent_eq
  · obtain ⟨pre, post, before, after, hh⟩ := hhanded hs
    rw [h.all_sent hh hs hqueue hread, hh.packets_eq, JtagRun.calls, JtagRun.calls,
      List.map_append]
    exact List.suffix_append _ _

/-- Before the first event nothing has been written. -/
theorem toRadioInv_start : (start setup).ToRadioInv setup :=
  ⟨AsyncQueue.singleFlight_empty, ⟨rfl, rfl⟩, Nat.le_refl 0⟩

/-- In every run in which each packet is written while no other one is being written and the
handshake ends between two packets, `esp_now_send` is called for consecutive forwarded frames, and
only frames in front of the end of the handshake are missing. -/
theorem sent_consecutive (setup : Setup) (es : List Event)
    (hsteps : EachStep (step setup) (fun s e => IdleWrite setup s e ∧ CleanHandover s e)
      (start setup) es) :
    Always (step setup) (Forwards setup) (start setup) es :=
  always_of_eachStep (fun _ _ _ h hC ht => toRadioInv_step h hC.1 hC.2 ht)
    (fun _ h => h.forwards) toRadioInv_start hsteps

/-- A frame is forwarded before the handshake and one after it. The loop drops the first one. -/
def frameRun : List Event :=
  let frame (b : UInt8) : PacketBuffer 512 :=
    ⟨List.replicate 6 255 ++ List.replicate 6 2 ++ [0x88, 0xb5, b], by simp⟩
  let uart (task : FirmwareTask) : List Event :=
    [.uart (.take task), .uart (.write task true), .uart (.give task)]
  [.host (.tunRead (frame 7)), .host .serialWritten, .announce] ++ uart .usbMain ++
    [.read 12, .host (.serialRead 34), .host .serialWritten, .announce] ++ uart .usbMain ++
    [.read 1, .host (.tunRead (frame 8)), .host .serialWritten, .read 5, .read 7]

theorem sent_consecutive_frame :
    (run (step .zeroed) (start .zeroed) frameRun).map
        (fun s => (JtagRun.calls (forwardedPackets s.tapped), s.sent)) =
      some ([(.replicate 6 255, [7]), (.replicate 6 255, [8])], [(.replicate 6 255, [8])]) ∧
      Always (step .zeroed) (Forwards .zeroed) (start .zeroed) frameRun :=
  ⟨by decide +kernel, sent_consecutive .zeroed frameRun (by decide +kernel)⟩

end Node
