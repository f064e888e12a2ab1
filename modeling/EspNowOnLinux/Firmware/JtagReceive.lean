import EspNowOnLinux.Firmware.Uart
import EspNowOnLinux.Lib.StateMachine
import EspNowOnLinux.Messages.Packets
import EspNowOnLinux.Utility.ReceivingBuffer

/-!
# The firmware's receive task

`jtag_receive_task` and `handle_packet_from_jtag`: the task reads what the host has sent into a
buffer of 512 bytes and hands the packets in it to `esp_now_send`.

## Main results

* `handles_handlePacketFromJtag`: the handler takes a complete `PACKET_TO_SEND` off the front of the
  buffer, whatever follows, and waits on one that is not complete;
* `jtagReceive_parsed`: in every state of every run, exactly the packets whose bytes have all
  arrived have been sent, in order, and the buffer holds the rest;
* `writable_iff`: the buffer keeps room for another byte iff no read fills it to its end just when
  everything received so far is complete packets. There the task neither compacts nor resets the
  buffer, and every later read is a read of no bytes.
-/

open Bytes Framing Messages StateMachine

/-- What the receive task has done. -/
structure Transmitted where
  /-- The calls of `esp_now_send`: destination and payload. -/
  sent : List (MacAddress × List UInt8)
  /-- The calls of `log_to_uart`. -/
  logs : List FirmwareLog
  deriving DecidableEq

namespace Transmitted

def log (s : Transmitted) (message : FirmwareLog) : Transmitted :=
  { s with logs := s.logs ++ [message] }

/-- `esp_now_send`, with a log message if it fails. -/
def send (env : FirmwareEnv) (s : Transmitted) (packet : PacketToSend) : Transmitted :=
  let s' := { s with sent := s.sent ++ [(packet.destinationMac, packet.data)] }
  if env.espNowSend s.sent.length then s' else s'.log .failedToSendPacket

@[simp]
theorem sent_send (env : FirmwareEnv) (s : Transmitted) (packet : PacketToSend) :
    (s.send env packet).sent = s.sent ++ [(packet.destinationMac, packet.data)] := by
  unfold send
  dsimp only
  split <;> rfl

end Transmitted

/-- `handle_packet_from_jtag`. The sum is one of 32-bit integers, as `payload_size` is. -/
def handlePacketFromJtag (env : FirmwareEnv) (s : Transmitted) (buffer : List UInt8) :
    Option (Reply Transmitted UInt8) :=
  match buffer with
  | [] => none
  | id :: _ =>
    if id = MessageId.packetToSend then
      -- the length field is not there yet
      if buffer.length < 11 then some ⟨-1, s, buffer⟩
      else
        let payloadSize := networkToHost env.order (loadUInt32 env.order (buffer.drop 7))
        if buffer.length < (payloadSize + 11).toNat then some ⟨-1, s, buffer⟩
        else
          (PacketToSend.deserialize env.order buffer).map fun packet =>
            ⟨toInt32 (11 + packet.data.length), s.send env packet, buffer⟩
    else some ⟨0, s.log (.unknownMessageId id), buffer⟩

/-- The state of `jtag_receive_task`. -/
structure JtagTask where
  buffer : ReceivingBuffer 512
  done : Transmitted

namespace JtagTask

/-- The task as it is created, with a buffer on a stack that holds `contents`. -/
def new (contents : List.Vector UInt8 512) : JtagTask := ⟨.new contents, ⟨[], []⟩⟩

/-- One iteration of the outer loop, in which `bytes` are read into the writable span. -/
def iteration (env : FirmwareEnv) (t : JtagTask) (bytes : List UInt8) : Option JtagTask :=
  let buffer := (t.buffer.fill bytes).commit bytes.length
  (buffer.consumeLoop (handlePacketFromJtag env)
      (fun s b => (s.log .failedToHandlePacket, b.reset)) (buffer.getData.length + 1) t.done).map
    fun r => ⟨r.2.1, r.1⟩

end JtagTask

/-! ## The handler's contract -/

namespace JtagTask

/-- A packet that the task can receive: the right id, and it fits in the receiving buffer. -/
structure Sendable (packet : PacketToSend) : Prop where
  id_eq : packet.id = MessageId.packetToSend
  fits : 11 + packet.data.length ≤ 512

variable (env : FirmwareEnv) (o : ByteOrder)

theorem handlePacketFromJtag_short (s : Transmitted) {tail : List UInt8}
    (h : (MessageId.packetToSend :: tail).length < 11) :
    handlePacketFromJtag env s (MessageId.packetToSend :: tail) =
      some ⟨-1, s, MessageId.packetToSend :: tail⟩ := by
  rw [handlePacketFromJtag, if_pos rfl, if_pos h]

/-- The length in a header that other bytes follow, with the length of the header added. -/
theorem payloadSize_add (mac : MacAddress) (data : List UInt8) (rest : List UInt8)
    (h : data.length < 2 ^ 31) :
    (networkToHost env.order (loadUInt32 env.order
      ((packetBytes MessageId.packetToSend mac (lengthField data) rest).drop 7)) + 11).toNat =
        11 + data.length := by
  have hdrop : (packetBytes MessageId.packetToSend mac (lengthField data) rest).drop 7 =
      lengthField data ++ rest := by
    rw [packetBytes, List.append_assoc, List.append_assoc, ← List.drop_drop (i := 6) (j := 1)]
    exact drop_six_mac mac _
  have hsize := networkToHost_lengthField env.order rest (by omega : data.length < 2 ^ 32)
  rw [hdrop, UInt32.toNat_add, hsize]
  show (data.length + 11) % 2 ^ 32 = _
  omega

/-- A complete packet is sent. -/
theorem handlePacketFromJtag_serialize (s : Transmitted) {packet : PacketToSend}
    (hp : Sendable packet) (rest : List UInt8) :
    handlePacketFromJtag env s (packet.serialize o ++ rest) =
      some ⟨11 + packet.data.length, s.send env packet, packet.serialize o ++ rest⟩ := by
  obtain ⟨hid, hfits⟩ := hp
  have hbytes : packet.serialize o ++ rest = packetBytes MessageId.packetToSend
      packet.destinationMac (lengthField packet.data) (packet.data ++ rest) := by
    rw [PacketToSend.serialize_eq, hid]
    simp [packetBytes]
  have hlen : (packet.serialize o ++ rest).length = 11 + packet.data.length + rest.length := by
    rw [List.length_append, PacketToSend.length_serialize]
  have hsize := payloadSize_add env packet.destinationMac packet.data
    (packet.data ++ rest) (by omega)
  have hread : PacketToSend.deserialize env.order (packet.serialize o ++ rest) = some packet := by
    rw [PacketToSend.serialize_eq, ← PacketToSend.serialize_eq env.order]
    exact PacketToSend.deserialize_serialize env.order rest hid (by omega)
  rw [← hbytes] at hsize
  obtain ⟨tail, hcons⟩ : ∃ tail, packet.serialize o ++ rest = MessageId.packetToSend :: tail :=
    ⟨_, by rw [hbytes]; rfl⟩
  rw [hcons] at hsize hread hlen ⊢
  rw [handlePacketFromJtag, if_pos rfl, if_neg (by omega)]
  simp only [hsize]
  rw [if_neg (by omega), hread, Option.map_some, toInt32_of_lt (by omega)]
  rfl

/-- A packet that is not complete is waited for. -/
theorem handlePacketFromJtag_waits (s : Transmitted) {packet : PacketToSend} {p : List UInt8}
    (hp : Sendable packet) (hne : p ≠ []) (hpre : p <+: packet.serialize o)
    (hlt : p.length < (packet.serialize o).length) :
    handlePacketFromJtag env s p = some ⟨-1, s, p⟩ := by
  obtain ⟨hid, hfits⟩ := hp
  obtain ⟨id, tail, rfl⟩ := List.exists_cons_of_ne_nil hne
  rw [PacketToSend.length_serialize] at hlt
  rw [PacketToSend.serialize_eq, hid] at hpre
  rcases Nat.lt_or_ge (id :: tail).length 11 with hshort | hlong
  -- not even the header has arrived
  · rw [packetBytes, List.append_assoc, List.append_assoc] at hpre
    obtain ⟨rfl, -⟩ := List.cons_prefix_cons.mp hpre
    exact handlePacketFromJtag_short env s hshort
  -- the length can be read, and the payload is shorter than it says
  · obtain ⟨q, hq, -⟩ := exists_append_of_prefix hpre (by simpa using hlong)
    have hsize := payloadSize_add env packet.destinationMac packet.data q (by omega)
    rw [packetBytes, ← hq] at hsize
    obtain rfl : id = MessageId.packetToSend := by
      rw [List.append_assoc, List.append_assoc, List.singleton_append] at hq
      exact (List.cons.inj hq).1
    rw [handlePacketFromJtag, if_pos rfl, if_neg (Nat.not_lt.mpr hlong)]
    simp only [hsize]
    rw [if_pos hlt]

/-- The firmware's handler meets its contract with the packets of the host, whatever the byte order
of the host. -/
theorem handles_handlePacketFromJtag :
    Handles (handlePacketFromJtag env) (PacketToSend.serialize o) (Transmitted.send env) Sendable
      512 where
  encode_ne_nil packet _ := List.ne_nil_of_length_pos (by simp)
  accepts s packet rest hp _ := by
    refine ⟨_, rfl, ?_⟩
    rw [handlePacketFromJtag_serialize env o s hp rest, PacketToSend.length_serialize]
    rfl
  waits s _ _ hp hne hpre hlt := handlePacketFromJtag_waits env o s hp hne hpre hlt

end JtagTask

/-! ## Runs on a stream of packets -/

/-- The task and the number of bytes it has read. -/
structure JtagRun where
  task : JtagTask
  received : ℕ

namespace JtagRun

open JtagTask

/-- The task as it is created. -/
def start (contents : List.Vector UInt8 512) : JtagRun := ⟨.new contents, 0⟩

/-- The driver can return the next `count` bytes: the task asked for as many and they have been
sent. -/
def CanRead (bytes : List UInt8) (s : JtagRun) (count : ℕ) : Prop :=
  count ≤ s.task.buffer.getWritable.length ∧ s.received + count ≤ bytes.length

instance (bytes : List UInt8) (s : JtagRun) (count : ℕ) : Decidable (CanRead bytes s count) :=
  inferInstanceAs (Decidable (_ ∧ _))

/-- One iteration of the outer loop, where the host sends `bytes` and the driver returns `count` of
them; `none` is a read that cannot happen or undefined behaviour. -/
def step (env : FirmwareEnv) (bytes : List UInt8) (s : JtagRun) (count : ℕ) : Option JtagRun :=
  if CanRead bytes s count then
    (s.task.iteration env ((bytes.drop s.received).take count)).map fun task =>
      ⟨task, s.received + count⟩
  else none

/-- The calls of `esp_now_send` that packets lead to. -/
def calls (packets : List PacketToSend) : List (MacAddress × List UInt8) :=
  packets.map fun packet => (packet.destinationMac, packet.data)

/-- After `s.received` bytes of the stream of `packets`, exactly the packets whose bytes have all
arrived have been sent, in order, the buffer holds the rest, and the next read can be handled
however much it returns. -/
structure Parsed (env : FirmwareEnv) (o : ByteOrder) (packets : List PacketToSend) (s : JtagRun) :
    Prop where
  sent_eq : s.task.done.sent = calls (complete (PacketToSend.serialize o) packets s.received)
  getData_eq : s.task.buffer.getData = tail (PacketToSend.serialize o) packets s.received
  defined : ∀ count, CanRead (stream (PacketToSend.serialize o) packets) s count →
    (step env (stream (PacketToSend.serialize o) packets) s count).isSome

/-- The invariant of the runs: `Parsed` with what it rests on. -/
structure Inv (o : ByteOrder) (packets : List PacketToSend) (s : JtagRun) : Prop where
  received_le : s.received ≤ (stream (PacketToSend.serialize o) packets).length
  sent_eq : s.task.done.sent = calls (complete (PacketToSend.serialize o) packets s.received)
  wellFormed : s.task.buffer.WellFormed
  getData_eq : s.task.buffer.getData = tail (PacketToSend.serialize o) packets s.received

variable {env : FirmwareEnv} {o : ByteOrder} {packets : List PacketToSend}

theorem sent_foldl (packets : List PacketToSend) (s : Transmitted) :
    (packets.foldl (Transmitted.send env) s).sent = s.sent ++ calls packets := by
  induction packets generalizing s with
  | nil => exact (List.append_nil _).symm
  | cons packet packets ih =>
      rw [List.foldl_cons, ih, Transmitted.sent_send, List.append_assoc]
      rfl

variable (env) in
/-- A read that can happen keeps the invariant. With nothing left over the write index has moved by
what was read; with a rest it starts at index `0`. -/
theorem Inv.read (hp : ∀ packet ∈ packets, Sendable packet) {s : JtagRun} (h : Inv o packets s)
    {count : ℕ} (hcan : CanRead (stream (PacketToSend.serialize o) packets) s count) :
    ∃ t, step env (stream (PacketToSend.serialize o) packets) s count = some t ∧
      t.received = s.received + count ∧ Inv o packets t ∧
      (tail (PacketToSend.serialize o) packets (s.received + count) = [] →
        t.task.buffer.writeIndex = s.task.buffer.writeIndex + count) ∧
      (tail (PacketToSend.serialize o) packets (s.received + count) ≠ [] →
        t.task.buffer.readIndex = 0) := by
  obtain ⟨buffer, ns, hns, hloop, hwf, hdata, hnil, hcons⟩ := ReceivingBuffer.consumeLoop_read
    (fun s b => (s.log .failedToHandlePacket, b.reset)) (handles_handlePacketFromJtag env o)
    s.task.done h.wellFormed hp h.getData_eq hcan.1 hcan.2 rfl
  refine ⟨⟨⟨buffer, ns.foldl (Transmitted.send env) s.task.done⟩, s.received + count⟩, ?_, rfl,
    ⟨hcan.2, ?_, hwf, hdata⟩, hnil, hcons⟩
  · rw [step, if_pos hcan, iteration]
    simp only [hloop]
    rfl
  · show (ns.foldl (Transmitted.send env) s.task.done).sent = _
    rw [sent_foldl, h.sent_eq, ← hns, calls, calls, calls, List.map_append]

/-- Every iteration keeps the invariant. -/
theorem inv_step (hp : ∀ packet ∈ packets, Sendable packet) (s : JtagRun) (count : ℕ) (t : JtagRun)
    (h : Inv o packets s)
    (ht : step env (stream (PacketToSend.serialize o) packets) s count = some t) :
    Inv o packets t := by
  by_cases hcan : CanRead (stream (PacketToSend.serialize o) packets) s count
  · obtain ⟨t', ht', -, hinv, -⟩ := h.read env hp hcan
    rw [ht, Option.some.injEq] at ht'
    exact ht' ▸ hinv
  · rw [step, if_neg hcan] at ht
    cases ht

theorem serialize_ne_nil (packet : PacketToSend) : packet.serialize o ≠ [] :=
  List.ne_nil_of_length_pos (by simp)

/-- A new task has read nothing and sent nothing. -/
theorem inv_start (o : ByteOrder) (contents : List.Vector UInt8 512)
    (packets : List PacketToSend) : Inv o packets (start contents) := by
  refine ⟨Nat.zero_le _, ?_, ReceivingBuffer.wellFormed_new contents, ?_⟩
  · show [] = calls (complete (PacketToSend.serialize o) packets 0)
    rw [complete_zero serialize_ne_nil]
    rfl
  · show [] = tail (PacketToSend.serialize o) packets 0
    rw [tail_zero serialize_ne_nil]

/-- The invariant implies what it is for. -/
theorem Inv.parsed (hp : ∀ packet ∈ packets, Sendable packet) {s : JtagRun}
    (h : Inv o packets s) : Parsed env o packets s where
  sent_eq := h.sent_eq
  getData_eq := h.getData_eq
  defined count hcan := by
    obtain ⟨t, ht, -⟩ := h.read env hp hcan
    exact ht ▸ rfl

/-- In every run of the task on a stream of packets, cut into reads in any way, every state is
`Parsed`. -/
theorem jtagReceive_parsed (env : FirmwareEnv) (o : ByteOrder) (contents : List.Vector UInt8 512)
    (packets : List PacketToSend) (hp : ∀ packet ∈ packets, Sendable packet) (counts : List ℕ) :
    Always (step env (stream (PacketToSend.serialize o) packets)) (Parsed env o packets)
      (start contents) counts :=
  always_of_invariant (inv_step hp) (fun _ h => h.parsed hp) (inv_start o contents packets) counts

/-- Two packets of 13 and 12 bytes, which are sent one after the other. -/
def twoPackets : List PacketToSend :=
  [{ destinationMac := .replicate 6 255, data := [83, 1] },
    { destinationMac := .replicate 6 2, data := [82] }]

theorem sendable_twoPackets : ∀ packet ∈ twoPackets, Sendable packet := by
  intro packet hpacket
  rcases List.mem_pair.mp hpacket with rfl | rfl
  · exact ⟨rfl, by decide⟩
  · exact ⟨rfl, by decide⟩

/-- The first packet is cut in its header and in its payload, and the second one begins in the read
that ends the first one. -/
theorem jtagReceive_parsed_packet :
    let env : FirmwareEnv := ⟨.little, fun _ => true⟩
    let bytes := stream (PacketToSend.serialize .big) twoPackets
    (run (step env bytes) (start (.replicate _ 0)) [5, 7, 0, 9, 4]).map
        (fun s => s.task.done.sent) =
        some [(.replicate 6 255, [83, 1]), (.replicate 6 2, [82])] ∧
      Always (step env bytes) (Parsed env .big twoPackets) (start (.replicate _ 0))
        [5, 7, 0, 9, 4] :=
  ⟨by decide +kernel, jtagReceive_parsed ⟨.little, fun _ => true⟩ .big (.replicate _ 0) twoPackets
    sendable_twoPackets [5, 7, 0, 9, 4]⟩

/-! ## Room in the buffer -/

/-- The bytes received are those of complete packets. -/
def AtBoundary (o : ByteOrder) (packets : List PacketToSend) (received : ℕ) : Prop :=
  ∃ pre, pre <+: packets ∧ (stream (PacketToSend.serialize o) pre).length = received

/-- The read does not fill the buffer to its end with everything received being complete packets. -/
def LeavesRoom (o : ByteOrder) (packets : List PacketToSend) (s : JtagRun) (count : ℕ) : Prop :=
  ¬ (count = s.task.buffer.getWritable.length ∧ AtBoundary o packets (s.received + count))

/-- A read leaves room iff it does not fill the buffer just at a boundary. -/
theorem writable_read (hp : ∀ packet ∈ packets, Sendable packet) {s t : JtagRun} {count : ℕ}
    (h : Inv o packets s) (hroom : s.task.buffer.getWritable ≠ [])
    (ht : step env (stream (PacketToSend.serialize o) packets) s count = some t) :
    t.task.buffer.getWritable ≠ [] ↔ LeavesRoom o packets s count := by
  have hcan : CanRead (stream (PacketToSend.serialize o) packets) s count := by
    by_contra hcan
    rw [step, if_neg hcan] at ht
    cases ht
  obtain ⟨t', ht', hreceived, hinv, hnil, hcons⟩ := h.read env hp hcan
  obtain rfl : t = t' := Option.some.inj (ht.symm.trans ht')
  rw [← List.length_pos_iff, ReceivingBuffer.length_getWritable] at hroom ⊢
  rw [LeavesRoom, ReceivingBuffer.length_getWritable, AtBoundary, ← tail_eq_nil_iff hcan.2]
  have hcount := hcan.1
  rw [ReceivingBuffer.length_getWritable] at hcount
  -- with nothing left over the write index has moved by `count` and stays where it is
  by_cases htail : tail (PacketToSend.serialize o) packets (s.received + count) = []
  · have hwrite := hnil htail
    simp only [htail, and_true]
    omega
  -- the rest of a packet starts at index `0` and is shorter than the packet
  · obtain ⟨packet, hmem, -, hlt⟩ := tail_spec htail
    have hfits := (hp packet hmem).fits
    have hwrite := hinv.wellFormed.writeIndex_eq (hcons htail)
    rw [hinv.getData_eq, hreceived] at hwrite
    rw [PacketToSend.length_serialize] at hlt
    simp only [htail, and_false, not_false_eq_true, iff_true]
    omega

/-- Along every run on a stream of packets, the buffer keeps room for another byte iff every read
leaves room. -/
theorem writable_iff (env : FirmwareEnv) (o : ByteOrder) (contents : List.Vector UInt8 512)
    (packets : List PacketToSend) (hp : ∀ packet ∈ packets, Sendable packet) (counts : List ℕ) :
    Always (step env (stream (PacketToSend.serialize o) packets))
        (fun s => s.task.buffer.getWritable ≠ []) (start contents) counts ↔
      EachStep (step env (stream (PacketToSend.serialize o) packets)) (LeavesRoom o packets)
        (start contents) counts := by
  refine always_iff_eachStep (fun s => Inv o packets s ∧ s.task.buffer.getWritable ≠ []) ?_
    (fun s h => h.2) ?_ ⟨inv_start o contents packets, ?_⟩ counts
  · rintro s count t ⟨hinv, hroom⟩ hleaves ht
    exact ⟨inv_step hp s count t hinv ht, (writable_read hp hinv hroom ht).mpr hleaves⟩
  · rintro s count t ⟨hinv, hroom⟩ ht hroom'
    exact (writable_read hp hinv hroom ht).mp hroom'
  · rw [← List.length_pos_iff, ReceivingBuffer.length_getWritable]
    show 0 < 512 - 0
    decide

/-- Behind the second packet, whose front has been moved to the start, there is room for 500
bytes. -/
theorem writable_iff_packet :
    let env : FirmwareEnv := ⟨.little, fun _ => true⟩
    let bytes := stream (PacketToSend.serialize .big) twoPackets
    (run (step env bytes) (start (.replicate _ 0)) [5, 7, 0, 9, 4]).map
        (fun s => s.task.buffer.getWritable.length) = some 500 ∧
      (Always (step env bytes) (fun s => s.task.buffer.getWritable ≠ []) (start (.replicate _ 0))
          [5, 7, 0, 9, 4] ↔
        EachStep (step env bytes) (LeavesRoom .big twoPackets) (start (.replicate _ 0))
          [5, 7, 0, 9, 4]) :=
  ⟨by decide +kernel, writable_iff ⟨.little, fun _ => true⟩ .big (.replicate _ 0) twoPackets
    sendable_twoPackets [5, 7, 0, 9, 4]⟩

/-- Two packets of 256 bytes, each of which arrives in one read: the second read fills the buffer to
its end, and no byte can be read after it. -/
theorem writable_fails :
    let packet : PacketToSend := { destinationMac := .replicate 6 255, data := .replicate 245 0 }
    ¬ Always
      (step ⟨.little, fun _ => true⟩ (stream (PacketToSend.serialize .little) [packet, packet]))
      (fun s => s.task.buffer.getWritable ≠ []) (start (.replicate _ 0)) [256, 256] := by
  intro packet h
  have hlen : (packet.serialize .little).length = 256 := by
    rw [PacketToSend.length_serialize, List.length_replicate]
  have hp : ∀ p ∈ [packet, packet], Sendable p := by
    intro p hmem
    rcases List.mem_pair.mp hmem with rfl | rfl <;>
      exact ⟨rfl, by rw [List.length_replicate]; omega⟩
  have hstream : (stream (PacketToSend.serialize .little) [packet, packet]).length = 512 := by
    simp [stream, hlen]
  -- the first packet
  obtain ⟨s, hs, hreceived, hinv, hwrite, -⟩ := (inv_start .little (.replicate _ 0) _).read
    ⟨.little, fun _ => true⟩ hp (show CanRead _ (start _) 256 from
      ⟨by rw [ReceivingBuffer.length_getWritable]; decide, by rw [hstream]; decide⟩)
  replace hwrite : s.task.buffer.writeIndex = 256 :=
    hwrite ((tail_eq_nil_iff (by rw [hstream]; decide)).mpr
      ⟨[packet], ⟨[packet], rfl⟩, by rw [stream_cons, stream_nil, List.append_nil, hlen]; rfl⟩)
  replace hreceived : s.received = 256 := hreceived
  have hroom : s.task.buffer.getWritable.length = 256 := by
    rw [ReceivingBuffer.length_getWritable, hwrite]
  -- the second packet
  obtain ⟨t, ht, -⟩ := hinv.read ⟨.little, fun _ => true⟩ hp
    (show CanRead _ s 256 from ⟨hroom.ge, by rw [hstream, hreceived]⟩)
  have hleaves := (writable_read hp hinv (h.2 s hs).head ht).mp ((h.2 s hs).2 t ht).head
  refine hleaves ⟨hroom.symm, [packet, packet], List.prefix_rfl, ?_⟩
  rw [hstream, hreceived]

end JtagRun
