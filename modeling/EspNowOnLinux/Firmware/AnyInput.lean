import EspNowOnLinux.Firmware.LengthCheck
import EspNowOnLinux.Lib.Receiver

/-!
# The receive task on any input

`jtag_receive_task` on bytes that need not come from the daemon. Complete packets are sent; what
starts with another id is dropped with everything behind it that has arrived; an unfinished packet
is kept. A length field that makes the sum of 32-bit integers wrap leads to a copy that leaves the
buffer.

## Main results

* `iteration_of_cut`, `iteration_eq_none`: what one read leads to;
* `anyInput_run`: in every run the calls of `esp_now_send` and of `log_to_uart` are those of the
  packets and the strays among the bytes read, nothing else is lost, and the next read is handled
  iff it does not bring such a length field to the front;
* `deaf_run`: a read leaves no room in the buffer iff it fills the buffer and all that has arrived
  is complete packets, or one unfinished packet; and then nothing is read any more, ever.
-/

open Bytes Framing Messages StateMachine

namespace JtagTask

/-! ## The packet at the front -/

/-- The length of the packet at the front, if all of it is there. -/
def packetLength? (data : List UInt8) : Option ℕ :=
  if data.head? = some MessageId.packetToSend ∧ 11 + declaredLength data ≤ data.length then
    some (11 + declaredLength data)
  else none

/-- The data starts with another id. -/
def Stray : List UInt8 → Prop
  | [] => False
  | id :: _ => id ≠ MessageId.packetToSend

instance : DecidablePred Stray
  | [] => inferInstanceAs (Decidable False)
  | id :: _ => inferInstanceAs (Decidable (id ≠ MessageId.packetToSend))

theorem packetLength?_eq_some {data : List UInt8} {n : ℕ} :
    packetLength? data = some n ↔
      Declares MessageId.packetToSend data ∧ n = 11 + declaredLength data := by
  rw [packetLength?, Option.ite_none_right_eq_some, Option.some.injEq]
  constructor
  · rintro ⟨⟨hhead, hle⟩, rfl⟩
    exact ⟨⟨hhead, hle⟩, rfl⟩
  · rintro ⟨⟨hhead, hle⟩, rfl⟩
    exact ⟨⟨hhead, hle⟩, rfl⟩

theorem packetLength?_eq_none {data : List UInt8} :
    packetLength? data = none ↔ ¬ Declares MessageId.packetToSend data := by
  rw [Option.eq_none_iff_forall_ne_some]
  constructor
  · intro h hdeclares
    exact h _ (packetLength?_eq_some.mpr ⟨hdeclares, rfl⟩)
  · intro h n hn
    exact h (packetLength?_eq_some.mp hn).1

/-- The header alone declares the length. -/
theorem declaredLength_append {data : List UInt8} (h : 11 ≤ data.length) (rest : List UInt8) :
    declaredLength (data ++ rest) = declaredLength data := by
  rw [declaredLength, declaredLength, List.drop_append_of_le_length (by omega),
    List.take_append_of_le_length (by rw [List.length_drop]; omega)]

theorem declaredLength_take {data : List UInt8} {n : ℕ} (h : 11 ≤ n) :
    declaredLength (data.take n) = declaredLength data := by
  rw [declaredLength, declaredLength, List.drop_take, List.take_take, Nat.min_eq_left (by omega)]

/-- A packet is recognised by its own bytes. -/
theorem selfDelimiting_packetLength? : SelfDelimiting packetLength? where
  pos h := by
    obtain ⟨-, rfl⟩ := packetLength?_eq_some.mp h
    omega
  le h := by
    obtain ⟨hdeclares, rfl⟩ := packetLength?_eq_some.mp h
    exact hdeclares.length_le
  append := by
    intro data n h rest
    obtain ⟨⟨hhead, hle⟩, rfl⟩ := packetLength?_eq_some.mp h
    have hlength := declaredLength_append (show 11 ≤ data.length by omega) rest
    apply packetLength?_eq_some.mpr
    refine ⟨⟨?_, ?_⟩, by rw [hlength]⟩
    · rw [List.head?_append, hhead, Option.some_or]
    · rw [hlength, List.length_append]
      omega
  take := by
    intro data n h
    obtain ⟨⟨hhead, hle⟩, rfl⟩ := packetLength?_eq_some.mp h
    have hlength : declaredLength (data.take (11 + declaredLength data)) = declaredLength data :=
      declaredLength_take (Nat.le_add_right 11 _)
    apply packetLength?_eq_some.mpr
    refine ⟨⟨?_, ?_⟩, by rw [hlength]⟩
    · rw [List.head?_take, if_neg (by omega), hhead]
    · rw [hlength, List.length_take]
      omega

/-! ## What the handler does -/

section HandlePacketFromJtag

variable (env : FirmwareEnv)

/-- The task after the bytes of a complete packet. -/
def afterPacket (s : Transmitted) (bytes : List UInt8) : Transmitted :=
  (PacketToSend.deserialize env.order bytes).elim s (s.send env)

/-- The firmware's handler takes complete packets off the front. -/
theorem takes_handlePacketFromJtag :
    Takes (handlePacketFromJtag env) packetLength? (afterPacket env) 512 := by
  intro s data n h hfits
  obtain ⟨hdeclares, rfl⟩ := packetLength?_eq_some.mp h
  have hle := hdeclares.length_le
  -- the bytes at the front are those of a packet, on which the handler is known
  obtain ⟨mac, payload, rest, hpayload, hlt, hdata⟩ := exists_packetBytes hdeclares
  let packet : PacketToSend := { destinationMac := mac, data := payload }
  have hserialize : packet.serialize env.order ++ rest = data := by
    rw [hdata, PacketToSend.serialize_eq]
  have hlen : (packet.serialize env.order).length = 11 + declaredLength data := by
    rw [PacketToSend.length_serialize, ← hpayload]
  have hsendable : Sendable packet :=
    ⟨rfl, show 11 + payload.length ≤ 512 by omega⟩
  refine ⟨packet.serialize env.order, hlen, ?_⟩
  have hhandled := handlePacketFromJtag_serialize env env.order s hsendable rest
  have hread := PacketToSend.deserialize_serialize env.order [] (show packet.id = _ from rfl) hlt
  rw [List.append_nil] at hread
  rw [← hserialize, List.take_left' (by rw [hserialize]; exact hlen),
    List.drop_left' (by rw [hserialize]; exact hlen), hhandled, afterPacket, hread, hserialize,
    ← hpayload]
  rfl

/-- An unfinished packet is waited for. -/
theorem handlePacketFromJtag_unfinished (s : Transmitted) {data : List UInt8}
    (hhead : data.head? = some MessageId.packetToSend) (h : ¬ PassesChecks env data) :
    handlePacketFromJtag env s data = some ⟨-1, s, data⟩ := by
  obtain ⟨tail, rfl⟩ := List.head?_eq_some_iff.mp hhead
  rcases Nat.lt_or_ge (MessageId.packetToSend :: tail).length 11 with hshort | hheader
  · exact handlePacketFromJtag_short env s hshort
  · have hsize : (MessageId.packetToSend :: tail).length <
        (checkedSize env (MessageId.packetToSend :: tail)).toNat := by
      by_contra hle
      exact h ⟨rfl, hheader, Nat.not_lt.mp hle⟩
    rw [handlePacketFromJtag, if_pos rfl, if_neg (Nat.not_lt.mpr hheader)]
    exact if_pos hsize

/-- A stray is logged. -/
theorem handlePacketFromJtag_stray (s : Transmitted) {id : MessageId} (tail : List UInt8)
    (hid : id ≠ MessageId.packetToSend) :
    handlePacketFromJtag env s (id :: tail) =
      some ⟨0, s.log (.unknownMessageId id), id :: tail⟩ := by
  rw [handlePacketFromJtag, if_neg hid]

/-- A length field that wraps leads to a copy that leaves the buffer. -/
theorem handlePacketFromJtag_wraps (s : Transmitted) {data : List UInt8} (h : Wraps data)
    (hlen : data.length ≤ 512) : handlePacketFromJtag env s data = none := by
  have hpasses := (passesChecks_iff env hlen).mpr (Or.inr h)
  obtain ⟨-, hheader, hlarge⟩ := h
  have hfour : 4 ≤ ((data.drop 1).drop 6).length := by
    rw [List.length_drop, List.length_drop]; omega
  have hdeclared : (networkToHost env.order
      (loadUInt32 env.order ((data.drop 1).drop 6))).toNat = declaredLength data := by
    rw [networkToHost_loadUInt32 env.order hfour, List.drop_drop]
    rfl
  rw [handlePacketFromJtag_of_passesChecks env s hpasses, PacketToSend.deserialize, dif_pos hheader]
  simp only [hdeclared]
  rw [if_neg (by simp only [List.length_drop]; omega)]
  rfl

/-- What is taken off the front, in terms of the task. -/
def afterTaken (s : Transmitted) : Taken UInt8 → Transmitted
  | .message bytes => afterPacket env s bytes
  | .junk [] => s
  | .junk (id :: _) => (s.log (.unknownMessageId id)).log .failedToHandlePacket

end HandlePacketFromJtag

/-! ## One read -/

variable {env : FirmwareEnv} {t t' : JtagTask} {bytes rest : List UInt8}
  {ms : List (List UInt8)}

/-- What is done at the `0` that the handler answers. -/
def failed (s : Transmitted) (b : ReceivingBuffer 512) : Transmitted × ReceivingBuffer 512 :=
  (s.log .failedToHandlePacket, b.reset)

variable (env) in
/-- The loop on a rest that starts with no complete packet and no length field that wraps. -/
theorem consumeLoop_rest (s : Transmitted) {fuel : ℕ} {b : ReceivingBuffer 512}
    (hb : b.WellFormed) (hnone : packetLength? b.getData = none) (hwraps : ¬ Wraps b.getData)
    (hfuel : b.getData.length < fuel) :
    ∃ b', b.consumeLoop (handlePacketFromJtag env) failed fuel s =
        some ((takenRest Stray b.getData).foldl (afterTaken env) s, b', []) ∧
      b'.WellFormed ∧ b'.getData = keptRest Stray b.getData ∧
      (b.getData = [] → b'.writeIndex = b.writeIndex) ∧
      (b.getData ≠ [] → b'.readIndex = 0) := by
  obtain ⟨fuel, rfl⟩ := Nat.exists_eq_succ_of_ne_zero (by omega : fuel ≠ 0)
  cases hdata : b.getData with
  | nil =>
      exact ⟨b, ReceivingBuffer.consumeLoop_nil (Nat.succ_pos fuel) hdata, hb, hdata,
        fun _ => rfl, fun h => absurd rfl h⟩
  | cons id tail =>
      have hne : b.getData ≠ [] := hdata ▸ List.cons_ne_nil id tail
      have hsame : (b.writeData b.getData).getData = b.getData := hb.getData_writeData rfl
      by_cases hid : id = MessageId.packetToSend
      -- an unfinished packet
      · subst hid
        have hknown : ¬ Stray (MessageId.packetToSend :: tail) := not_not.mpr rfl
        have hpasses : ¬ PassesChecks env b.getData := by
          rw [passesChecks_iff env b.length_getData_le]
          exact not_or.mpr ⟨packetLength?_eq_none.mp hnone, hwraps⟩
        have hr := handlePacketFromJtag_unfinished env s
          (show b.getData.head? = some MessageId.packetToSend by rw [hdata]; rfl) hpasses
        rw [takenRest, keptRest, if_neg hknown, if_neg hknown]
        refine ⟨_, ReceivingBuffer.consumeLoop_incomplete hne hr rfl,
          (hb.writeData _).moveDataToFront, ?_, fun h => absurd h (List.cons_ne_nil _ _),
          fun _ => ReceivingBuffer.readIndex_moveDataToFront _⟩
        rw [(hb.writeData _).getData_moveDataToFront, hsame, hdata]
      -- a stray
      · have hstray : Stray (id :: tail) := hid
        have hr := handlePacketFromJtag_stray env s tail hid
        rw [← hdata] at hr
        rw [takenRest, keptRest, if_pos hstray, if_pos hstray]
        refine ⟨(b.writeData b.getData).reset, ?_, ⟨Nat.le_refl 0, Nat.zero_le _⟩, ?_,
          fun h => absurd h (List.cons_ne_nil _ _), fun _ => rfl⟩
        · rw [ReceivingBuffer.consumeLoop, if_neg hne, hr, Option.bind_some]
          rfl
        · simp [ReceivingBuffer.getData, ReceivingBuffer.reset]

variable (env) in
/-- The loop on a rest with a length field that wraps. -/
theorem consumeLoop_wraps (s : Transmitted) {fuel : ℕ} {b : ReceivingBuffer 512}
    (hwraps : Wraps b.getData) :
    b.consumeLoop (handlePacketFromJtag env) failed fuel s = none := by
  have hne : b.getData ≠ [] := by
    intro hnil
    have hhead := hwraps.head?_eq
    rw [hnil] at hhead
    cases hhead
  cases fuel with
  | zero => rfl
  | succ fuel =>
      rw [ReceivingBuffer.consumeLoop, if_neg hne,
        handlePacketFromJtag_wraps env s hwraps b.length_getData_le]
      rfl

/-- A read, as the cut of the bytes in the buffer says: complete packets are sent, and the rest is
kept at index `0` or dropped. With nothing left over the write index has moved by what was read. -/
theorem iteration_of_cut (env : FirmwareEnv) (hb : t.buffer.WellFormed)
    (hfits : bytes.length ≤ t.buffer.getWritable.length)
    (hcut : Cut packetLength? (t.buffer.getData ++ bytes) ms rest) (hwraps : ¬ Wraps rest) :
    ∃ buffer, t.iteration env bytes = some ⟨buffer,
        (ms.map Taken.message ++ takenRest Stray rest).foldl (afterTaken env) t.done⟩ ∧
      buffer.WellFormed ∧ buffer.getData = keptRest Stray rest ∧
      (rest = [] → buffer.writeIndex = t.buffer.writeIndex + bytes.length) ∧
      (rest ≠ [] → buffer.readIndex = 0) := by
  have hfilled := hb.fill_commit hfits
  have hdata := hb.getData_fill_commit hfits
  rw [← hdata] at hcut
  obtain ⟨b₁, fuel, hpackets, hb₁, hrest₁, hfuel, hwrite₁⟩ := ReceivingBuffer.consumeLoop_takes
    failed (takes_handlePacketFromJtag env) selfDelimiting_packetLength? t.done hfilled hcut
    (Nat.lt_succ_self _)
  subst hrest₁
  obtain ⟨b₂, hloop, hb₂, hkept, hnil, hcons⟩ := consumeLoop_rest env
    (ms.foldl (afterPacket env) t.done) hb₁ hcut.rest_eq hwraps hfuel
  refine ⟨b₂, ?_, hb₂, hkept, fun h => (hnil h).trans hwrite₁, hcons⟩
  rw [List.foldl_append, List.foldl_map, iteration]
  show ((_ : ReceivingBuffer 512).consumeLoop _ failed _ _).map _ = _
  rw [hpackets, hloop]
  rfl

/-- A read that brings a length field that wraps to the front. -/
theorem iteration_eq_none (env : FirmwareEnv) (hb : t.buffer.WellFormed)
    (hfits : bytes.length ≤ t.buffer.getWritable.length)
    (hcut : Cut packetLength? (t.buffer.getData ++ bytes) ms rest) (hwraps : Wraps rest) :
    t.iteration env bytes = none := by
  have hfilled := hb.fill_commit hfits
  have hdata := hb.getData_fill_commit hfits
  rw [← hdata] at hcut
  obtain ⟨b₁, fuel, hpackets, -, hrest₁, -⟩ := ReceivingBuffer.consumeLoop_takes
    failed (takes_handlePacketFromJtag env) selfDelimiting_packetLength? t.done hfilled hcut
    (Nat.lt_succ_self _)
  rw [iteration]
  show ((_ : ReceivingBuffer 512).consumeLoop _ failed _ _).map _ = _
  rw [hpackets, consumeLoop_wraps env _ (hrest₁ ▸ hwraps)]
  rfl

/-! ## Whole runs -/

/-- An iteration in which the driver returns these bytes, at most as many as the task asks for. -/
def read (env : FirmwareEnv) (t : JtagTask) (bytes : List UInt8) : Option JtagTask :=
  if bytes.length ≤ t.buffer.getWritable.length then t.iteration env bytes else none

/-- Between two reads the buffer holds the start of a packet at index `0`, or nothing. -/
structure Settled (t : JtagTask) : Prop where
  wellFormed : t.buffer.WellFormed
  readIndex_eq : t.buffer.getData ≠ [] → t.buffer.readIndex = 0
  rest_eq : packetLength? t.buffer.getData = none
  not_stray : ¬ Stray t.buffer.getData
  not_wraps : ¬ Wraps t.buffer.getData

/-- A read that is handled. -/
structure Handled (env : FirmwareEnv) (t : JtagTask) (bytes : List UInt8) (ms : List (List UInt8))
    (rest : List UInt8) (t' : JtagTask) : Prop where
  fits : bytes.length ≤ t.buffer.getWritable.length
  cut : Cut packetLength? (t.buffer.getData ++ bytes) ms rest
  settled : t'.Settled
  done_eq : t'.done = (ms.map Taken.message ++ takenRest Stray rest).foldl (afterTaken env) t.done
  getData_eq : t'.buffer.getData = keptRest Stray rest
  writeIndex_eq : rest = [] → t'.buffer.writeIndex = t.buffer.writeIndex + bytes.length
  readIndex_eq : rest ≠ [] → t'.buffer.readIndex = 0

/-- What is kept is the start of a packet. -/
theorem keptRest_stray (hrest : packetLength? rest = none) (hwraps : ¬ Wraps rest) :
    packetLength? (keptRest Stray rest) = none ∧ ¬ Stray (keptRest Stray rest) ∧
      ¬ Wraps (keptRest Stray rest) := by
  unfold keptRest
  split
  · exact ⟨rfl, id, fun h => by cases h.head?_eq⟩
  · next hstray => exact ⟨hrest, hstray, hwraps⟩

/-- What a read can do. -/
theorem exists_handled (h : t.Settled) (ht : read env t bytes = some t') :
    ∃ ms rest, Handled env t bytes ms rest t' := by
  rw [read, Option.ite_none_right_eq_some] at ht
  obtain ⟨hfits, ht⟩ := ht
  obtain ⟨ms, rest, hcut⟩ :=
    selfDelimiting_packetLength?.exists_cut (t.buffer.getData ++ bytes)
  have hwraps : ¬ Wraps rest := by
    intro hwraps
    rw [iteration_eq_none env h.wellFormed hfits hcut hwraps] at ht
    cases ht
  obtain ⟨buffer, hiteration, hbuffer, hdata, hnil, hcons⟩ :=
    iteration_of_cut env h.wellFormed hfits hcut hwraps
  rw [ht, Option.some.injEq] at hiteration
  subst hiteration
  obtain ⟨hnone, hnotStray, hnotWraps⟩ := keptRest_stray hcut.rest_eq hwraps
  rw [← hdata] at hnone hnotStray hnotWraps
  have hindex : buffer.getData ≠ [] → buffer.readIndex = 0 := by
    intro hne
    apply hcons
    rintro rfl
    exact hne hdata
  exact ⟨ms, rest, hfits, hcut, ⟨hbuffer, hindex, hnone, hnotStray, hnotWraps⟩, rfl, hdata, hnil,
    hcons⟩

/-- A read that fits is handled iff it does not bring a length field that wraps to the front. -/
theorem read_eq_none_iff (env : FirmwareEnv) (h : t.Settled)
    (hfits : bytes.length ≤ t.buffer.getWritable.length) :
    read env t bytes = none ↔
      ∃ ms rest, Cut packetLength? (t.buffer.getData ++ bytes) ms rest ∧ Wraps rest := by
  obtain ⟨ms, rest, hcut⟩ :=
    selfDelimiting_packetLength?.exists_cut (t.buffer.getData ++ bytes)
  rw [read, if_pos hfits]
  constructor
  · intro hnone
    refine ⟨ms, rest, hcut, ?_⟩
    by_contra hwraps
    obtain ⟨buffer, hiteration, -⟩ := iteration_of_cut env h.wellFormed hfits hcut hwraps
    rw [hnone] at hiteration
    cases hiteration
  -- and if it does, no cut can be handled
  · rintro ⟨ms', rest', hcut', hwraps⟩
    exact iteration_eq_none env h.wellFormed hfits hcut' hwraps

/-- A new task. -/
theorem settled_new (contents : List.Vector UInt8 512) : (new contents).Settled :=
  ⟨ReceivingBuffer.wellFormed_new contents, fun _ => rfl, rfl, id, fun h => by cases h.head?_eq⟩

/-- The invariant of a task and the reads that have led to it. -/
structure History (env : FirmwareEnv) (pieces : List (List UInt8)) (t : JtagTask) : Prop where
  settled : t.Settled
  received : ∃ taken, Receives packetLength? Stray [] pieces taken t.buffer.getData ∧
    t.done = taken.foldl (afterTaken env) ⟨[], []⟩

/-- Every read keeps the invariant. -/
theorem history_step (pieces : List (List UInt8)) (t : JtagTask) (bytes : List UInt8)
    (t' : JtagTask) (h : History env pieces t) (ht : read env t bytes = some t') :
    History env (pieces ++ [bytes]) t' := by
  obtain ⟨ms, rest, hread⟩ := exists_handled h.settled ht
  obtain ⟨taken, htaken, hdone⟩ := h.received
  refine ⟨hread.settled, taken ++ (ms.map .message ++ takenRest Stray rest), ?_, ?_⟩
  · rw [hread.getData_eq]
    exact htaken.concat hread.cut
  · rw [hread.done_eq, hdone]
    exact List.foldl_append.symm

theorem history_run {contents : List.Vector UInt8 512} {pieces : List (List UInt8)}
    (hrun : run (read env) (new contents) pieces = some t) : History env pieces t :=
  run_history history_step ⟨settled_new contents, [], .nil [], rfl⟩ hrun

/-- The calls of `esp_now_send` among what is taken. -/
theorem sent_foldl_afterTaken (taken : List (Taken UInt8)) (s : Transmitted) :
    (taken.foldl (afterTaken env) s).sent = s.sent ++
      JtagRun.calls ((Taken.messages taken).filterMap (PacketToSend.deserialize env.order)) := by
  induction taken generalizing s with
  | nil => exact (List.append_nil _).symm
  | cons first taken ih =>
      rw [List.foldl_cons, ih]
      cases first with
      | message bytes =>
          rw [messages_cons_message, afterTaken, afterPacket]
          -- what cannot be read as a packet is not sent
          cases hpacket : PacketToSend.deserialize env.order bytes with
          | none => rw [List.filterMap_cons_none hpacket]; rfl
          | some packet =>
              rw [List.filterMap_cons_some hpacket, Option.elim_some, Transmitted.sent_send,
                List.append_assoc]
              rfl
      | junk rest => cases rest <;> rfl

/-- In every run of the receive task, whatever the reads bring: packets are sent, strays are logged
and dropped, the start of a packet is kept, and nothing else is lost or done; and the next read is
handled iff it does not bring a length field that wraps to the front. -/
theorem anyInput_run (env : FirmwareEnv) (contents : List.Vector UInt8 512)
    {pieces : List (List UInt8)} {t : JtagTask}
    (hrun : run (read env) (new contents) pieces = some t) :
    (∃ taken, Receives packetLength? Stray [] pieces taken t.buffer.getData ∧
      taken.flatMap Taken.data ++ t.buffer.getData = pieces.flatten ∧
      t.done = taken.foldl (afterTaken env) ⟨[], []⟩ ∧
      t.done.sent =
        JtagRun.calls ((Taken.messages taken).filterMap (PacketToSend.deserialize env.order))) ∧
    ∀ bytes, bytes.length ≤ t.buffer.getWritable.length → (read env t bytes = none ↔
      ∃ ms rest, Cut packetLength? (t.buffer.getData ++ bytes) ms rest ∧ Wraps rest) := by
  obtain ⟨hsettled, taken, htaken, hdone⟩ := history_run hrun
  refine ⟨⟨taken, htaken, htaken.flatten_data, hdone, ?_⟩, fun bytes hfits =>
    read_eq_none_iff env hsettled hfits⟩
  rw [hdone, sent_foldl_afterTaken]
  exact List.nil_append _

/-- A stray, and a packet in two reads. -/
theorem anyInput_run_packet :
    let env : FirmwareEnv := ⟨.little, fun _ => true⟩
    let pieces : List (List UInt8) := [[2, 7], [83, 255, 255, 255, 255, 255, 255, 0, 0], [0, 1, 9]]
    ∃ t, run (read env) (new (.replicate _ 0)) pieces = some t ∧
      t.done = ⟨[(.replicate 6 255, [9])], [.unknownMessageId 2, .failedToHandlePacket]⟩ ∧
      ∃ taken, Receives packetLength? Stray [] pieces taken t.buffer.getData ∧
        t.done = taken.foldl (afterTaken env) ⟨[], []⟩ := by
  intro env pieces
  have hdone : (run (read env) (new (.replicate _ 0)) pieces).map JtagTask.done =
      some ⟨[(.replicate 6 255, [9])], [.unknownMessageId 2, .failedToHandlePacket]⟩ := by
    decide +kernel
  obtain ⟨t, hrun, ht⟩ := Option.map_eq_some_iff.mp hdone
  obtain ⟨⟨taken, htaken, -, hfold, -⟩, -⟩ := anyInput_run env _ hrun
  exact ⟨t, hrun, ht, taken, htaken, hfold⟩

/-! ## Room in the buffer -/

/-- The task asks for no bytes. -/
def Deaf (t : JtagTask) : Prop := t.buffer.getWritable = []

/-- The read fills the buffer, and what has arrived is complete packets, or one unfinished packet
that is as long as the buffer. -/
def FillsBuffer (t : JtagTask) (bytes : List UInt8) : Prop :=
  bytes.length = t.buffer.getWritable.length ∧
    ∃ ms rest, Cut packetLength? (t.buffer.getData ++ bytes) ms rest ∧
      (rest = [] ∨ (rest.length = 512 ∧ ¬ Stray rest))

theorem deaf_iff (t : JtagTask) : Deaf t ↔ 512 ≤ t.buffer.writeIndex := by
  rw [Deaf, ← List.length_eq_zero_iff, ReceivingBuffer.length_getWritable]
  omega

/-- A read leaves no room iff it fills the buffer in this way. -/
theorem Handled.deaf_iff (h : t.Settled) (hread : Handled env t bytes ms rest t') :
    Deaf t' ↔ FillsBuffer t bytes := by
  have hfits := hread.fits
  have hwf := h.wellFormed
  have hdata := hwf.length_getData
  have hread_le := hwf.read_le
  have hwrite_le := hwf.write_le
  have hwf' := hread.settled.wellFormed
  have hrest_le : rest.length ≤ t.buffer.getData.length + bytes.length := by
    have hlen := congrArg List.length hread.cut.flatten_append
    rw [List.length_append, List.length_append] at hlen
    omega
  rw [ReceivingBuffer.length_getWritable] at hfits
  -- the cut is the one that the read was handled by
  have hunique : FillsBuffer t bytes ↔ bytes.length = 512 - t.buffer.writeIndex ∧
      (rest = [] ∨ (rest.length = 512 ∧ ¬ Stray rest)) := by
    rw [FillsBuffer, ReceivingBuffer.length_getWritable]
    refine and_congr_right fun _ => ⟨?_, fun hcase => ⟨ms, rest, hread.cut, hcase⟩⟩
    rintro ⟨ms', rest', hcut', hcase⟩
    obtain ⟨-, rfl⟩ := hread.cut.unique selfDelimiting_packetLength? hcut'
    exact hcase
  rw [JtagTask.deaf_iff, hunique]
  by_cases hnil : rest = []
  -- nothing is left over, and the write index stays behind what was read
  · have hwrite := hread.writeIndex_eq hnil
    simp only [hnil, true_or, and_true]
    omega
  -- what is kept of the rest starts at index `0`
  · have hwrite := hwf'.writeIndex_eq (hread.readIndex_eq hnil)
    rw [hread.getData_eq] at hwrite
    by_cases hstray : Stray rest
    · rw [keptRest, if_pos hstray, List.length_nil] at hwrite
      simp only [hnil, hstray, not_true_eq_false, and_false, or_self, iff_false]
      omega
    · rw [keptRest, if_neg hstray] at hwrite
      simp only [hnil, hstray, not_false_eq_true, and_true, false_or]
      omega

/-- A task without room stays as it is, and reads nothing. -/
theorem Handled.of_deaf (h : t.Settled) (hdeaf : Deaf t) (hread : Handled env t bytes ms rest t') :
    bytes = [] ∧ t'.done = t.done ∧ Deaf t' := by
  have hwritable : t.buffer.getWritable = [] := hdeaf
  have hfits := hread.fits
  rw [hwritable] at hfits
  obtain rfl : bytes = [] := List.eq_nil_of_length_eq_zero (Nat.le_zero.mp hfits)
  have hkept : Cut packetLength? (t.buffer.getData ++ []) [] t.buffer.getData := by
    rw [List.append_nil]
    exact cut_of_none h.rest_eq
  obtain ⟨rfl, rfl⟩ := hread.cut.unique selfDelimiting_packetLength? hkept
  refine ⟨rfl, ?_, (hread.deaf_iff h).mpr ⟨?_, [], t.buffer.getData, hkept, ?_⟩⟩
  · rw [hread.done_eq, takenRest, if_neg h.not_stray]
    rfl
  · rw [hwritable]
  · by_cases hnil : t.buffer.getData = []
    · exact Or.inl hnil
    -- the start of a packet at index `0` that leaves no room
    · have hwrite := h.wellFormed.writeIndex_eq (h.readIndex_eq hnil)
      have hfull := (JtagTask.deaf_iff t).mp hdeaf
      have hle := t.buffer.length_getData_le
      exact Or.inr ⟨by omega, h.not_stray⟩

/-- Since the task was `t₀`, without room, nothing has been read and nothing has been done. -/
structure Silent (t₀ : JtagTask) (later : List (List UInt8)) (t : JtagTask) : Prop where
  settled : t.Settled
  deaf : Deaf t
  flatten_eq : later.flatten = []
  done_eq : t.done = t₀.done

theorem silent_step (t₀ : JtagTask) (later : List (List UInt8)) (t : JtagTask)
    (bytes : List UInt8) (t' : JtagTask) (h : Silent t₀ later t)
    (ht : read env t bytes = some t') : Silent t₀ (later ++ [bytes]) t' := by
  obtain ⟨ms, rest, hread⟩ := exists_handled h.settled ht
  obtain ⟨rfl, hsame, hdeaf⟩ := hread.of_deaf h.settled h.deaf
  refine ⟨hread.settled, hdeaf, ?_, hsame.trans h.done_eq⟩
  rw [List.flatten_append, h.flatten_eq]
  rfl

/-- In every run of the receive task, whatever the reads bring: a read leaves no room for another
byte iff it fills the buffer and what has arrived is complete packets or one unfinished packet as
long as the buffer; and from then on every read is one of no bytes, and the task does nothing. -/
theorem deaf_run (env : FirmwareEnv) (contents : List.Vector UInt8 512)
    {pieces : List (List UInt8)} {t : JtagTask}
    (hrun : run (read env) (new contents) pieces = some t) :
    (∀ bytes t', read env t bytes = some t' → (Deaf t' ↔ FillsBuffer t bytes)) ∧
    (Deaf t → ∀ later t', run (read env) t later = some t' →
      Deaf t' ∧ later.flatten = [] ∧ t'.done = t.done) := by
  obtain ⟨hsettled, -⟩ := history_run hrun
  constructor
  · intro bytes t' ht
    obtain ⟨ms, rest, hread⟩ := exists_handled hsettled ht
    exact hread.deaf_iff hsettled
  · intro hdeaf later t' hlater
    have hstart : Silent t [] t := ⟨hsettled, hdeaf, rfl, rfl⟩
    have hsilent := run_history (silent_step t) hstart hlater
    exact ⟨hsilent.deaf, hsilent.flatten_eq, hsilent.done_eq⟩

/-- Two packets of 256 bytes, each of which arrives in one read. -/
theorem deaf_run_packets :
    let env : FirmwareEnv := ⟨.little, fun _ => true⟩
    let packet : List UInt8 :=
      [83, 255, 255, 255, 255, 255, 255, 0, 0, 0, 245] ++ List.replicate 245 0
    ∃ t, run (read env) (new (.replicate _ 0)) [packet, packet] = some t ∧ Deaf t ∧
      ∀ later t', run (read env) t later = some t' →
        Deaf t' ∧ later.flatten = [] ∧ t'.done = t.done := by
  intro env packet
  have hroom : (run (read env) (new (.replicate _ 0)) [packet, packet]).map
      (fun t => t.buffer.getWritable) = some [] := by decide +kernel
  obtain ⟨t, hrun, hdeaf⟩ := Option.map_eq_some_iff.mp hroom
  exact ⟨t, hrun, hdeaf, (deaf_run env _ hrun).2 hdeaf⟩

end JtagTask
