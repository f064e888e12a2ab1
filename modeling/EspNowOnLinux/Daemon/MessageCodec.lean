import EspNowOnLinux.Daemon.MessageLength

/-!
# The messages behind the bytes

The format of what a device sends, read backwards: which message the bytes of a complete one are.
What stands behind the id of a `PING` does not matter to the daemon; all other messages have one
sequence of bytes.

## Main results

* `decode?_encode`: the bytes of a message are those of no other message;
* `exists_decode?`: what the daemon takes for a complete message is one;
* `foldl_afterMessage`: what the handler does with the bytes of several messages is what `deliver`
  does with these messages;
* `handleSerialPacket_answers`: on any data the handler takes the message at the front, or waits as
  long as there is none, or drops what starts with no known id; and where it stays in bounds.
-/

open Bytes Framing Messages

namespace EspnowUartDevice

theorem length_take_six {bytes : List UInt8} (h : 6 ≤ bytes.length) :
    (bytes.take 6).length = 6 := by
  rw [List.length_take, Nat.min_eq_left h]

/-- The message that the bytes of a complete message are. -/
def decode? : List UInt8 → Option DeviceMessage
  | [] => none
  | id :: tail =>
    if id = MessageId.startDevice then
      (StartDevice.read (id :: tail) {}).map fun r => .startDevice r.2
    else if id = MessageId.logInfo then some (.logInfo tail.dropLast)
    else if id = MessageId.logInfoUart then some (.logInfoUart (tail.drop 4))
    else if id = MessageId.ping then some .ping
    else if id = MessageId.receivedPacket then
      if h : 6 ≤ tail.length then
        some (.receivedPacket ⟨tail.take 6, length_take_six h⟩ (tail.drop 10))
      else none
    else none

section Decode

variable (tail : List UInt8)

@[simp]
theorem decode?_logInfo :
    decode? (MessageId.logInfo :: tail) = some (.logInfo tail.dropLast) := rfl

@[simp]
theorem decode?_logInfoUart :
    decode? (MessageId.logInfoUart :: tail) = some (.logInfoUart (tail.drop 4)) := rfl

@[simp]
theorem decode?_ping : decode? (MessageId.ping :: tail) = some .ping := rfl

theorem decode?_toBytes {message : StartDevice} (hid : message.id = MessageId.startDevice) :
    decode? message.toBytes = some (.startDevice message) := by
  have hread := StartDevice.read_toBytes message {} []
  rw [List.append_nil] at hread
  obtain ⟨rest, hcons⟩ : ∃ rest, message.toBytes = MessageId.startDevice :: rest :=
    ⟨_, by rw [← hid]; rfl⟩
  rw [hcons] at hread ⊢
  rw [decode?, if_pos rfl, hread]
  rfl

theorem decode?_receivedPacket (mac : MacAddress) {field : List UInt8} (hfield : field.length = 4)
    (payload : List UInt8) :
    decode? (MessageId.receivedPacket :: (mac.toList ++ (field ++ payload))) =
      some (.receivedPacket mac payload) := by
  have hsix : 6 ≤ (mac.toList ++ (field ++ payload)).length := by
    rw [List.length_append, mac.toList_length]; omega
  have hdrop : (mac.toList ++ (field ++ payload)).drop 10 = payload := by
    rw [← List.drop_drop (i := 4) (j := 6), drop_six_mac, List.drop_left' hfield]
  show (if h : 6 ≤ (mac.toList ++ (field ++ payload)).length then _ else none) = _
  simp only [dif_pos hsix, take_six_mac, hdrop]
  rfl

end Decode

/-- The bytes of a message are decoded to this message. -/
theorem decode?_encode {m : DeviceMessage} (hm : Sized m) : decode? m.encode = some m := by
  cases m with
  | startDevice message => exact decode?_toBytes hm
  | logInfo text =>
      rw [DeviceMessage.encode, List.cons_append, decode?_logInfo, List.dropLast_concat]
  | logInfoUart payload =>
      rw [DeviceMessage.encode, List.cons_append, decode?_logInfoUart,
        List.drop_left' (length_lengthField payload)]
  | ping => rfl
  | receivedPacket mac payload => exact decode?_receivedPacket mac (length_lengthField _) payload

/-- What the daemon takes for a complete message is one, and it has the effects of this message. -/
theorem exists_decode? {bytes : List UInt8} (h : messageLength? bytes = some bytes.length) :
    ∃ m, decode? bytes = some m ∧ Sized m ∧ (m ≠ .ping → m.encode = bytes) ∧
      ∀ env d, afterMessage env d bytes = deliver env d m := by
  obtain ⟨h, -⟩ := messageLength?_eq_some.mp h
  obtain ⟨id, tail, rfl, hid⟩ := exists_known_of_announced h
  rw [List.length_cons] at h
  rcases known_cases hid with rfl | rfl | rfl | rfl | rfl
  -- `START_DEVICE`
  · rw [announcedLength?_startDevice, Option.some.injEq] at h
    have hsize : (MessageId.startDevice :: tail).length = StartDevice.size := h.symm
    obtain ⟨message, hbytes⟩ := StartDevice.exists_toBytes hsize
    have hmessage : message.id = MessageId.startDevice := (List.cons.inj hbytes).1
    rw [← hbytes]
    refine ⟨.startDevice message, decode?_toBytes hmessage, hmessage, fun _ => rfl, ?_⟩
    intro env d
    have hhandled := handleSerialPacket_startDevice env d [] hmessage
    rw [List.append_nil] at hhandled
    rw [afterMessage, hhandled]
    rfl
  -- `LOG_INFO`
  · obtain ⟨i, hi, hlen⟩ := Option.map_eq_some_iff.mp h
    obtain ⟨text, rest, rfl, htext, hnotin⟩ := exists_text hi
    obtain rfl : rest = [] := by
      rw [List.length_append, List.length_cons] at hlen
      exact List.eq_nil_of_length_eq_zero (by omega)
    refine ⟨.logInfo text, ?_, hnotin, fun _ => rfl, fun env d => ?_⟩
    · rw [decode?_logInfo, List.dropLast_concat]
    · have hhandled := handleSerialPacket_logInfo env d [] hnotin
      rw [List.cons_append] at hhandled
      rw [afterMessage, hhandled]
      rfl
  -- `LOG_INFO_UART`
  · rw [announcedLength?_logInfoUart, Option.ite_none_right_eq_some, Option.some.injEq] at h
    obtain ⟨hfour, hlen⟩ := h
    have hfield : (tail.take 4).length = 4 := by rw [List.length_take]; omega
    have hdata : (tail.drop 4).length = ofBE (tail.take 4) := by rw [List.length_drop]; omega
    have hlt := ofBE_lt (tail.take 4)
    rw [hfield] at hlt
    refine ⟨.logInfoUart (tail.drop 4), rfl, show (tail.drop 4).length < 2 ^ 32 by omega,
      fun _ => ?_, fun env d => ?_⟩
    · rw [DeviceMessage.encode, lengthField_of_ofBE hfield hdata, List.cons_append,
        List.take_append_drop]
    · rw [afterMessage, handleSerialPacket_logInfoUart_field env d hfour]
      rfl
  -- `PING`
  · rw [announcedLength?_ping, Option.some.injEq] at h
    refine ⟨.ping, rfl, trivial, fun hne => absurd rfl hne, fun env d => ?_⟩
    rw [afterMessage, handleSerialPacket_ping, if_pos (by omega)]
    rfl
  -- `RECEIVED_PACKET`
  · rw [announcedLength?_receivedPacket, Option.ite_none_right_eq_some, Option.some.injEq] at h
    obtain ⟨hten, hlen⟩ := h
    obtain ⟨mac, data, rest, hdata, hlt, hbytes⟩ := exists_packetBytes
      (show Declares MessageId.receivedPacket (MessageId.receivedPacket :: tail) from
        ⟨rfl, hlen.le⟩)
    obtain rfl : rest = [] := by
      have hlengths := congrArg List.length hbytes
      rw [List.length_append, length_packetBytes_lengthField, hdata, List.length_cons] at hlengths
      have hdeclared : 11 + declaredLength (MessageId.receivedPacket :: tail) = tail.length + 1 :=
        hlen
      exact List.eq_nil_of_length_eq_zero (by omega)
    have hencode : DeviceMessage.encode (.receivedPacket mac data) =
        MessageId.receivedPacket :: tail := by
      rw [hbytes, List.append_nil]
      simp [DeviceMessage.encode, packetBytes]
    rw [← hencode]
    refine ⟨.receivedPacket mac data, decode?_receivedPacket mac (length_lengthField _) data, hlt,
      fun _ => rfl, fun env d => ?_⟩
    have hhandled := handleSerialPacket_receivedPacket env d mac (le_refl data.length) hlt
    rw [afterMessage, DeviceMessage.encode, hhandled, List.take_length]
    rfl

/-- The messages among complete ones have their effects one after the other. -/
theorem foldl_afterMessage (env : HostEnv) {spans : List (List UInt8)}
    (h : ∀ bytes ∈ spans, messageLength? bytes = some bytes.length) (d : EspnowUartDevice) :
    spans.foldl (afterMessage env) d = (spans.filterMap decode?).foldl (deliver env) d := by
  induction spans generalizing d with
  | nil => rfl
  | cons bytes spans ih =>
      obtain ⟨m, hm, -, -, hafter⟩ := exists_decode? (h bytes List.mem_cons_self)
      rw [List.foldl_cons, hafter, ih fun b hb => h b (List.mem_cons_of_mem _ hb),
        List.filterMap_cons_some hm, List.foldl_cons]

/-! ## The handler on any data -/

/-- The bytes that are a message to the daemon: its encoding, or the id of a `PING` and any three
bytes. -/
def IsBytesOf (m : DeviceMessage) (bytes : List UInt8) : Prop :=
  bytes = m.encode ∨ m = .ping ∧ ∃ a b c, bytes = [MessageId.ping, a, b, c]

/-- What is decoded to a `PING` starts with its id. -/
theorem eq_ping_of_decode? {id : MessageId} {tail : List UInt8} (hid : id ∈ knownIds)
    (h : decode? (id :: tail) = some .ping) : id = MessageId.ping := by
  rcases known_cases hid with rfl | rfl | rfl | rfl | rfl
  · obtain ⟨r, -, hr⟩ := Option.map_eq_some_iff.mp h
    cases hr
  · cases h
  · cases h
  · rfl
  · have hdecode : decode? (MessageId.receivedPacket :: tail) = if h : 6 ≤ tail.length then
        some (.receivedPacket ⟨tail.take 6, length_take_six h⟩ (tail.drop 10)) else none := rfl
    rw [hdecode] at h
    split at h <;> cases h

/-- What the daemon takes for a complete message are the bytes of one. -/
theorem exists_isBytesOf {bytes : List UInt8} (h : messageLength? bytes = some bytes.length) :
    ∃ m, Sized m ∧ IsBytesOf m bytes ∧ ∀ env d, afterMessage env d bytes = deliver env d m := by
  obtain ⟨m, hdecode, hsized, hencode, hafter⟩ := exists_decode? h
  refine ⟨m, hsized, ?_, hafter⟩
  by_cases hping : m = .ping
  · subst hping
    obtain ⟨hannounced, -⟩ := messageLength?_eq_some.mp h
    obtain ⟨id, tail, rfl, hid⟩ := exists_known_of_announced hannounced
    obtain rfl := eq_ping_of_decode? hid hdecode
    rw [announcedLength?_ping, Option.some.injEq, List.length_cons] at hannounced
    obtain ⟨a, b, c, rfl⟩ := List.length_eq_three.mp (Nat.succ.inj hannounced).symm
    exact Or.inr ⟨rfl, a, b, c, rfl⟩
  · exact Or.inl (hencode hping).symm

/-- The bytes of a message tell its length. -/
theorem messageLength?_isBytesOf {m : DeviceMessage} {bytes : List UInt8} (hm : Sized m)
    (h : IsBytesOf m bytes) : messageLength? bytes = some bytes.length := by
  rcases h with rfl | ⟨-, a, b, c, rfl⟩
  · exact messageLength?_encode hm
  · rfl

/-- The answer of `handle_serial_packet` to some data, and what becomes of the device. -/
inductive AnswerTo (env : HostEnv) (d : EspnowUartDevice) :
    List UInt8 → Reply EspnowUartDevice UInt8 → Prop
  /-- The message at the front is taken, and what is behind it is left alone. -/
  | message {m : DeviceMessage} {bytes left : List UInt8} (rest : List UInt8) (hm : Sized m)
      (hbytes : IsBytesOf m bytes) (hleft : left.length = bytes.length) :
      AnswerTo env d (bytes ++ rest) ⟨bytes.length, deliver env d m, left ++ rest⟩
  /-- The data starts with a known id and with no message: nothing happens until more arrives. -/
  | unfinished {id : MessageId} {tail : List UInt8} (hid : id ∈ knownIds)
      (hnone : ∀ m bytes, Sized m → IsBytesOf m bytes → ¬ bytes <+: id :: tail) :
      AnswerTo env d (id :: tail) ⟨-1, d, id :: tail⟩
  /-- The data starts with no known id: all of it is dropped. -/
  | unknown {id : MessageId} {tail : List UInt8} (hid : id ∉ knownIds) :
      AnswerTo env d (id :: tail) ⟨(id :: tail).length, d, id :: tail⟩

/-- There is an answer to whatever the buffer can hold. -/
theorem exists_answerTo (env : HostEnv) (d : EspnowUartDevice) {data : List UInt8}
    (hne : data ≠ []) (hle : data.length ≤ 1024 * 4) :
    ∃ reply, handleSerialPacket env d data = some reply ∧ AnswerTo env d data reply := by
  obtain ⟨id, tail, rfl⟩ := List.exists_cons_of_ne_nil hne
  by_cases hid : id ∈ knownIds
  · cases hlength : messageLength? (id :: tail) with
    | some n =>
        obtain ⟨left, hleft, hhandled⟩ := takes_handleSerialPacket env d (id :: tail) n hlength hle
        have hn := selfDelimiting_messageLength?.le hlength
        have htaken : ((id :: tail).take n).length = n := by
          rw [List.length_take, Nat.min_eq_left hn]
        have hwhole : messageLength? ((id :: tail).take n) =
            some ((id :: tail).take n).length := by
          rw [selfDelimiting_messageLength?.take hlength, htaken]
        obtain ⟨m, hm, hbytes, hafter⟩ := exists_isBytesOf hwhole
        refine ⟨_, hhandled, ?_⟩
        have hanswer : AnswerTo env d (_ ++ (id :: tail).drop n) _ :=
          .message _ hm hbytes (hleft.trans htaken.symm)
        rwa [List.take_append_drop, htaken, ← hafter] at hanswer
    | none =>
        refine ⟨_, handleSerialPacket_unfinished env d hid hlength, .unfinished hid ?_⟩
        -- a message at the front would tell its length there
        rintro m bytes hm hbytes ⟨rest, hrest⟩
        have hlong := selfDelimiting_messageLength?.append
          (messageLength?_isBytesOf hm hbytes) rest
        rw [hrest, hlength] at hlong
        cases hlong
  · refine ⟨_, handleSerialPacket_unknown env d hid, ?_⟩
    rw [toInt32_of_lt (by omega)]
    exact .unknown hid

/-- Data is in bounds iff a packet at its front has at most 498 bytes of payload, and data of an
unknown id is whole lines of the dump. -/
theorem inBounds_iff (data : List UInt8) :
    InBounds data ↔
      (∀ mac payload, payload.length < 2 ^ 32 →
        DeviceMessage.encode (.receivedPacket mac payload) <+: data → payload.length ≤ 498) ∧
      (Unknown data → 32 ∣ data.length) := by
  have hencode (mac : MacAddress) (payload : List UInt8) :
      DeviceMessage.encode (.receivedPacket mac payload) =
        ReceivedPacket.serialize .little { mac, data := payload } := by
    simp [DeviceMessage.encode, ReceivedPacket.serialize_eq, packetBytes]
  constructor
  · intro hbounds
    refine ⟨?_, hbounds.dump⟩
    rintro mac payload hlt ⟨rest, rfl⟩
    rw [hencode] at hbounds
    exact (inBounds_serialize_iff .little rest rfl hlt).mp hbounds
  · rintro ⟨hpacket, hdump⟩
    refine ⟨fun hdeclares => ?_, hdump⟩
    obtain ⟨mac, payload, rest, hlength, hlt, hdata⟩ := exists_packetBytes hdeclares
    have hfits := hpacket mac payload hlt ⟨rest, by
      rw [hencode, ReceivedPacket.serialize_eq, hdata]⟩
    omega

/-- On whatever the buffer can hold the handler takes a message iff there is one at the front, with
the effects of this message, and changes nothing otherwise. It stays within the array of the frame
and, with the dump, within its data iff a packet at the front has at most 498 bytes and data of an
unknown id is whole lines. -/
theorem handleSerialPacket_answers (env : HostEnv) (d : EspnowUartDevice) {data : List UInt8}
    (hne : data ≠ []) (hle : data.length ≤ 1024 * 4) :
    ∃ reply, handleSerialPacket env d data = some reply ∧ AnswerTo env d data reply ∧
      (handleInBounds env d data = some reply ↔
        (∀ mac payload, payload.length < 2 ^ 32 →
          DeviceMessage.encode (.receivedPacket mac payload) <+: data → payload.length ≤ 498) ∧
        (Unknown data → 32 ∣ data.length)) := by
  obtain ⟨reply, hreply, hanswer⟩ := exists_answerTo env d hne hle
  refine ⟨reply, hreply, hanswer, ?_⟩
  rw [← inBounds_iff, handleInBounds, hreply]
  by_cases hbounds : InBounds data
  · rw [if_pos hbounds]
    exact iff_of_true rfl hbounds
  · rw [if_neg hbounds]
    exact iff_of_false (Option.some_ne_none reply).symm hbounds

/-- A `PING` whose text is something else is taken as well. -/
theorem handleSerialPacket_answers_ping :
    let env : HostEnv := ⟨.little, fun _ => []⟩
    let d : EspnowUartDevice := .new (.new (.replicate _ 0)) "espnow0"
      ⟨[], .replicate 6 0, 0, ⟨0, 0, 0⟩⟩ (.replicate _ 0)
    let data : List UInt8 := [MessageId.ping, 1, 2, 3, 7]
    handleSerialPacket env d data = some ⟨4, d, data⟩ ∧
      ∃ reply, handleSerialPacket env d data = some reply ∧ AnswerTo env d data reply := by
  intro env d data
  obtain ⟨reply, hreply, hanswer, -⟩ :=
    handleSerialPacket_answers env d (show data ≠ [] from List.cons_ne_nil _ _) (by decide)
  exact ⟨rfl, reply, hreply, hanswer⟩

end EspnowUartDevice
