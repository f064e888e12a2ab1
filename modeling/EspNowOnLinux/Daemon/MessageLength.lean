import EspNowOnLinux.Daemon.DeviceMessage
import EspNowOnLinux.Messages.PacketCodecs

/-!
# The length of a message, as the daemon tells it

`handle_serial_packet` on data that need not come from a device at all: for each kind of message it
tells from the first bytes how long the message is, waits until that many bytes are there, and
takes them off the front. Data that starts with no known id is taken off the front whole.

## Main results

* `selfDelimiting_messageLength?`: a message is recognised by its own bytes;
* `messageLength?_encode`: so is a message whose fields say how long it is;
* `takes_handleSerialPacket`, `handleSerialPacket_unfinished` and `handleSerialPacket_unknown`: what
  the handler does with a complete message, with an unfinished one and with anything else.
-/

open Bytes Framing Messages

namespace EspnowUartDevice

/-- The length of the message at the front, once its first bytes tell it: at once, with the newline
that ends it, or with the length field. -/
def announcedLength? : List UInt8 → Option ℕ
  | [] => none
  | id :: tail =>
    if id = MessageId.startDevice then some StartDevice.size
    else if id = MessageId.logInfo then (tail.findIdx? (· = 10)).map (· + 2)
    else if id = MessageId.logInfoUart then
      if 4 ≤ tail.length then some (5 + ofBE (tail.take 4)) else none
    else if id = MessageId.ping then some 4
    else if id = MessageId.receivedPacket then
      if 10 ≤ tail.length then some (11 + ofBE ((tail.drop 6).take 4)) else none
    else none

/-- The length of the message at the front, if all of it is there. -/
def messageLength? (data : List UInt8) : Option ℕ :=
  (announcedLength? data).filter (· ≤ data.length)

theorem messageLength?_eq_some {data : List UInt8} {n : ℕ} :
    messageLength? data = some n ↔ announcedLength? data = some n ∧ n ≤ data.length := by
  rw [messageLength?, Option.filter_eq_some_iff, decide_eq_true_iff]

theorem known_cases {id : MessageId} (h : id ∈ knownIds) :
    id = MessageId.startDevice ∨ id = MessageId.logInfo ∨ id = MessageId.logInfoUart ∨
      id = MessageId.ping ∨ id = MessageId.receivedPacket := by
  simpa [knownIds] using h

/-! ## Lengths are told by the message alone -/

section Announced

variable (tail : List UInt8)

@[simp]
theorem announcedLength?_startDevice :
    announcedLength? (MessageId.startDevice :: tail) = some StartDevice.size := rfl

@[simp]
theorem announcedLength?_logInfo :
    announcedLength? (MessageId.logInfo :: tail) = (tail.findIdx? (· = 10)).map (· + 2) := rfl

@[simp]
theorem announcedLength?_logInfoUart :
    announcedLength? (MessageId.logInfoUart :: tail) =
      if 4 ≤ tail.length then some (5 + ofBE (tail.take 4)) else none := rfl

@[simp]
theorem announcedLength?_ping : announcedLength? (MessageId.ping :: tail) = some 4 := rfl

@[simp]
theorem announcedLength?_receivedPacket :
    announcedLength? (MessageId.receivedPacket :: tail) =
      if 10 ≤ tail.length then some (11 + ofBE ((tail.drop 6).take 4)) else none := rfl

/-- Only a known id announces a length. -/
theorem announcedLength?_of_unknown {id : MessageId} (h : id ∉ knownIds) :
    announcedLength? (id :: tail) = none := by
  simp only [knownIds, List.mem_cons, List.not_mem_nil, or_false, not_or] at h
  obtain ⟨hstart, hlog, huart, hping, hreceived⟩ := h
  rw [announcedLength?, if_neg hstart, if_neg hlog, if_neg huart, if_neg hping, if_neg hreceived]

end Announced

/-- A message with an announced length starts with a known id. -/
theorem exists_known_of_announced {data : List UInt8} {n : ℕ}
    (h : announcedLength? data = some n) : ∃ id tail, data = id :: tail ∧ id ∈ knownIds := by
  cases data with
  | nil => cases h
  | cons id tail =>
      refine ⟨id, tail, rfl, ?_⟩
      by_contra hid
      rw [announcedLength?_of_unknown tail hid] at h
      cases h

theorem announcedLength?_pos {data : List UInt8} {n : ℕ} (h : announcedLength? data = some n) :
    0 < n := by
  obtain ⟨id, tail, rfl, hid⟩ := exists_known_of_announced h
  rcases known_cases hid with rfl | rfl | rfl | rfl | rfl
  · exact Option.some.inj h ▸ by decide
  · obtain ⟨i, -, rfl⟩ := Option.map_eq_some_iff.mp h
    omega
  · rw [announcedLength?_logInfoUart, Option.ite_none_right_eq_some, Option.some.injEq] at h
    omega
  · exact Option.some.inj h ▸ by decide
  · rw [announcedLength?_receivedPacket, Option.ite_none_right_eq_some, Option.some.injEq] at h
    omega

/-- What follows does not change the announced length. -/
theorem announcedLength?_append {data : List UInt8} {n : ℕ} (h : announcedLength? data = some n)
    (rest : List UInt8) : announcedLength? (data ++ rest) = some n := by
  obtain ⟨id, tail, rfl, hid⟩ := exists_known_of_announced h
  rw [List.cons_append]
  rcases known_cases hid with rfl | rfl | rfl | rfl | rfl
  · exact h
  · obtain ⟨i, hi, rfl⟩ := Option.map_eq_some_iff.mp h
    rw [announcedLength?_logInfo, List.findIdx?_append, hi, Option.some_or, Option.map_some]
  · rw [announcedLength?_logInfoUart, Option.ite_none_right_eq_some] at h
    rw [announcedLength?_logInfoUart, if_pos (by rw [List.length_append]; omega),
      List.take_append_of_le_length h.1, h.2]
  · exact h
  · rw [announcedLength?_receivedPacket, Option.ite_none_right_eq_some] at h
    rw [announcedLength?_receivedPacket, if_pos (by rw [List.length_append]; omega),
      List.drop_append_of_le_length (by omega),
      List.take_append_of_le_length (by rw [List.length_drop]; omega), h.2]

/-- The bytes of the message alone announce its length. -/
theorem announcedLength?_take {data : List UInt8} {n : ℕ} (h : announcedLength? data = some n)
    (hle : n ≤ data.length) : announcedLength? (data.take n) = some n := by
  obtain ⟨id, tail, rfl, hid⟩ := exists_known_of_announced h
  obtain ⟨k, rfl⟩ : ∃ k, n = k + 1 := ⟨n - 1, by have hpos := announcedLength?_pos h; omega⟩
  rw [List.length_cons] at hle
  have hlen : (tail.take k).length = k := by rw [List.length_take]; omega
  rw [List.take_succ_cons]
  rcases known_cases hid with rfl | rfl | rfl | rfl | rfl
  · exact h
  · obtain ⟨i, hi, hk⟩ := Option.map_eq_some_iff.mp h
    -- the newline is the last byte of the message
    have hsplit : (tail.take k ++ tail.drop k).findIdx? (· = 10) = some i := by
      rw [List.take_append_drop, hi]
    rw [List.findIdx?_append] at hsplit
    rw [announcedLength?_logInfo]
    cases htake : (tail.take k).findIdx? (· = 10) with
    | some j =>
        rw [htake, Option.some_or] at hsplit
        rw [Option.map_some, Option.some.inj hsplit, hk]
    | none =>
        rw [htake, Option.none_or, hlen] at hsplit
        obtain ⟨j, -, hj⟩ := Option.map_eq_some_iff.mp hsplit
        omega
  · rw [announcedLength?_logInfoUart, Option.ite_none_right_eq_some, Option.some.injEq] at h
    rw [announcedLength?_logInfoUart, if_pos (by omega), List.take_take, Nat.min_eq_left (by omega),
      h.2]
  · exact h
  · rw [announcedLength?_receivedPacket, Option.ite_none_right_eq_some, Option.some.injEq] at h
    rw [announcedLength?_receivedPacket, if_pos (by omega), List.drop_take, List.take_take,
      Nat.min_eq_left (by omega), h.2]

/-- A message is recognised by its own bytes. -/
theorem selfDelimiting_messageLength? : SelfDelimiting messageLength? where
  pos h := announcedLength?_pos (messageLength?_eq_some.mp h).1
  le h := (messageLength?_eq_some.mp h).2
  append h rest := by
    obtain ⟨hannounced, hle⟩ := messageLength?_eq_some.mp h
    exact messageLength?_eq_some.mpr ⟨announcedLength?_append hannounced rest,
      by rw [List.length_append]; omega⟩
  take h := by
    obtain ⟨hannounced, hle⟩ := messageLength?_eq_some.mp h
    exact messageLength?_eq_some.mpr ⟨announcedLength?_take hannounced hle,
      by rw [List.length_take]; omega⟩

/-- The fields of a message say how long it is. -/
def Sized : DeviceMessage → Prop
  | .startDevice message => message.id = MessageId.startDevice
  | .logInfo text => 10 ∉ text
  | .logInfoUart payload => payload.length < 2 ^ 32
  | .ping => True
  | .receivedPacket _ payload => payload.length < 2 ^ 32

/-- Such a message is complete. -/
theorem messageLength?_encode {m : DeviceMessage} (hm : Sized m) :
    messageLength? m.encode = some m.encode.length := by
  refine messageLength?_eq_some.mpr ⟨?_, le_rfl⟩
  cases m with
  | startDevice message =>
      show announcedLength? (message.id :: _) = some message.toBytes.length
      rw [show message.id = _ from hm, announcedLength?_startDevice, StartDevice.length_toBytes]
  | logInfo text =>
      have htext : text.findIdx? (· = 10) = none := by
        rw [List.findIdx?_eq_none_iff]
        intro b hb
        exact decide_eq_false fun h => hm (h ▸ hb)
      rw [DeviceMessage.encode, List.cons_append, announcedLength?_logInfo, List.findIdx?_append,
        htext]
      simp
  | logInfoUart payload =>
      simp only [DeviceMessage.encode, List.cons_append, List.length_cons, List.length_append,
        length_lengthField]
      rw [announcedLength?_logInfoUart, if_pos (by simp), List.take_left' (length_lengthField _),
        ofBE_lengthField hm]
      congr 1
      omega
  | ping => rfl
  | receivedPacket mac payload =>
      simp only [DeviceMessage.encode, List.length_cons, List.length_append, length_lengthField,
        List.Vector.toList_length]
      rw [announcedLength?_receivedPacket, if_pos (by simp; omega), take_four_drop_six,
        ofBE_lengthField hm]
      congr 1
      omega

/-! ## What the handler does -/

section HandleSerialPacket

variable (env : HostEnv) (d : EspnowUartDevice)

/-- The device after the bytes of a complete message. -/
def afterMessage (message : List UInt8) : EspnowUartDevice :=
  (handleSerialPacket env d message).elim d Reply.state

/-- The text in front of the first newline. -/
theorem exists_text {tail : List UInt8} {i : ℕ} (h : tail.findIdx? (· = 10) = some i) :
    ∃ text rest, tail = text ++ 10 :: rest ∧ text.length = i ∧ 10 ∉ text := by
  obtain ⟨hi, hten, hbefore⟩ := List.findIdx?_eq_some_iff_getElem.mp h
  rw [decide_eq_true_iff] at hten
  refine ⟨tail.take i, tail.drop (i + 1), ?_, ?_, ?_⟩
  · rw [← hten, ← List.drop_eq_getElem_cons hi, List.take_append_drop]
  · rw [List.length_take]; omega
  · intro hmem
    obtain ⟨j, hj, heq⟩ := List.mem_take_iff_getElem.mp hmem
    exact hbefore j (by omega) (decide_eq_true heq)

/-- A complete message is consumed, whatever follows it, with an effect of its own. -/
theorem exists_handled {m : List UInt8} (h : messageLength? m = some m.length) :
    ∃ left t, left.length = m.length ∧ ∀ rest, (m ++ rest).length ≤ 1024 * 4 →
      handleSerialPacket env d (m ++ rest) = some ⟨m.length, t, left ++ rest⟩ := by
  obtain ⟨h, -⟩ := messageLength?_eq_some.mp h
  obtain ⟨id, tail, rfl, hid⟩ := exists_known_of_announced h
  rw [List.length_cons] at h
  rcases known_cases hid with rfl | rfl | rfl | rfl | rfl
  -- `START_DEVICE`
  · have hsize : (MessageId.startDevice :: tail).length = StartDevice.size := by
      rw [announcedLength?_startDevice, Option.some.injEq] at h
      rw [List.length_cons, h]
    obtain ⟨message, hbytes⟩ := StartDevice.exists_toBytes hsize
    have hmessage : message.id = MessageId.startDevice := (List.cons.inj hbytes).1
    refine ⟨message.toBytes, receiveStartDevice env d message, by rw [hbytes], fun rest _ => ?_⟩
    rw [← hbytes, handleSerialPacket_startDevice env d rest hmessage, StartDevice.length_toBytes]
  -- `LOG_INFO`
  · obtain ⟨i, hi, hlen⟩ := Option.map_eq_some_iff.mp h
    obtain ⟨text, rest', rfl, htext, hnotin⟩ := exists_text hi
    obtain rfl : rest' = [] := by
      rw [List.length_append, List.length_cons] at hlen
      exact List.eq_nil_of_length_eq_zero (by omega)
    refine ⟨MessageId.logInfo :: text ++ [0], d, by simp, fun rest hfits => ?_⟩
    have hhandled := handleSerialPacket_logInfo env d rest hnotin
    rw [toInt32_of_lt (by simp at hfits; omega)] at hhandled
    simpa [Int.add_assoc] using hhandled
  -- `LOG_INFO_UART`
  · rw [announcedLength?_logInfoUart, Option.ite_none_right_eq_some, Option.some.injEq] at h
    obtain ⟨hfour, hlen⟩ := h
    refine ⟨MessageId.logInfoUart :: tail, d, rfl, fun rest hfits => ?_⟩
    rw [List.length_append, List.length_cons] at hfits
    rw [List.cons_append, handleSerialPacket_logInfoUart_field env d
        (by rw [List.length_append]; omega),
      List.take_append_of_le_length hfour, if_pos (by rw [List.length_append]; omega), hlen,
      toInt32_of_lt (by omega), List.length_cons]
  -- `PING`
  · rw [announcedLength?_ping, Option.some.injEq] at h
    refine ⟨MessageId.ping :: tail, d, rfl, fun rest _ => ?_⟩
    rw [List.cons_append, handleSerialPacket_ping,
      if_pos (by rw [List.length_append]; omega), List.length_cons, ← h]
    rfl
  -- `RECEIVED_PACKET`
  · rw [announcedLength?_receivedPacket, Option.ite_none_right_eq_some, Option.some.injEq] at h
    obtain ⟨hten, hlen⟩ := h
    obtain ⟨mac, data, rest', hdata, -, hbytes⟩ := exists_packetBytes
      (show Declares MessageId.receivedPacket (MessageId.receivedPacket :: tail) from
        ⟨rfl, hlen.le⟩)
    obtain rfl : rest' = [] := by
      have hlengths := congrArg List.length hbytes
      rw [List.length_append, length_packetBytes_lengthField, hdata, List.length_cons] at hlengths
      have hdeclared : 11 + declaredLength (MessageId.receivedPacket :: tail) = tail.length + 1 :=
        hlen
      exact List.eq_nil_of_length_eq_zero (by omega)
    have hpacket : MessageId.receivedPacket :: tail =
        ReceivedPacket.serialize env.order { mac, data } := by
      rw [ReceivedPacket.serialize_eq, hbytes, List.append_nil]
    refine ⟨_, receivePacket d mac data, rfl, fun rest hfits => ?_⟩
    rw [hpacket, List.length_append, ReceivedPacket.length_serialize] at hfits
    dsimp only at hfits
    rw [hpacket, handleSerialPacket_serialize env d env.order rest rfl (by dsimp only; omega),
      toInt32_of_lt (by dsimp only; omega), ReceivedPacket.length_serialize]

/-- The daemon's handler takes complete messages off the front. -/
theorem takes_handleSerialPacket :
    Takes (serialPortReadHandle env false) messageLength? (afterMessage env) (1024 * 4) := by
  intro d data n h hfits
  have hle := selfDelimiting_messageLength?.le h
  have htake : messageLength? (data.take n) = some (data.take n).length := by
    rw [selfDelimiting_messageLength?.take h, List.length_take, Nat.min_eq_left hle]
  obtain ⟨left, t, hleft, hhandled⟩ := exists_handled env d htake
  have hlen : (data.take n).length = n := by rw [List.length_take, Nat.min_eq_left hle]
  -- the effect is that on the message alone
  have halone := hhandled [] (by rw [List.append_nil, hlen]; omega)
  have hafter : afterMessage env d (data.take n) = t := by
    rw [afterMessage, ← List.append_nil (data.take n), halone]
    rfl
  have hdata := hhandled (data.drop n) (by rwa [List.take_append_drop])
  rw [List.take_append_drop, hlen] at hdata
  exact ⟨left, hleft.trans hlen, hafter.symm ▸ hdata⟩

/-- A known message that is not complete is waited for. -/
theorem handleSerialPacket_unfinished {id : MessageId} {tail : List UInt8} (hid : id ∈ knownIds)
    (h : messageLength? (id :: tail) = none) :
    handleSerialPacket env d (id :: tail) = some ⟨-1, d, id :: tail⟩ := by
  have hlong (n : ℕ) (hn : announcedLength? (id :: tail) = some n) : (id :: tail).length < n := by
    by_contra hle
    rw [messageLength?_eq_some.mpr ⟨hn, Nat.not_lt.mp hle⟩] at h
    cases h
  rcases known_cases hid with rfl | rfl | rfl | rfl | rfl
  · exact handleSerialPacket_startDevice_incomplete env d (hlong _ rfl)
  · refine handleSerialPacket_logInfo_incomplete env d fun hten => ?_
    cases hfind : tail.findIdx? (· = 10) with
    | none =>
        have hnone := List.findIdx?_eq_none_iff.mp hfind 10 hten
        cases hnone
    | some i =>
        obtain ⟨text, rest, rfl, htext, -⟩ := exists_text hfind
        have hlt := hlong (i + 2) (by rw [announcedLength?_logInfo, hfind]; rfl)
        rw [List.length_cons, List.length_append, List.length_cons] at hlt
        omega
  · rcases Nat.lt_or_ge tail.length 4 with hshort | hfour
    · exact handleSerialPacket_logInfoUart_short env d (by rw [List.length_cons]; omega)
    · have hlt := hlong _ (if_pos hfour)
      rw [List.length_cons] at hlt
      rw [handleSerialPacket_logInfoUart_field env d hfour, if_neg (by omega)]
  · have hshort := hlong 4 rfl
    rw [List.length_cons] at hshort
    rw [handleSerialPacket_ping, if_neg (by omega)]
  · rcases Nat.lt_or_ge tail.length 10 with hshort | hten
    · exact handleSerialPacket_receivedPacket_short env d (by rw [List.length_cons]; omega)
    · have hlt := hlong _ (if_pos hten)
      rw [List.length_cons] at hlt
      exact handleSerialPacket_receivedPacket_waiting env d hten (by omega)

end HandleSerialPacket

end EspnowUartDevice
