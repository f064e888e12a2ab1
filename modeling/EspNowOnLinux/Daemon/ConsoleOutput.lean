import EspNowOnLinux.Daemon.AnyStream
import EspNowOnLinux.Firmware.UartLine

/-!
# What the daemon prints of the bytes it receives

`handle_serial_packet` prints the text of a log message as a C string, and bytes that start with no
known id as a dump of `32` bytes a line. Both read the receive buffer through a pointer, so what is
printed depends on where the reading ends. The bytes that lie behind the handler's span in memory
are a parameter, up to a NUL.

## Main results

* `confined_iff`: the text of a log message is read from the message alone iff the message is a
  `LOG_INFO`, whose newline is overwritten with a NUL, or its payload has a NUL;
* `confined_log`: so it is for the messages of `log_to_uart`;
* `dumpsExactly_iff`: the dump prints the bytes it is given, each once, iff their number is a
  multiple of `32` that fits in 32 bits.
-/

open Bytes Messages

namespace EspnowUartDevice

/-! ## Log messages -/

/-- A C string that is printed. -/
structure PrintedText where
  /-- The index at which it starts in the handler's span. -/
  start : ℕ
  /-- Its characters; a NUL follows them. -/
  chars : List UInt8
  deriving DecidableEq

/-- The text that `handle_serial_packet` prints of a log message, with `beyond` behind the span in
memory. -/
def printedText? (env : HostEnv) (data beyond : List UInt8) : Option PrintedText :=
  match data with
  | [] => none
  | id :: _ =>
    if id = MessageId.logInfo then
      match data.findIdx? (· = 10) with
      -- the newline is overwritten before the text is printed
      | some length => some ⟨1, cString ((data.set length 0 ++ beyond).drop 1)⟩
      | none => none
    else if id = MessageId.logInfoUart then
      if data.length < 5 then none
      else
        let expectedSize := hostToNetwork env.order (loadUInt32 env.order (data.drop 1))
        -- the size decides whether the message is complete, and not where its text ends
        if 5 + expectedSize.toNat ≤ data.length then some ⟨5, cString ((data ++ beyond).drop 5)⟩
        else none
    else none

/-- A complete log message. -/
inductive LogMessage
  | logInfo (text : { text : List UInt8 // 10 ∉ text })
  | logInfoUart (payload : { payload : List UInt8 // payload.length < 2 ^ 32 })

namespace LogMessage

/-- The bytes of a log message. -/
def bytes : LogMessage → List UInt8
  | logInfo text => (DeviceMessage.logInfo text).encode
  | logInfoUart payload => (DeviceMessage.logInfoUart payload).encode

/-- A NUL ends the text within the message. -/
def Terminated : LogMessage → Prop
  | logInfo _ => True
  | logInfoUart payload => 0 ∈ payload.val

/-- What is printed of a message, followed by `later` in the buffer and by `beyond` in memory. -/
def text (m : LogMessage) (later beyond : List UInt8) : PrintedText :=
  match m with
  | logInfo text => ⟨1, cString (text.val ++ 0 :: (later ++ beyond))⟩
  | logInfoUart payload => ⟨5, cString (payload.val ++ (later ++ beyond))⟩

end LogMessage

/-- The text printed of a log message and the NUL behind it are bytes of the message, and the text
does not depend on what follows the message in the buffer and in memory. -/
structure Confined (env : HostEnv) (message : List UInt8) : Prop where
  inside : ∀ later beyond, ∃ text, printedText? env (message ++ later) beyond = some text ∧
    text.start + text.chars.length < message.length
  independent : ∀ later beyond later' beyond',
    printedText? env (message ++ later) beyond = printedText? env (message ++ later') beyond'

variable {env : HostEnv}

/-- What `handle_serial_packet` prints of a complete log message. -/
theorem printedText?_bytes (m : LogMessage) (later beyond : List UInt8) :
    printedText? env (m.bytes ++ later) beyond = some (m.text later beyond) := by
  cases m with
  | logInfo text =>
      obtain ⟨text, htext⟩ := text
      have hfind := findIdx?_newline later htext
      have hset : (MessageId.logInfo :: (text ++ 10 :: later)).set (text.length + 1) 0 =
          MessageId.logInfo :: (text ++ 0 :: later) := by
        simp
      simp only [LogMessage.bytes, DeviceMessage.encode, List.cons_append, List.append_assoc,
        List.nil_append, printedText?, hfind, hset]
      simp [LogMessage.text]
  | logInfoUart payload =>
      obtain ⟨payload, hlength⟩ := payload
      have hfield : 4 ≤ (lengthField payload ++ (payload ++ later)).length := by
        rw [List.length_append, length_lengthField]
        exact Nat.le_add_right _ _
      have hsize := networkToHost_lengthField env.order (payload ++ later) hlength
      have hcomplete : 5 + payload.length ≤
          (MessageId.logInfoUart :: (lengthField payload ++ (payload ++ later))).length := by
        simp only [List.length_cons, List.length_append, length_lengthField]
        omega
      have hfive : ¬ (MessageId.logInfoUart :: (lengthField payload ++ (payload ++ later))).length
          < 5 := by
        rw [List.length_cons]
        omega
      have htext : ((MessageId.logInfoUart :: (lengthField payload ++ (payload ++ later))) ++
          beyond).drop 5 = payload ++ (later ++ beyond) := by
        rw [List.cons_append, List.drop_succ_cons, List.append_assoc, List.append_assoc,
          List.drop_left' (length_lengthField payload)]
      simp only [LogMessage.bytes, DeviceMessage.encode, List.cons_append, List.append_assoc]
      rw [printedText?, if_neg (by decide), if_pos rfl, if_neg hfive]
      simp only [List.drop_succ_cons, List.drop_zero, hostToNetwork_eq_networkToHost, hsize]
      rw [if_pos hcomplete, htext]
      rfl

/-- The handler is about to consume just the message whose text it prints. -/
theorem handleSerialPacket_bytes (d : EspnowUartDevice) (m : LogMessage) (later : List UInt8) :
    ∃ left, handleSerialPacket env d (m.bytes ++ later) =
      some ⟨toInt32 m.bytes.length, d, left⟩ := by
  cases m with
  | logInfo text =>
      have h := handleSerialPacket_logInfo env d later text.property
      refine ⟨MessageId.logInfo :: text.val ++ 0 :: later, ?_⟩
      simpa [LogMessage.bytes, DeviceMessage.encode] using h
  | logInfoUart payload =>
      have h := handleSerialPacket_logInfoUart env d (payload.val ++ later) payload.property
      rw [if_pos (by rw [List.length_append]; exact Nat.le_add_right _ _)] at h
      have hlength : 5 + payload.val.length = (LogMessage.logInfoUart payload).bytes.length := by
        simp only [LogMessage.bytes, DeviceMessage.encode, List.length_append, List.length_cons,
          length_lengthField]
      refine ⟨MessageId.logInfoUart :: lengthField payload.val ++ (payload.val ++ later), ?_⟩
      rw [← hlength, LogMessage.bytes, DeviceMessage.encode, List.append_assoc]
      exact h

/-- A text that a NUL ends within its message is printed without what follows. -/
theorem confined_of_terminated {m : LogMessage} (h : m.Terminated) : Confined env m.bytes := by
  obtain ⟨text, hinside, hsame⟩ : ∃ text : PrintedText,
      text.start + text.chars.length < m.bytes.length ∧
      ∀ later beyond, m.text later beyond = text := by
    cases m with
    | logInfo text =>
        -- the text may hold a NUL itself, and ends where its newline was if it does not
        refine ⟨⟨1, cString (text.val ++ [0])⟩, ?_, fun later beyond => ?_⟩
        · have hle : (cString (text.val ++ [0])).length ≤ text.val.length := by
            rw [cString_append_nul]
            exact length_cString_le _
          simp only [LogMessage.bytes, DeviceMessage.encode, List.length_append, List.length_cons,
            List.length_nil]
          omega
        · rw [LogMessage.text, cString_append_nul, cString_append_nul]
    | logInfoUart payload =>
        refine ⟨⟨5, cString payload.val⟩, ?_, fun later beyond => ?_⟩
        · have hlt := length_cString_lt h
          simp only [LogMessage.bytes, DeviceMessage.encode, List.length_append, List.length_cons,
            length_lengthField]
          omega
        · rw [LogMessage.text, cString_append_of_mem h]
  refine ⟨fun later beyond => ⟨text, ?_, hinside⟩, fun later beyond later' beyond' => ?_⟩
  · rw [printedText?_bytes, hsame]
  · rw [printedText?_bytes, printedText?_bytes, hsame, hsame]

/-- A payload without a NUL is read to its end, and on from there. -/
theorem not_confined_of_notMem {payload : { payload : List UInt8 // payload.length < 2 ^ 32 }}
    (h : 0 ∉ payload.val) : ¬ Confined env (LogMessage.logInfoUart payload).bytes := by
  intro hconfined
  obtain ⟨text, htext, hinside⟩ := hconfined.inside [] []
  rw [printedText?_bytes] at htext
  obtain rfl := Option.some.inj htext
  simp only [LogMessage.text, List.append_nil, cString_of_notMem h, LogMessage.bytes,
    DeviceMessage.encode, List.length_append, List.length_cons, length_lengthField] at hinside
  omega

/-- For every complete log message, whatever its payload holds: its text is read from the message
alone iff a NUL ends it there. -/
theorem confined_iff (env : HostEnv) (m : LogMessage) : Confined env m.bytes ↔ m.Terminated := by
  constructor
  · intro h
    cases m with
    | logInfo text => trivial
    | logInfoUart payload =>
        by_contra hnul
        exact not_confined_of_notMem hnul h
  · exact confined_of_terminated

/-- Two runs on a payload of two bytes without a NUL, followed by a `PING` and by a `LOG_INFO`: what
is printed goes on into the next message. -/
theorem confined_fails :
    let env : HostEnv := ⟨.little, fun _ => []⟩
    let m : LogMessage := .logInfoUart ⟨[104, 105], by decide⟩
    printedText? env (m.bytes ++ ping) [0] = some ⟨5, [104, 105] ++ ping⟩ ∧
      printedText? env (m.bytes ++ [73, 10]) [0] = some ⟨5, [104, 105, 73, 10]⟩ ∧
      ¬ Confined env m.bytes := by
  intro env m
  exact ⟨by decide, by decide, not_confined_of_notMem (by decide)⟩

/-- `vsnprintf` ends what it writes with a NUL. -/
theorem zero_mem_logBuffer (stack : List.Vector UInt8 256) (text : List UInt8) :
    0 ∈ logBuffer stack text := by
  have hfits : 0 + (text.take 255 ++ [0]).length ≤ stack.toList.length := by
    rw [stack.toList_length, List.length_append, List.length_take, List.length_singleton]
    omega
  rw [logBuffer, overwrite_of_fits hfits]
  simp

/-- The text of a message that `log_to_uart` sends is read from the message alone. -/
theorem confined_log (env : HostEnv) (stack : List.Vector UInt8 256) (message : FirmwareLog) :
    Confined env (UartCall.log stack message).message.encode := by
  have hlength : (logBuffer stack message.text).length < 2 ^ 32 := by
    rw [length_logBuffer]
    decide
  have hnul : (LogMessage.logInfoUart ⟨_, hlength⟩).Terminated := zero_mem_logBuffer _ _
  exact confined_of_terminated hnul

/-! ## Bytes that are no message -/

/-- `data.subspan(offset, count)`. -/
structure SubSpan where
  offset : ℕ
  count : ℕ
  deriving DecidableEq

namespace SubSpan

/-- The sub-span lies inside a span of this size. -/
def Inside (s : SubSpan) (size : ℕ) : Prop := s.offset + s.count ≤ size

/-- The bytes of the sub-span, where memory from the start of the span on holds `memory`. -/
def bytes (s : SubSpan) (memory : List UInt8) : List UInt8 :=
  (memory.drop s.offset).take s.count

end SubSpan

/-- The loop of the dump from `off` on, in a span of this size: the sub-spans that are printed.
`off` is an `unsigned int`. `none` is a loop that does not end with this fuel. -/
def dumpFrom (size : ℕ) : ℕ → UInt32 → Option (List SubSpan)
  | 0, _ => none
  | fuel + 1, off =>
      if off.toNat < size then (dumpFrom size fuel (off + 32)).map (⟨off.toNat, 32⟩ :: ·)
      else some []

/-- The sub-spans that `handle_serial_packet` dumps of its span. -/
def dump (data : List UInt8) (fuel : ℕ) : Option (List SubSpan) :=
  if Unknown data then dumpFrom data.length fuel 0 else some []

/-- The dump ends, reads no byte outside the span, and prints those of the span in order, each
once. -/
def DumpsExactly (data : List UInt8) : Prop :=
  ∃ fuel subs, dump data fuel = some subs ∧ (∀ s ∈ subs, s.Inside data.length) ∧
    ∀ beyond, subs.flatMap (fun s => s.bytes (data ++ beyond)) = data

/-- From an offset in front of which all lines are complete, to the end of a span of complete
lines. -/
theorem exists_dumpFrom {size : ℕ} (hsize : size < 2 ^ 32) (lines : ℕ) {off : ℕ}
    (hoff : off + 32 * lines = size) :
    ∃ subs, dumpFrom size (lines + 1) (UInt32.ofNat off) = some subs ∧
      (∀ s ∈ subs, s.Inside size) ∧
      ∀ memory : List UInt8, subs.flatMap (fun s => s.bytes memory) =
        (memory.drop off).take (32 * lines) := by
  have htoNat : (UInt32.ofNat off).toNat = off :=
    UInt32.toNat_ofNat_of_lt' (by show off < 2 ^ 32; omega)
  induction lines generalizing off with
  | zero =>
      refine ⟨[], ?_, fun s hs => absurd hs List.not_mem_nil, fun memory => rfl⟩
      rw [dumpFrom, htoNat, if_neg (by omega)]
  | succ lines ih =>
      -- `off` does not wrap, as the next line starts within the span or at its end
      have hnext : UInt32.ofNat off + 32 = UInt32.ofNat (off + 32) := (UInt32.ofNat_add off 32).symm
      obtain ⟨subs, hsubs, hinside, hbytes⟩ := ih (by omega : off + 32 + 32 * lines = size)
        (UInt32.toNat_ofNat_of_lt' (by show off + 32 < 2 ^ 32; omega))
      refine ⟨⟨off, 32⟩ :: subs, ?_, ?_, fun memory => ?_⟩
      · rw [dumpFrom, htoNat, if_pos (by omega), hnext, hsubs, Option.map_some]
      · intro s hs
        rcases List.mem_cons.mp hs with rfl | hs
        · show off + 32 ≤ size
          omega
        · exact hinside s hs
      · rw [List.flatMap_cons, hbytes, SubSpan.bytes, ← List.drop_drop, Nat.mul_succ,
          Nat.add_comm (32 * lines) 32, List.take_add]

/-- In a span that `off` cannot count to the end of, the loop does not end. -/
theorem dumpFrom_eq_none {size : ℕ} (hsize : 2 ^ 32 ≤ size) (fuel : ℕ) (off : UInt32) :
    dumpFrom size fuel off = none := by
  induction fuel generalizing off with
  | zero => rfl
  | succ fuel ih =>
      have hlt : off.toNat < size := off.toNat_lt.trans_le hsize
      rw [dumpFrom, if_pos hlt, ih, Option.map_none]

/-- All lines have `32` bytes. -/
theorem count_of_mem_dumpFrom {size fuel : ℕ} {off : UInt32} {subs : List SubSpan}
    (h : dumpFrom size fuel off = some subs) : ∀ s ∈ subs, s.count = 32 := by
  induction fuel generalizing off subs with
  | zero => cases h
  | succ fuel ih =>
      rw [dumpFrom] at h
      split at h
      · obtain ⟨rest, hrest, rfl⟩ := Option.map_eq_some_iff.mp h
        intro s hs
        rcases List.mem_cons.mp hs with rfl | hs
        · rfl
        · exact ih hrest s hs
      · obtain rfl := Option.some.inj h
        exact fun s hs => absurd hs List.not_mem_nil

/-- Sub-spans of `32` bytes inside a span print a multiple of `32` bytes of it. -/
theorem dvd_length_flatMap {subs : List SubSpan} {memory : List UInt8}
    (hcount : ∀ s ∈ subs, s.count = 32) (hinside : ∀ s ∈ subs, s.Inside memory.length) :
    32 ∣ (subs.flatMap fun s => s.bytes memory).length := by
  induction subs with
  | nil => exact Nat.dvd_zero 32
  | cons s subs ih =>
      have hfits : s.offset + s.count ≤ memory.length := hinside s List.mem_cons_self
      have hs : s.count = 32 := hcount s List.mem_cons_self
      have hlength : (s.bytes memory).length = 32 := by
        rw [SubSpan.bytes, List.length_take, List.length_drop]
        omega
      rw [List.flatMap_cons, List.length_append, hlength]
      exact Nat.dvd_add (Nat.dvd_refl 32) (ih (fun s hs => hcount s (List.mem_cons_of_mem _ hs))
        (fun s hs => hinside s (List.mem_cons_of_mem _ hs)))

/-- What is printed has a multiple of `32` bytes, and it is the span. -/
theorem DumpsExactly.dvd_length {data : List UInt8} (h : Unknown data)
    (hdumps : DumpsExactly data) : 32 ∣ data.length := by
  obtain ⟨fuel, subs, hsubs, hinside, hbytes⟩ := hdumps
  rw [dump, if_pos h] at hsubs
  have hdata := hbytes []
  rw [List.append_nil] at hdata
  have hdvd := dvd_length_flatMap (count_of_mem_dumpFrom hsubs) hinside
  rwa [hdata] at hdvd

/-- Whole lines are printed, with one iteration for each line and one that finds the end. -/
theorem dumpsExactly_of_dvd {data : List UInt8} (h : Unknown data) (hdvd : 32 ∣ data.length)
    (hsize : data.length < 2 ^ 32) : DumpsExactly data := by
  obtain ⟨lines, hlines⟩ := hdvd
  have hoff : 0 + 32 * lines = data.length := (Nat.zero_add _).trans hlines.symm
  obtain ⟨subs, hsubs, hinside, hbytes⟩ := exists_dumpFrom hsize lines hoff
  refine ⟨lines + 1, subs, ?_, hinside, fun beyond => ?_⟩
  · rw [dump, if_pos h]
    exact hsubs
  · rw [hbytes, List.drop_zero, ← hlines, List.take_left]

/-- Data that is dumped is in bounds, as the daemon's reads have it, iff the dump prints just its
bytes. -/
theorem inBounds_iff_dumpsExactly {data : List UInt8} (h : Unknown data)
    (hsize : data.length < 2 ^ 32) : InBounds data ↔ DumpsExactly data := by
  rw [inBounds_iff_of_unknown h]
  exact ⟨fun hdvd => dumpsExactly_of_dvd h hdvd hsize, fun hdumps => hdumps.dvd_length h⟩

/-- For every span that starts with no known id: the dump prints just its bytes iff their number is
a multiple of `32` and `off` can count them. -/
theorem dumpsExactly_iff {data : List UInt8} (h : Unknown data) :
    DumpsExactly data ↔ 32 ∣ data.length ∧ data.length < 2 ^ 32 := by
  constructor
  · intro hdumps
    refine ⟨hdumps.dvd_length h, ?_⟩
    obtain ⟨fuel, subs, hsubs, -⟩ := hdumps
    rw [dump, if_pos h] at hsubs
    by_contra hlarge
    rw [dumpFrom_eq_none (Nat.not_lt.mp hlarge)] at hsubs
    cases hsubs
  · exact fun ⟨hdvd, hsize⟩ => dumpsExactly_of_dvd h hdvd hsize

/-- Two lines of bytes that are no message. -/
theorem dumpsExactly_iff_lines : DumpsExactly (List.replicate 64 83) :=
  (dumpsExactly_iff (by decide)).mpr (by decide)

/-- A single byte: the line that is printed of it has `32` bytes, those behind it included. -/
theorem dumpsExactly_fails :
    dump [83] 2 = some [⟨0, 32⟩] ∧
      SubSpan.bytes ⟨0, 32⟩ ([83] ++ ping) = [83] ++ ping ∧ ¬ DumpsExactly [83] := by
  refine ⟨by decide, by decide, fun hdumps => ?_⟩
  exact absurd (hdumps.dvd_length (by decide)) (by decide)

end EspnowUartDevice
