import EspNowOnLinux.Daemon.HostRun
import EspNowOnLinux.Daemon.MessageLength

/-!
# Runs of the daemon on any stream of bytes

The runs of `HostRun` on bytes that need not be the messages of a device. What a read leads to is
told by the cut of the buffered bytes into complete messages and a rest.

## Main results

* `readHandle_cut`: a read consumes the complete messages and, if the rest starts with no known id,
  the rest as well;
* `neverFull_iff`: the buffer keeps room for another byte, and every read is handled within the
  bounds of the arrays (`InBounds`), iff no read fills the buffer with a single unfinished message,
  completes a packet whose frame does not fit, or drops bytes that are not whole lines of the dump.
-/

open Framing Messages StateMachine

namespace EspnowUartDevice

/-! ## One serial read -/

/-- What is consumed of a rest that starts with no complete message. -/
def dumped (rest : List UInt8) : List (List UInt8) := if Unknown rest then [rest] else []

/-- What is kept of it. -/
def kept (rest : List UInt8) : List UInt8 := if Unknown rest then [] else rest

theorem length_kept_le (rest : List UInt8) : (kept rest).length ≤ rest.length := by
  unfold kept
  split
  · exact Nat.zero_le _
  · exact le_rfl

variable (env : HostEnv)

/-- The loop on data that starts with no complete message. -/
theorem consumeLoop_rest (d : EspnowUartDevice) {fuel : ℕ} {b : ReceivingBuffer (1024 * 4)}
    (hb : b.WellFormed) (hrest : messageLength? b.getData = none)
    (hfuel : b.getData.length < fuel) :
    ∃ b', b.consumeLoop (serialPortReadHandle env false) (fun d b => (d, b)) fuel d =
        some (d, b', dumped b.getData) ∧
      b'.WellFormed ∧ b'.getData = kept b.getData := by
  obtain ⟨fuel, rfl⟩ := Nat.exists_eq_succ_of_ne_zero (by omega : fuel ≠ 0)
  cases hdata : b.getData with
  | nil => exact ⟨b, ReceivingBuffer.consumeLoop_nil (Nat.succ_pos fuel) hdata, hb, hdata⟩
  | cons id tail =>
      have hne : b.getData ≠ [] := hdata ▸ List.cons_ne_nil id tail
      have hsame : (b.writeData b.getData).getData = b.getData := hb.getData_writeData rfl
      by_cases hid : id ∈ knownIds
      -- an unfinished message
      · have hknown : ¬ Unknown (id :: tail) := not_not.mpr hid
        have hr : serialPortReadHandle env false d b.getData = some ⟨-1, d, b.getData⟩ := by
          rw [hdata] at hrest ⊢
          exact handleSerialPacket_unfinished env d hid hrest
        rw [dumped, kept, if_neg hknown, if_neg hknown]
        refine ⟨_, ReceivingBuffer.consumeLoop_incomplete hne hr rfl,
          (hb.writeData _).moveDataToFront, ?_⟩
        rw [(hb.writeData _).getData_moveDataToFront, hsame, hdata]
      -- no message at all
      · have hlen : b.getData.length ≤ 1024 * 4 := b.length_getData_le
        have hr : serialPortReadHandle env false d b.getData =
            some ⟨b.getData.length, d, b.getData⟩ := by
          rw [hdata] at hlen ⊢
          rw [← Bytes.toInt32_of_lt (show (id :: tail).length < 2 ^ 31 by omega)]
          exact handleSerialPacket_unknown env d hid
        have hempty : ((b.writeData b.getData).consume b.getData.length).getData = [] := by
          rw [ReceivingBuffer.getData_consume, hsame, List.drop_length]
        have hunknown : Unknown (id :: tail) := hid
        rw [dumped, kept, if_pos hunknown, if_pos hunknown]
        refine ⟨(b.writeData b.getData).consume b.getData.length, ?_,
          (hb.writeData _).consume (by rw [hsame]), hempty⟩
        rw [ReceivingBuffer.consumeLoop_consumed hr rfl (List.length_pos_of_ne_nil hne) le_rfl,
          ReceivingBuffer.consumeLoop_nil (by rw [hdata, List.length_cons] at hfuel; omega) hempty,
          List.take_length, hdata]
        rfl

/-- A read into the writable space: the complete messages among the buffered bytes are handled, and
the rest is kept at index `0`. -/
theorem readHandle_cut {d : EspnowUartDevice} (hb : d.serialPort.buffer.WellFormed)
    {bytes : List UInt8} (hfits : bytes.length ≤ d.serialPort.buffer.getWritable.length)
    {ms : List (List UInt8)} {rest : List UInt8}
    (hcut : Cut messageLength? (d.serialPort.buffer.getData ++ bytes) ms rest) :
    ∃ buffer, readHandle env d false bytes =
        some ((ms.foldl (afterMessage env) d.readCompleted).rearm buffer, ms ++ dumped rest) ∧
      buffer.WellFormed ∧ buffer.getData = kept rest ∧ buffer.readIndex = 0 := by
  have hfilled := hb.fill_commit hfits
  have hdata := hb.getData_fill_commit hfits
  rw [← hdata] at hcut
  obtain ⟨b₁, fuel, hmessages, hb₁, hrest₁, hfuel⟩ := ReceivingBuffer.consumeLoop_messages
    (fun d b => (d, b)) (takes_handleSerialPacket env) selfDelimiting_messageLength?
    d.readCompleted hfilled hcut (Nat.lt_succ_self _)
  obtain ⟨b₂, hloop, hb₂, hkept⟩ := consumeLoop_rest env (ms.foldl (afterMessage env)
    d.readCompleted) hb₁ (hrest₁ ▸ hcut.rest_eq) (hrest₁ ▸ hfuel)
  rw [hrest₁] at hloop hkept
  refine ⟨b₂.moveDataToFront, ?_, hb₂.moveDataToFront, ?_,
    ReceivingBuffer.readIndex_moveDataToFront b₂⟩
  · rw [readHandle, if_neg Bool.false_ne_true]
    simp only [readInto, hmessages, hloop]
    rfl
  · rw [hb₂.getData_moveDataToFront, hkept]

/-- All that is consumed of the data is in bounds: the frames of the complete messages fit, and a
rest that is dropped is whole lines of the dump. -/
def ConsumesInBounds (data : List UInt8) : Prop :=
  ∀ ms rest, Cut messageLength? data ms rest → ∀ span ∈ ms ++ dumped rest, InBounds span

theorem consumesInBounds_iff {data rest : List UInt8} {ms : List (List UInt8)}
    (hcut : Cut messageLength? data ms rest) :
    ConsumesInBounds data ↔ ∀ span ∈ ms ++ dumped rest, InBounds span := by
  refine ⟨fun h => h ms rest hcut, fun h ms' rest' hcut' => ?_⟩
  obtain ⟨rfl, rfl⟩ := hcut.unique selfDelimiting_messageLength? hcut'
  exact h

/-- A read is handled iff what it consumes is in bounds. -/
theorem isSome_readHandleInBounds_iff {d : EspnowUartDevice}
    (hb : d.serialPort.buffer.WellFormed) {bytes : List UInt8}
    (hfits : bytes.length ≤ d.serialPort.buffer.getWritable.length) :
    (readHandleInBounds env d bytes).isSome ↔
      ConsumesInBounds (d.serialPort.buffer.getData ++ bytes) := by
  obtain ⟨ms, rest, hcut⟩ :=
    selfDelimiting_messageLength?.exists_cut (d.serialPort.buffer.getData ++ bytes)
  obtain ⟨buffer, hread, -⟩ := readHandle_cut env hb hfits hcut
  rw [consumesInBounds_iff hcut, Option.isSome_iff_exists]
  constructor
  · rintro ⟨r, hr⟩
    obtain ⟨hr, hbounds⟩ := readHandleInBounds_eq_some.mp hr
    obtain rfl := Option.some.inj (hread.symm.trans hr)
    exact hbounds
  · exact fun hbounds => ⟨_, readHandleInBounds_eq_some.mpr ⟨hread, hbounds⟩⟩

end EspnowUartDevice

namespace HostRun

open EspnowUartDevice

variable {env : HostEnv} {bytes : List UInt8}

/-! ## Whole runs -/

/-- A new device object that has received nothing. -/
def fresh (contents : List.Vector UInt8 (1024 * 4)) (id : String) (details : DeviceDetails)
    (tunFdBuffer : List.Vector UInt8 512) : HostRun :=
  start (.new (.new contents) id details tunFdBuffer)

/-- The port between two calls of `read_handle`: the data starts at index `0`, and a read into the
rest of the buffer is outstanding. -/
structure Ready (port : SerialPortSocket) : Prop where
  wellFormed : port.buffer.WellFormed
  readIndex_eq : port.buffer.readIndex = 0
  readRequest_eq : port.readRequest = some port.buffer.getWritable.length

/-- The bytes that are buffered once the next `count` bytes of the stream have arrived. -/
def buffered (bytes : List UInt8) (s : HostRun) (count : ℕ) : List UInt8 :=
  s.device.serialPort.buffer.getData ++ (bytes.drop s.received).take count

/-- The bytes of a read that can complete fit in the writable space. -/
theorem Ready.length_le {s : HostRun} (h : Ready s.device.serialPort) {count : ℕ}
    (hcan : CanRead bytes s count) : ((bytes.drop s.received).take count).length ≤
      s.device.serialPort.buffer.getWritable.length := by
  obtain ⟨⟨size, hsize, hcount⟩, hreceived⟩ := hcan
  rw [h.readRequest_eq, Option.some.injEq] at hsize
  rw [List.length_take, List.length_drop]
  omega

/-- A read that has been handled has been handled as the cut of the buffered bytes says. -/
theorem Ready.serialRead {s t : HostRun} (h : Ready s.device.serialPort) {count : ℕ}
    (ht : step env bytes s (.serialRead count) = some t) {ms : List (List UInt8)}
    {rest : List UInt8} (hcut : Cut messageLength? (buffered bytes s count) ms rest) :
    ∃ buffer : ReceivingBuffer (1024 * 4),
      t = ⟨(ms.foldl (afterMessage env) s.device.readCompleted).rearm buffer,
        s.received + count, s.handled ++ (ms ++ dumped rest)⟩ ∧
      buffer.WellFormed ∧ buffer.getData = kept rest ∧ buffer.readIndex = 0 := by
  rw [step, Option.ite_none_right_eq_some] at ht
  obtain ⟨hcan, ht⟩ := ht
  obtain ⟨r, hr, rfl⟩ := Option.map_eq_some_iff.mp ht
  obtain ⟨buffer, hread, hbuffer⟩ := readHandle_cut env h.wellFormed (h.length_le hcan) hcut
  obtain rfl := Option.some.inj (hread.symm.trans (readHandleInBounds_eq_some.mp hr).1)
  exact ⟨buffer, rfl, hbuffer⟩

/-- A read that can complete is handled iff what it consumes is in bounds. -/
theorem Ready.isSome_serialRead_iff (env : HostEnv) {s : HostRun} (h : Ready s.device.serialPort)
    {count : ℕ} (hcan : CanRead bytes s count) :
    (step env bytes s (.serialRead count)).isSome ↔
      ConsumesInBounds (buffered bytes s count) := by
  rw [step, if_pos hcan, Option.isSome_map]
  exact isSome_readHandleInBounds_iff env h.wellFormed (h.length_le hcan)

/-- No other event touches the receiving side of the port. -/
theorem step_other {s t : HostRun} {e : HostEvent} (he : ∀ count, e ≠ .serialRead count)
    (ht : step env bytes s e = some t) :
    t.received = s.received ∧ t.handled = s.handled ∧
      t.device.serialPort.buffer = s.device.serialPort.buffer ∧
      t.device.serialPort.readRequest = s.device.serialPort.readRequest := by
  rcases step_cases ht with ⟨count, r, hread, -⟩ | ⟨frame, d, -, -, hd, rfl⟩ |
    ⟨port, -, hport, rfl⟩ | ⟨d, -, hd, rfl⟩
  · exact absurd hread (he count)
  · rcases tunReadHandle_cases hd with ⟨_, rfl⟩ | ⟨_, _, _, _, _, rfl⟩
    · exact ⟨rfl, rfl, rfl, rfl⟩
    · exact ⟨rfl, rfl, rfl, rfl⟩
  · obtain ⟨q, -, rfl⟩ := SerialPortSocket.writeCompleted_cases hport
    exact ⟨rfl, rfl, rfl, rfl⟩
  · obtain ⟨q, -, rfl⟩ := tunWriteCompleted_cases hd
    exact ⟨rfl, rfl, rfl, rfl⟩

/-- A step that takes a read has found that it can complete. -/
theorem canRead_of_step {s t : HostRun} {count : ℕ}
    (ht : step env bytes s (.serialRead count) = some t) : CanRead bytes s count := by
  rw [step, Option.ite_none_right_eq_some] at ht
  exact ht.1

/-- Every event leaves the port ready for the next read. -/
theorem ready_step (s : HostRun) (e : HostEvent) (t : HostRun) (h : Ready s.device.serialPort)
    (ht : step env bytes s e = some t) : Ready t.device.serialPort := by
  by_cases he : ∃ count, e = .serialRead count
  · obtain ⟨count, rfl⟩ := he
    obtain ⟨ms, rest, hcut⟩ :=
      selfDelimiting_messageLength?.exists_cut (buffered bytes s count)
    obtain ⟨buffer, rfl, hwf, -, hindex⟩ := h.serialRead ht hcut
    exact ⟨hwf, hindex, rfl⟩
  · obtain ⟨-, -, hbuffer, hrequest⟩ := step_other (fun count hcount => he ⟨count, hcount⟩) ht
    exact ⟨hbuffer ▸ h.wellFormed, hbuffer ▸ h.readIndex_eq,
      by rw [hrequest, hbuffer, h.readRequest_eq]⟩

/-! ## Room in the buffer -/

/-- There is room for another byte, and the outstanding read asks for at least one. -/
def HasRoom (s : HostRun) : Prop :=
  s.device.serialPort.buffer.getWritable ≠ [] ∧ s.device.serialPort.readRequest ≠ some 0

/-- The data is the start of a message with a known id, and it is not complete: no newline yet, or
an announced length that is longer. -/
def Unfinished (data : List UInt8) : Prop :=
  (∃ id tail, data = id :: tail ∧ id ∈ knownIds) ∧
    ∀ n, announcedLength? data = some n → data.length < n

/-- The read does not fill the buffer to its end with one unfinished message. -/
def LeavesRoom (bytes : List UInt8) (s : HostRun) : HostEvent → Prop
  | .serialRead count =>
      ¬ (count = s.device.serialPort.buffer.getWritable.length ∧
        Unfinished (buffered bytes s count))
  | _ => True

theorem Ready.length_getWritable {port : SerialPortSocket} (h : Ready port) :
    port.buffer.getWritable.length = 1024 * 4 - port.buffer.getData.length := by
  rw [ReceivingBuffer.length_getWritable, h.wellFormed.writeIndex_eq h.readIndex_eq]

/-- An unfinished message is kept as it is. -/
theorem Unfinished.cut {data : List UInt8} (h : Unfinished data) :
    Cut messageLength? data [] data ∧ kept data = data := by
  obtain ⟨⟨id, tail, rfl, hid⟩, hlong⟩ := h
  refine ⟨cut_of_none ?_, if_neg (not_not.mpr hid)⟩
  by_contra hsome
  obtain ⟨n, hn⟩ := Option.ne_none_iff_exists'.mp hsome
  obtain ⟨hannounced, hle⟩ := messageLength?_eq_some.mp hn
  exact absurd (hlong n hannounced) (Nat.not_lt.mpr hle)

/-- Nothing of it is consumed. -/
theorem Unfinished.consumesInBounds {data : List UInt8} (h : Unfinished data) :
    ConsumesInBounds data := by
  obtain ⟨hcut, -⟩ := h.cut
  obtain ⟨⟨id, tail, rfl, hid⟩, -⟩ := h
  have hknown : ¬ Unknown (id :: tail) := not_not.mpr hid
  refine (consumesInBounds_iff hcut).mpr fun span hspan => ?_
  rw [dumped, if_neg hknown] at hspan
  exact absurd hspan List.not_mem_nil

/-- Where all of the data is kept, it is one unfinished message. -/
theorem unfinished_of_kept {data rest : List UInt8} {ms : List (List UInt8)}
    (hcut : Cut messageLength? data ms rest) (hne : data ≠ [])
    (hkept : data.length ≤ (kept rest).length) : Unfinished data := by
  have hle := length_kept_le rest
  obtain rfl : ms = [] := by
    by_contra hms
    have hlt := hcut.length_rest_lt selfDelimiting_messageLength? hms
    omega
  obtain rfl : rest = data := hcut.flatten_append
  obtain ⟨id, tail, rfl⟩ := List.exists_cons_of_ne_nil hne
  refine ⟨⟨id, tail, rfl, ?_⟩, fun n hn => ?_⟩
  · by_contra hid
    have hunknown : Unknown (id :: tail) := hid
    rw [kept, if_pos hunknown] at hkept
    exact absurd hkept (by simp)
  · by_contra hlong
    have hnone := hcut.rest_eq
    rw [messageLength?_eq_some.mpr ⟨hn, Nat.not_lt.mp hlong⟩] at hnone
    cases hnone

theorem hasRoom_iff {s : HostRun} (h : Ready s.device.serialPort) :
    HasRoom s ↔ s.device.serialPort.buffer.getData.length < 1024 * 4 := by
  rw [HasRoom, h.readRequest_eq, ← List.length_pos_iff, h.length_getWritable, ne_eq,
    Option.some.injEq]
  omega

/-- A read leaves room iff it does not fill the buffer with one unfinished message. -/
theorem hasRoom_read {s t : HostRun} {count : ℕ} (h : Ready s.device.serialPort)
    (ht : step env bytes s (.serialRead count) = some t) :
    HasRoom t ↔ LeavesRoom bytes s (.serialRead count) := by
  have hready := ready_step s _ t h ht
  have hcan := canRead_of_step ht
  obtain ⟨⟨size, hsize, hcount⟩, hreceived⟩ := id hcan
  rw [h.readRequest_eq, Option.some.injEq] at hsize
  rw [← hsize, h.length_getWritable] at hcount
  have hdata := s.device.serialPort.buffer.length_getData_le
  have hlen : (buffered bytes s count).length =
      s.device.serialPort.buffer.getData.length + count := by
    rw [buffered, List.length_append, List.length_take, List.length_drop]; omega
  obtain ⟨ms, rest, hcut⟩ := selfDelimiting_messageLength?.exists_cut (buffered bytes s count)
  obtain ⟨buffer, rfl, -, hkept, -⟩ := h.serialRead ht hcut
  rw [hasRoom_iff hready, LeavesRoom, h.length_getWritable]
  show buffer.getData.length < _ ↔ _
  rw [hkept]
  constructor
  · rintro hlt ⟨hfull, hunfinished⟩
    obtain ⟨hcut', hall⟩ := hunfinished.cut
    obtain ⟨-, rfl⟩ := hcut.unique selfDelimiting_messageLength? hcut'
    rw [hall] at hlt
    omega
  · intro hleaves
    by_contra hfull
    -- all of the data is kept, and it fills the buffer
    have hle := length_kept_le rest
    have hrest := congrArg List.length hcut.flatten_append
    rw [List.length_append] at hrest
    refine hleaves ⟨by omega, unfinished_of_kept hcut ?_ (by omega)⟩
    exact List.ne_nil_of_length_pos (by omega)

theorem ready_fresh (contents : List.Vector UInt8 (1024 * 4)) (id : String)
    (details : DeviceDetails) (tunFdBuffer : List.Vector UInt8 512) :
    Ready (fresh contents id details tunFdBuffer).device.serialPort :=
  ⟨ReceivingBuffer.wellFormed_new contents, rfl, rfl⟩

theorem hasRoom_fresh (contents : List.Vector UInt8 (1024 * 4)) (id : String)
    (details : DeviceDetails) (tunFdBuffer : List.Vector UInt8 512) :
    HasRoom (fresh contents id details tunFdBuffer) :=
  (hasRoom_iff (ready_fresh contents id details tunFdBuffer)).mpr (show 0 < 1024 * 4 by decide)

/-- A step that leaves room keeps the invariant. -/
theorem room_step (s : HostRun) (e : HostEvent) (t : HostRun)
    (h : Ready s.device.serialPort ∧ HasRoom s) (hleaves : LeavesRoom bytes s e)
    (ht : step env bytes s e = some t) : Ready t.device.serialPort ∧ HasRoom t := by
  obtain ⟨hready, hroom⟩ := h
  refine ⟨ready_step s e t hready ht, ?_⟩
  by_cases he : ∃ count, e = .serialRead count
  · obtain ⟨count, rfl⟩ := he
    exact (hasRoom_read hready ht).mpr hleaves
  · obtain ⟨-, -, hbuffer, hrequest⟩ := step_other (fun count hcount => he ⟨count, hcount⟩) ht
    rw [HasRoom, hbuffer, hrequest]
    exact hroom

/-- A step after which there is room has left room. -/
theorem leavesRoom_of_hasRoom (s : HostRun) (e : HostEvent) (t : HostRun)
    (h : Ready s.device.serialPort) (ht : step env bytes s e = some t) (hroom : HasRoom t) :
    LeavesRoom bytes s e := by
  cases e with
  | serialRead count => exact (hasRoom_read h ht).mp hroom
  | tunRead frame => trivial
  | serialWritten => trivial
  | tunWritten => trivial

/-- A read that can complete is handled: no frame is assembled past its array, and no dump leaves
its data. -/
def Handled (env : HostEnv) (bytes : List UInt8) (s : HostRun) : HostEvent → Prop
  | .serialRead count =>
      CanRead bytes s count → (step env bytes s (.serialRead count)).isSome
  | _ => True

/-- What a read that can complete consumes is in bounds. -/
def ReadsInBounds (bytes : List UInt8) (s : HostRun) : HostEvent → Prop
  | .serialRead count => CanRead bytes s count → ConsumesInBounds (buffered bytes s count)
  | _ => True

theorem handled_iff (env : HostEnv) {s : HostRun} (h : Ready s.device.serialPort) (e : HostEvent) :
    Handled env bytes s e ↔ ReadsInBounds bytes s e := by
  cases e with
  | serialRead count => exact forall_congr' fun hcan => h.isSome_serialRead_iff env hcan
  | tunRead frame => rfl
  | serialWritten => rfl
  | tunWritten => rfl

/-- Whatever arrives: along every run each read that can complete is handled, there is room in the
buffer and the outstanding read asks for at least one byte, iff what each read consumes is in bounds
and no read fills the buffer with one unfinished message. -/
theorem neverFull_iff (env : HostEnv) (bytes : List UInt8)
    (contents : List.Vector UInt8 (1024 * 4)) (id : String) (details : DeviceDetails)
    (tunFdBuffer : List.Vector UInt8 512) (es : List HostEvent) :
    EachEvent (step env bytes) (Handled env bytes) (fresh contents id details tunFdBuffer) es ∧
        Always (step env bytes) HasRoom (fresh contents id details tunFdBuffer) es ↔
      EachEvent (step env bytes) (ReadsInBounds bytes) (fresh contents id details tunFdBuffer) es ∧
        EachStep (step env bytes) (LeavesRoom bytes) (fresh contents id details tunFdBuffer)
          es := by
  have hfresh := ready_fresh contents id details tunFdBuffer
  refine and_congr ?_ ?_
  · exact eachEvent_congr ready_step (fun s e h => handled_iff env h e) hfresh es
  · exact always_iff_eachStep (fun s => Ready s.device.serialPort ∧ HasRoom s) room_step
      (fun _ h => h.2) (fun s e t h ht hroom => leavesRoom_of_hasRoom s e t h.1 ht hroom)
      ⟨hfresh, hasRoom_fresh contents id details tunFdBuffer⟩ es

/-- A log line of 4096 bytes without a newline, in one read: the next read is one of no bytes. -/
theorem neverFull_fails :
    let bytes := MessageId.logInfo :: List.replicate 4095 65
    ¬ Always (step ⟨.little, fun _ => []⟩ bytes) HasRoom
      (fresh (.replicate _ 0) "espnow0" ⟨[], .replicate 6 0, 0, ⟨0, 0, 0⟩⟩ (.replicate _ 0))
      [.serialRead 4096] := by
  intro bytes h
  let s := fresh (.replicate _ 0) "espnow0" ⟨[], .replicate 6 0, 0, ⟨0, 0, 0⟩⟩ (.replicate _ 0)
  have hready : Ready s.device.serialPort := ready_fresh ..
  have hlen : bytes.length = 4096 := by
    rw [List.length_cons, List.length_replicate]
  have hwritable : s.device.serialPort.buffer.getWritable.length = 4096 := by
    rw [hready.length_getWritable]
    rfl
  have hcan : CanRead bytes s 4096 :=
    ⟨⟨_, hready.readRequest_eq, hwritable.ge⟩, by rw [hlen]; exact le_rfl⟩
  -- the line is all that is buffered, and it has no newline
  have hbuffered : buffered bytes s 4096 = bytes := List.take_of_length_le hlen.le
  have hunfinished : Unfinished bytes := by
    refine ⟨⟨_, _, rfl, by decide⟩, fun n hn => ?_⟩
    have hnone : (List.replicate 4095 (65 : UInt8)).findIdx? (· = 10) = none := by
      rw [List.findIdx?_eq_none_iff]
      intro b hb
      rw [List.eq_of_mem_replicate hb]
      rfl
    rw [announcedLength?_logInfo, hnone] at hn
    cases hn
  have hsome : (step ⟨.little, fun _ => []⟩ bytes s (.serialRead 4096)).isSome := by
    rw [hready.isSome_serialRead_iff _ hcan, hbuffered]
    exact hunfinished.consumesInBounds
  obtain ⟨t, ht⟩ := Option.isSome_iff_exists.mp hsome
  have hleaves := leavesRoom_of_hasRoom s _ t hready ht (h.2 t ht)
  exact hleaves ⟨hwritable.symm, hbuffered.symm ▸ hunfinished⟩

end HostRun
