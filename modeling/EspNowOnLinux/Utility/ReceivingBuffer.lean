import EspNowOnLinux.Lib.Bytes
import EspNowOnLinux.Lib.SelfDelimiting
import Mathlib.Data.Vector.Basic

/-!
# The receiving buffer and the loop that empties it

`ReceivingBuffer` is `receiving_buffer<capacity>` of `utility/receiving_buffer.hpp`: an array with a
read and a write index. `consumeLoop` is the inner loop of its two users,
`serial_port_socket::read_handle` on the host and `jtag_receive_task` on the device, which differ
only in the handler they call and in what they do when it returns `0`.

## Main results

* `getData_fill_commit`, `getData_consume`, `getData_moveDataToFront`: the operations in terms of
  the buffered data;
* `consumeLoop_stream`: on data that is a prefix of a stream of messages the loop delivers exactly
  the complete messages and leaves exactly the tail, at the front of the array if it is not empty;
* `consumeLoop_read`: the same for a read of some bytes into a buffer that holds a tail;
* `consumeLoop_messages`: on any data at all the loop takes the complete messages off the front.
-/

open Bytes Framing

/-- `receiving_buffer<capacity>`. The array is not initialised by the source, so any contents of the
right length are possible. -/
structure ReceivingBuffer (capacity : ℕ) where
  /-- The array. -/
  buffer : List UInt8
  /-- Where the data starts. -/
  readIndex : ℕ
  /-- Where the data ends and the writable space starts. -/
  writeIndex : ℕ
  /-- The array has its declared length. -/
  length_buffer : buffer.length = capacity
  deriving DecidableEq

namespace ReceivingBuffer

variable {capacity : ℕ}

/-- A new buffer whose array happens to hold `contents`. -/
def new (contents : List.Vector UInt8 capacity) : ReceivingBuffer capacity :=
  ⟨contents.toList, 0, 0, contents.toList_length⟩

/-- The contents of the writable span. -/
def getWritable (b : ReceivingBuffer capacity) : List UInt8 := b.buffer.drop b.writeIndex

/-- The contents of the data span. -/
def getData (b : ReceivingBuffer capacity) : List UInt8 :=
  (b.buffer.drop b.readIndex).take (b.writeIndex - b.readIndex)

def commit (b : ReceivingBuffer capacity) (amount : ℕ) : ReceivingBuffer capacity :=
  { b with writeIndex := b.writeIndex + amount }

def consume (b : ReceivingBuffer capacity) (amount : ℕ) : ReceivingBuffer capacity :=
  { b with readIndex := b.readIndex + amount }

def reset (b : ReceivingBuffer capacity) : ReceivingBuffer capacity :=
  { b with readIndex := 0, writeIndex := 0 }

/-- Move the data to index `0`. What is behind it keeps its old bytes. -/
def moveDataToFront (b : ReceivingBuffer capacity) : ReceivingBuffer capacity :=
  if 0 < b.readIndex then
    { buffer := overwrite b.buffer 0 b.getData
      readIndex := 0
      writeIndex := b.writeIndex - b.readIndex
      length_buffer := by rw [length_overwrite, b.length_buffer] }
  else b

/-- A caller writes `bytes` to the start of the writable span. -/
def fill (b : ReceivingBuffer capacity) (bytes : List UInt8) : ReceivingBuffer capacity :=
  { b with
    buffer := overwrite b.buffer b.writeIndex bytes
    length_buffer := by rw [length_overwrite, b.length_buffer] }

/-- A caller writes `data` through the data span. -/
def writeData (b : ReceivingBuffer capacity) (data : List UInt8) : ReceivingBuffer capacity :=
  { b with
    buffer := overwrite b.buffer b.readIndex data
    length_buffer := by rw [length_overwrite, b.length_buffer] }

/-- The indices are in order and within the array. -/
structure WellFormed (b : ReceivingBuffer capacity) : Prop where
  /-- The data does not end before it starts. -/
  read_le : b.readIndex ≤ b.writeIndex
  /-- The data lies within the array. -/
  write_le : b.writeIndex ≤ capacity

theorem wellFormed_new (contents : List.Vector UInt8 capacity) : (new contents).WellFormed :=
  ⟨le_rfl, Nat.zero_le _⟩

@[simp]
theorem length_getWritable (b : ReceivingBuffer capacity) :
    b.getWritable.length = capacity - b.writeIndex := by
  rw [getWritable, List.length_drop, b.length_buffer]

theorem WellFormed.length_getData {b : ReceivingBuffer capacity} (h : b.WellFormed) :
    b.getData.length = b.writeIndex - b.readIndex := by
  have hread := h.read_le
  have hwrite := h.write_le
  rw [getData, List.length_take, List.length_drop, b.length_buffer]
  omega

theorem length_getData_le (b : ReceivingBuffer capacity) : b.getData.length ≤ capacity := by
  rw [getData, List.length_take, List.length_drop, b.length_buffer]
  omega

/-- Bytes that fit in the writable span, once committed, extend the data. -/
theorem WellFormed.fill_commit {b : ReceivingBuffer capacity} (h : b.WellFormed)
    {bytes : List UInt8} (hfits : bytes.length ≤ b.getWritable.length) :
    ((b.fill bytes).commit bytes.length).WellFormed := by
  have hread := h.read_le
  have hwrite := h.write_le
  rw [length_getWritable] at hfits
  exact ⟨by simp only [commit, fill]; omega, by simp only [commit, fill]; omega⟩

theorem WellFormed.getData_fill_commit {b : ReceivingBuffer capacity} (h : b.WellFormed)
    {bytes : List UInt8} (hfits : bytes.length ≤ b.getWritable.length) :
    ((b.fill bytes).commit bytes.length).getData = b.getData ++ bytes := by
  have hread := h.read_le
  have hwrite := h.write_le
  have hlen := b.length_buffer
  rw [length_getWritable] at hfits
  have hold : (b.buffer.take b.writeIndex).length = b.writeIndex := by
    rw [List.length_take]; omega
  -- the array is now the old data with what preceded it, the new bytes and a rest
  simp only [getData, commit, fill]
  rw [overwrite_of_fits (by omega : b.writeIndex + bytes.length ≤ b.buffer.length),
    List.append_assoc, List.drop_append_of_le_length (by omega), List.drop_take, List.take_append,
    List.take_of_length_le (by rw [List.length_take, List.length_drop]; omega),
    List.length_take, List.length_drop]
  congr 1
  rw [show b.writeIndex + bytes.length - b.readIndex -
      min (b.writeIndex - b.readIndex) (b.buffer.length - b.readIndex) = bytes.length by omega,
    List.take_left]

theorem WellFormed.consume {b : ReceivingBuffer capacity} (h : b.WellFormed) {amount : ℕ}
    (hle : amount ≤ b.getData.length) : (b.consume amount).WellFormed := by
  have hread := h.read_le
  rw [h.length_getData] at hle
  exact ⟨by simp only [ReceivingBuffer.consume]; omega, h.write_le⟩

/-- Consuming removes bytes from the front of the data. -/
theorem getData_consume (b : ReceivingBuffer capacity) (amount : ℕ) :
    (b.consume amount).getData = b.getData.drop amount := by
  simp only [getData, consume]
  rw [List.drop_take, List.drop_drop, Nat.sub_sub]

theorem WellFormed.moveDataToFront {b : ReceivingBuffer capacity} (h : b.WellFormed) :
    b.moveDataToFront.WellFormed := by
  have hread := h.read_le
  have hwrite := h.write_le
  unfold ReceivingBuffer.moveDataToFront
  split
  · exact ⟨Nat.zero_le _, by simp only; omega⟩
  · exact h

@[simp]
theorem readIndex_moveDataToFront (b : ReceivingBuffer capacity) :
    b.moveDataToFront.readIndex = 0 := by
  unfold moveDataToFront
  split
  · rfl
  · omega

/-- Moving the data to the front keeps it. -/
theorem WellFormed.getData_moveDataToFront {b : ReceivingBuffer capacity} (h : b.WellFormed) :
    b.moveDataToFront.getData = b.getData := by
  have hread := h.read_le
  have hwrite := h.write_le
  have hlen := b.length_buffer
  have hdata := h.length_getData
  unfold ReceivingBuffer.moveDataToFront
  split
  · rw [getData]
    simp only [List.drop_zero, Nat.sub_zero]
    rw [overwrite_of_fits (by omega : 0 + b.getData.length ≤ b.buffer.length), List.take_zero,
      List.nil_append, ← hdata, List.take_left]
  · rfl

/-- Data that starts at index `0` ends where it is long. -/
theorem WellFormed.writeIndex_eq {b : ReceivingBuffer capacity} (h : b.WellFormed)
    (hread : b.readIndex = 0) : b.writeIndex = b.getData.length := by
  rw [h.length_getData, hread, Nat.sub_zero]

theorem WellFormed.writeData {b : ReceivingBuffer capacity} (h : b.WellFormed)
    (data : List UInt8) : (b.writeData data).WellFormed := ⟨h.read_le, h.write_le⟩

/-- What was written through the data span is the data. -/
theorem WellFormed.getData_writeData {b : ReceivingBuffer capacity} (h : b.WellFormed)
    {data : List UInt8} (hlen : data.length = b.getData.length) :
    (b.writeData data).getData = data := by
  have hread := h.read_le
  have hwrite := h.write_le
  have hbuf := b.length_buffer
  rw [h.length_getData] at hlen
  simp only [getData, ReceivingBuffer.writeData]
  rw [drop_overwrite (by omega : b.readIndex + data.length ≤ b.buffer.length), ← hlen,
    List.take_left]

/-! ## The loop -/

section Loop

variable {σ μ : Type*}

/-- `while(!data.empty())` of `read_handle` and `jtag_receive_task`: call the handler on the data;
on `-1` move the data to the front and leave the loop, on `0` do `onZero` and leave it, otherwise
consume what the handler reports. The last component lists the spans that were consumed.

`none` is a run without an end (no fuel left) or undefined behaviour: of the handler, or a count
outside the data, which as an unsigned amount would move `read_index` past `write_index`. -/
def consumeLoop (handle : σ → List UInt8 → Option (Reply σ UInt8))
    (onZero : σ → ReceivingBuffer capacity → σ × ReceivingBuffer capacity) :
    ℕ → σ → ReceivingBuffer capacity →
      Option (σ × ReceivingBuffer capacity × List (List UInt8))
  | 0, _, _ => none
  | fuel + 1, s, b =>
      if b.getData = [] then some (s, b, [])
      else
        (handle s b.getData).bind fun r =>
          -- the handler is given the span and may write through it
          let b' := b.writeData r.data
          if r.ret = -1 then some (r.state, b'.moveDataToFront, [])
          else if r.ret = 0 then
            let z := onZero r.state b'
            some (z.1, z.2, [])
          else if r.ret < 0 ∨ (b.getData.length : ℤ) < r.ret then none
          else
            (consumeLoop handle onZero fuel r.state (b'.consume r.ret.toNat)).map fun t =>
              (t.1, t.2.1, b.getData.take r.ret.toNat :: t.2.2)

variable {handle : σ → List UInt8 → Option (Reply σ UInt8)}
  {onZero : σ → ReceivingBuffer capacity → σ × ReceivingBuffer capacity}

/-- Without data the loop does nothing. -/
theorem consumeLoop_nil {fuel : ℕ} {s : σ} {b : ReceivingBuffer capacity} (hfuel : 0 < fuel)
    (hdata : b.getData = []) : consumeLoop handle onZero fuel s b = some (s, b, []) := by
  obtain ⟨fuel, rfl⟩ := Nat.exists_eq_succ_of_ne_zero hfuel.ne'
  rw [consumeLoop, if_pos hdata]

/-- An incomplete message ends the loop with the data at the front. -/
theorem consumeLoop_incomplete {fuel : ℕ} {s : σ} {b : ReceivingBuffer capacity} {r : Reply σ UInt8}
    (hdata : b.getData ≠ []) (hr : handle s b.getData = some r) (hret : r.ret = -1) :
    consumeLoop handle onZero (fuel + 1) s b =
      some (r.state, (b.writeData r.data).moveDataToFront, []) := by
  rw [consumeLoop, if_neg hdata, hr, Option.bind_some, if_pos hret]

/-- A handled message is consumed and the loop goes on. -/
theorem consumeLoop_consumed {fuel n : ℕ} {s : σ} {b : ReceivingBuffer capacity}
    {r : Reply σ UInt8} (hr : handle s b.getData = some r) (hret : r.ret = n) (hn : 0 < n)
    (hle : n ≤ b.getData.length) :
    consumeLoop handle onZero (fuel + 1) s b =
      (consumeLoop handle onZero fuel r.state ((b.writeData r.data).consume n)).map fun t =>
        (t.1, t.2.1, b.getData.take n :: t.2.2) := by
  have hdata : b.getData ≠ [] := List.ne_nil_of_length_pos (by omega)
  rw [consumeLoop, if_neg hdata, hr, Option.bind_some]
  simp only [hret, Int.toNat_natCast]
  rw [if_neg (by omega), if_neg (by omega), if_neg (by omega)]

/-- What the handler preserves, and what happens where it answers `0` preserves, the loop does. -/
theorem consumeLoop_invariant {P : σ → Prop}
    (hhandle : ∀ s data r, P s → handle s data = some r → P r.state)
    (hzero : ∀ s b, P s → P (onZero s b).1) {fuel : ℕ} {s : σ} {b : ReceivingBuffer capacity}
    {t : σ × ReceivingBuffer capacity × List (List UInt8)} (hs : P s)
    (ht : consumeLoop handle onZero fuel s b = some t) : P t.1 := by
  induction fuel generalizing s b t with
  | zero => cases ht
  | succ fuel ih =>
      rw [consumeLoop] at ht
      split at ht
      · exact Option.some.inj ht ▸ hs
      obtain ⟨r, hr, ht⟩ := Option.bind_eq_some_iff.mp ht
      have hstate : P r.state := hhandle s _ r hs hr
      simp only at ht
      split at ht
      · exact Option.some.inj ht ▸ hstate
      split at ht
      · exact Option.some.inj ht ▸ hzero _ _ hstate
      split at ht
      · cases ht
      · obtain ⟨u, hu, rfl⟩ := Option.map_eq_some_iff.mp ht
        have hrest : P u.1 := ih hstate hu
        exact hrest

/-- For a handler that is only given data that meets `P`, where this is told by the part of the data
that is consumed: the loop is as with any data, as long as all that is consumed meets `P`. -/
theorem consumeLoop_guarded {P : List UInt8 → Prop} [DecidablePred P] (hnil : P [])
    (hspan : ∀ s data r, data.length ≤ capacity → handle s data = some r →
      (P (data.take r.ret.toNat) ↔ P data)) {fuel : ℕ} {s : σ} {b : ReceivingBuffer capacity} :
    consumeLoop (fun s data => if P data then handle s data else none) onZero fuel s b =
      (consumeLoop handle onZero fuel s b).filter fun t => ∀ span ∈ t.2.2, P span := by
  induction fuel generalizing s b with
  | zero => rfl
  | succ fuel ih =>
      rw [consumeLoop, consumeLoop]
      split
      -- no span is consumed
      · rfl
      cases hr : handle s b.getData with
      | none => split <;> rfl
      | some r =>
          have hP := hspan s b.getData r b.length_getData_le hr
          -- where the handler consumes nothing, it could be given the data
          have hnone (hret : r.ret ≤ 0) : P b.getData := by
            rwa [Int.toNat_of_nonpos hret, List.take_zero, iff_true_left hnil] at hP
          rw [Option.bind_some]
          by_cases hdata : P b.getData
          · rw [if_pos hdata, Option.bind_some]
            simp only
            split
            · rfl
            split
            · rfl
            split
            · rfl
            · rw [ih, Option.filter_map]
              simp [Function.comp_def, hP.mpr hdata]
          · rw [if_neg hdata, Option.bind_none]
            simp only
            rw [if_neg fun h => hdata (hnone (by omega)), if_neg fun h => hdata (hnone h.le)]
            split
            · rfl
            -- the span that is consumed does not meet `P`
            · rw [Option.filter_map]
              simp [Function.comp_def, mt hP.mp hdata]

variable {encode : μ → List UInt8} {deliver : σ → μ → σ} {Valid : μ → Prop}

/-- A strict prefix of a message ends the loop, with the bytes moved to the front. -/
theorem consumeLoop_waits (H : Handles handle encode deliver Valid capacity) {m : μ} (hm : Valid m)
    {fuel : ℕ} {s : σ} {b : ReceivingBuffer capacity} (hb : b.WellFormed) (hdata : b.getData ≠ [])
    (hpre : b.getData <+: encode m) (hlt : b.getData.length < (encode m).length) :
    ∃ b', consumeLoop handle onZero (fuel + 1) s b = some (s, b', []) ∧ b'.WellFormed ∧
      b'.getData = b.getData ∧ b'.readIndex = 0 := by
  have hr := H.waits s m b.getData hm hdata hpre hlt
  have hsame : (b.writeData b.getData).getData = b.getData := hb.getData_writeData rfl
  refine ⟨_, consumeLoop_incomplete hdata hr rfl, (hb.writeData _).moveDataToFront, ?_,
    readIndex_moveDataToFront _⟩
  rw [(hb.writeData _).getData_moveDataToFront, hsame]

/-- A complete message at the front is delivered, and the loop goes on with what follows it. -/
theorem consumeLoop_accepts (H : Handles handle encode deliver Valid capacity) {m : μ}
    (hm : Valid m) {rest : List UInt8} {fuel : ℕ} {s : σ} {b : ReceivingBuffer capacity}
    (hb : b.WellFormed) (hdata : b.getData = encode m ++ rest) :
    ∃ b', consumeLoop handle onZero (fuel + 1) s b =
        (consumeLoop handle onZero fuel (deliver s m) b').map
          (fun t => (t.1, t.2.1, encode m :: t.2.2)) ∧
      b'.WellFormed ∧ b'.getData = rest ∧ b'.writeIndex = b.writeIndex := by
  have hpos : 0 < (encode m).length := List.length_pos_of_ne_nil (H.encode_ne_nil m hm)
  obtain ⟨left, hleft, hr⟩ := H.accepts s m rest hm (hdata ▸ b.length_getData_le)
  rw [← hdata] at hr
  have hlen : (left ++ rest).length = b.getData.length := by
    rw [hdata, List.length_append, List.length_append, hleft]
  have hle : (encode m).length ≤ b.getData.length := by
    rw [hdata, List.length_append]; omega
  -- the handler has written `left` where the message was, and that is what is consumed
  have hwritten := hb.getData_writeData hlen
  refine ⟨(b.writeData (left ++ rest)).consume (encode m).length, ?_,
    (hb.writeData _).consume (by rw [hwritten, hlen]; exact hle), ?_, rfl⟩
  · rw [consumeLoop_consumed hr rfl hpos hle, hdata, List.take_left]
  · rw [getData_consume, hwritten, ← hleft, List.drop_left]

variable (onZero)

/-- The loop on a prefix of a stream of messages, for a handler that meets its contract: it delivers
the complete messages in order and leaves the tail. If there is a tail, it was moved to the front;
if there is none, the write index has not moved. -/
theorem consumeLoop_stream (H : Handles handle encode deliver Valid capacity) {ms : List μ}
    {n fuel : ℕ} (s : σ) {b : ReceivingBuffer capacity} (hb : b.WellFormed)
    (hms : ∀ m ∈ ms, Valid m) (hdata : b.getData = (stream encode ms).take n)
    (hfuel : b.getData.length < fuel) :
    ∃ b', consumeLoop handle onZero fuel s b =
        some ((complete encode ms n).foldl deliver s, b', (complete encode ms n).map encode) ∧
      b'.WellFormed ∧ b'.getData = tail encode ms n ∧
      (tail encode ms n = [] → b'.writeIndex = b.writeIndex) ∧
      (tail encode ms n ≠ [] → b'.readIndex = 0) := by
  induction ms generalizing n fuel s b with
  | nil =>
      rw [stream_nil, List.take_nil] at hdata
      exact ⟨b, consumeLoop_nil (by omega) hdata, hb, hdata, fun _ => rfl, fun h => absurd rfl h⟩
  | cons m ms ih =>
      have hm : Valid m := hms m List.mem_cons_self
      have hpos : 0 < (encode m).length := List.length_pos_of_ne_nil (H.encode_ne_nil m hm)
      obtain ⟨fuel, rfl⟩ := Nat.exists_eq_succ_of_ne_zero (by omega : fuel ≠ 0)
      rw [stream_cons] at hdata
      rcases Nat.lt_or_ge n (encode m).length with hn | hn
      -- the first message is not complete
      · rw [List.take_append_of_le_length hn.le] at hdata
        rw [complete_cons_of_lt ms hn, tail_cons_of_lt ms hn, ← hdata]
        by_cases hnil : b.getData = []
        · exact ⟨b, consumeLoop_nil (by omega) hnil, hb, rfl, fun _ => rfl, fun h => absurd hnil h⟩
        · have hlt : b.getData.length < (encode m).length := by
            rw [hdata, List.length_take]; omega
          obtain ⟨b', hrun, hb', htail, hread⟩ :=
            consumeLoop_waits H hm hb hnil (hdata ▸ List.take_prefix n _) hlt
          exact ⟨b', hrun, hb', htail, fun h => absurd h hnil, fun _ => hread⟩
      -- the first message is complete
      · rw [List.take_append, List.take_of_length_le hn] at hdata
        obtain ⟨b₁, hrun₁, hb₁, hrest, hwrite⟩ := consumeLoop_accepts H hm hb hdata
        have hshort : b₁.getData.length < fuel := by
          rw [hdata, List.length_append] at hfuel
          rw [hrest]
          omega
        obtain ⟨b', hrun, hb', htail, hnil, hcons⟩ := ih (deliver s m) hb₁
          (fun m' hm' => hms m' (List.mem_cons_of_mem m hm')) hrest hshort
        rw [complete_cons_of_le ms hn, tail_cons_of_le ms hn]
        refine ⟨b', ?_, hb', htail, fun h => (hnil h).trans hwrite, hcons⟩
        rw [hrun₁, hrun, Option.map_some, List.foldl_cons, List.map_cons]

/-- One read and the loop after it. The buffer holds the tail of the first `n` bytes of a stream of
messages; after a read of the next `count` bytes the loop delivers the messages they complete and
leaves the new tail. If there is one, it was moved to the front; if there is none, the write index
is behind what was read, and stays there. -/
theorem consumeLoop_read (H : Handles handle encode deliver Valid capacity) {ms : List μ}
    {n count : ℕ} (s : σ) {b : ReceivingBuffer capacity} (hb : b.WellFormed)
    (hms : ∀ m ∈ ms, Valid m) (hdata : b.getData = tail encode ms n)
    (hcount : count ≤ b.getWritable.length) (hn : n + count ≤ (stream encode ms).length)
    {bytes : List UInt8} (hbytes : bytes = ((stream encode ms).drop n).take count) :
    ∃ b' ns, complete encode ms n ++ ns = complete encode ms (n + count) ∧
      consumeLoop handle onZero (((b.fill bytes).commit bytes.length).getData.length + 1) s
        ((b.fill bytes).commit bytes.length) = some (ns.foldl deliver s, b', ns.map encode) ∧
      b'.WellFormed ∧ b'.getData = tail encode ms (n + count) ∧
      (tail encode ms (n + count) = [] → b'.writeIndex = b.writeIndex + count) ∧
      (tail encode ms (n + count) ≠ [] → b'.readIndex = 0) := by
  have hlen : bytes.length = count := by
    rw [hbytes, List.length_take, List.length_drop]; omega
  have hfits : bytes.length ≤ b.getWritable.length := by rw [hlen]; exact hcount
  -- the buffered data is what the pending messages start with
  have hread : ((b.fill bytes).commit bytes.length).getData =
      (stream encode (pending encode ms n)).take ((tail encode ms n).length + count) := by
    rw [hb.getData_fill_commit hfits, hdata, hbytes, tail_append_read ms n count (by omega)]
  obtain ⟨b', hloop, hwf, htail, hnil, hcons⟩ := consumeLoop_stream onZero H s
    (hb.fill_commit hfits) (fun m hm => hms m (mem_of_mem_pending hm)) hread (Nat.lt_succ_self _)
  rw [← tail_add] at htail hnil hcons
  refine ⟨b', _, (complete_add ms n count).symm, hloop, hwf, htail, fun h => ?_, hcons⟩
  rw [hnil h, ← hlen]
  rfl

/-- The loop on any data, for a handler that takes complete messages off the front: it does so as
long as there is one, without moving the write index, and goes on with the rest. -/
theorem consumeLoop_takes {next : List UInt8 → Option ℕ} {effect : σ → List UInt8 → σ}
    (H : Takes handle next effect capacity) (hnext : SelfDelimiting next) {ms : List (List UInt8)}
    {rest : List UInt8} {fuel : ℕ} (s : σ) {b : ReceivingBuffer capacity} (hb : b.WellFormed)
    (hcut : Cut next b.getData ms rest) (hfuel : b.getData.length < fuel) :
    ∃ b' fuel', consumeLoop handle onZero fuel s b =
        (consumeLoop handle onZero fuel' (ms.foldl effect s) b').map
          (fun t => (t.1, t.2.1, ms ++ t.2.2)) ∧
      b'.WellFormed ∧ b'.getData = rest ∧ rest.length < fuel' ∧
      b'.writeIndex = b.writeIndex := by
  induction ms generalizing fuel s b with
  | nil =>
      have hrest : b.getData = rest := hcut.flatten_append.symm
      exact ⟨b, fuel, Option.map_id'.symm, hb, hrest, hrest ▸ hfuel, rfl⟩
  | cons m ms ih =>
      obtain ⟨fuel, rfl⟩ := Nat.exists_eq_succ_of_ne_zero (by omega : fuel ≠ 0)
      have hdata : b.getData = m ++ (ms.flatten ++ rest) := by
        rw [← hcut.flatten_append, List.flatten_cons, List.append_assoc]
      have hm : next m = some m.length := hcut.complete m List.mem_cons_self
      have hpos : 0 < m.length := hnext.pos hm
      obtain ⟨left, hleft, hr⟩ := H s b.getData m.length
        (hdata ▸ hnext.append hm (ms.flatten ++ rest)) b.length_getData_le
      rw [hdata, List.take_left, List.drop_left] at hr
      have hlen : (left ++ (ms.flatten ++ rest)).length = b.getData.length := by
        simp only [hdata, List.length_append, hleft]
      have hle : m.length ≤ b.getData.length := by
        rw [hdata, List.length_append]; omega
      -- the handler has written `left` where the message was, and that is what is consumed
      have hwritten := hb.getData_writeData hlen
      have hshort : ((b.writeData (left ++ (ms.flatten ++ rest))).consume m.length).getData =
          ms.flatten ++ rest := by
        rw [getData_consume, hwritten, ← hleft, List.drop_left]
      have hless : ((b.writeData (left ++ (ms.flatten ++ rest))).consume m.length).getData.length <
          fuel := by
        rw [hdata, List.length_append] at hfuel
        rw [hshort]
        omega
      obtain ⟨b', fuel', hrun, hb', hrest, hfuel', hwrite⟩ := ih (effect s m)
        ((hb.writeData _).consume (by rw [hwritten, hlen]; exact hle))
        ⟨hshort.symm, fun m' hm' => hcut.complete m' (List.mem_cons_of_mem m hm'), hcut.rest_eq⟩
        hless
      refine ⟨b', fuel', ?_, hb', hrest, hfuel', hwrite⟩
      rw [consumeLoop_consumed (hdata ▸ hr) rfl hpos hle, hrun, Option.map_map, List.foldl_cons,
        hdata, List.take_left]
      rfl

/-- What remains of this where the write index does not matter. -/
theorem consumeLoop_messages {next : List UInt8 → Option ℕ} {effect : σ → List UInt8 → σ}
    (H : Takes handle next effect capacity) (hnext : SelfDelimiting next) {ms : List (List UInt8)}
    {rest : List UInt8} {fuel : ℕ} (s : σ) {b : ReceivingBuffer capacity} (hb : b.WellFormed)
    (hcut : Cut next b.getData ms rest) (hfuel : b.getData.length < fuel) :
    ∃ b' fuel', consumeLoop handle onZero fuel s b =
        (consumeLoop handle onZero fuel' (ms.foldl effect s) b').map
          (fun t => (t.1, t.2.1, ms ++ t.2.2)) ∧
      b'.WellFormed ∧ b'.getData = rest ∧ rest.length < fuel' := by
  obtain ⟨b', fuel', hrun, hb', hrest, hfuel', -⟩ :=
    consumeLoop_takes onZero H hnext s hb hcut hfuel
  exact ⟨b', fuel', hrun, hb', hrest, hfuel'⟩

end Loop

end ReceivingBuffer
