import EspNowOnLinux.Lib.Bytes
import Mathlib.Algebra.Group.Action.Defs
import Mathlib.Algebra.Order.BigOperators.Group.List
import Mathlib.Data.List.SplitLengths
import Mathlib.Data.Vector.Basic

/-!
# The control connection

What the two ends of a control connection pass to `ParseFromArray`. Both send an envelope as its
bytes, with nothing in front of it, and both take what one read returns for one envelope: the daemon
in `control_session::handle_read`, a command in `ConnectionSocket::receive_message`. TCP delivers
the bytes in order and cuts them into reads as it likes.

## Main results

* `boundaries_iff`: the daemon is passed the envelopes that were sent iff TCP delivers each of them
  in a read of its own. The client is so only if each envelope is 1024 bytes long as well, because
  `receive_message` returns its whole buffer.
-/

open Bytes

/-- `send_message` of the client, and the `async_write`s of the daemon one after the other: what has
been sent, and behind it the bytes of the envelope. -/
def sendMessage (stream message : List UInt8) : List UInt8 := stream ++ message

/-- The stream after the envelopes have been sent. -/
def sentStream (envelopes : List (List UInt8)) : List UInt8 := envelopes.foldl sendMessage []

theorem sentStream_eq_flatten (envelopes : List (List UInt8)) :
    sentStream envelopes = envelopes.flatten := by
  suffices h : ∀ stream, envelopes.foldl sendMessage stream = stream ++ envelopes.flatten from
    h []
  induction envelopes with
  | nil => exact fun stream => (List.append_nil stream).symm
  | cons envelope envelopes ih =>
      intro stream
      rw [List.foldl_cons, ih, sendMessage, List.flatten_cons, List.append_assoc]

/-- How TCP cuts a stream into reads, for a receiver with a buffer of `capacity` bytes. -/
structure Reads (capacity : ℕ) (stream : List UInt8) where
  /-- The sizes of the reads. -/
  counts : List ℕ
  /-- A read that does not fail returns something. -/
  pos : ∀ count ∈ counts, 0 < count
  /-- It returns no more than fits. -/
  le : ∀ count ∈ counts, count ≤ capacity
  /-- All of the stream is read. -/
  sum_eq : counts.sum = stream.length

namespace Reads

variable {capacity : ℕ} {stream : List UInt8}

/-- What the reads return. -/
def pieces (r : Reads capacity stream) : List (List UInt8) := r.counts.splitLengths stream

theorem map_length_pieces (r : Reads capacity stream) : r.pieces.map List.length = r.counts :=
  List.map_splitLengths_length stream r.counts (Nat.le_of_eq r.sum_eq)

/-- A piece fits in the buffer. -/
theorem length_piece_le (r : Reads capacity stream) {piece : List UInt8} (h : piece ∈ r.pieces) :
    piece.length ≤ capacity := List.length_mem_splitLengths stream r.counts capacity r.le piece h

/-- The reads return the messages of which the stream consists iff their sizes are those of the
messages. -/
theorem pieces_eq_iff {messages : List (List UInt8)} (r : Reads capacity (sentStream messages)) :
    r.pieces = messages ↔ r.counts = messages.map List.length := by
  constructor
  · intro h
    rw [← r.map_length_pieces, h]
  · intro h
    rw [pieces, h, sentStream_eq_flatten]
    clear h r
    induction messages with
    | nil => rfl
    | cons message messages ih =>
        rw [List.map_cons, List.flatten_cons, List.splitLengths_cons, List.take_left,
          List.drop_left, ih]

end Reads

/-! ## The daemon -/

namespace ControlSession

/-- `data_` of `control_session`. -/
abbrev Data := List.Vector UInt8 (4 * 1024)

/-- `handle_read`, after `received` was read into `data_`: the array, and the bytes that
`ParseFromArray` is called with. -/
def parsedBytes (data : Data) (received : List UInt8) : Data × List UInt8 :=
  let data : Data := ⟨overwrite data.toList 0 received, by simp⟩
  let bytesTransferred := received.length
  (data, data.toList.take bytesTransferred)

/-- The arguments of the calls of `ParseFromArray`, read after read. -/
def parsed : Data → List (List UInt8) → List (List UInt8)
  | _, [] => []
  | data, received :: pieces =>
      let (data, bytes) := parsedBytes data received
      bytes :: parsed data pieces

/-- `ParseFromArray` is called with what was read. -/
theorem snd_parsedBytes (data : Data) {received : List UInt8} (h : received.length ≤ 4 * 1024) :
    (parsedBytes data received).2 = received := by
  have hfits : 0 + received.length ≤ data.toList.length := by
    rw [data.toList_length]; omega
  show (overwrite data.toList 0 received).take received.length = received
  rw [overwrite_of_fits hfits, List.take_zero, List.nil_append, List.take_left]

/-- Nothing of earlier reads is left in the arguments. -/
theorem parsed_eq (data : Data) {pieces : List (List UInt8)}
    (h : ∀ piece ∈ pieces, piece.length ≤ 4 * 1024) : parsed data pieces = pieces := by
  induction pieces generalizing data with
  | nil => rfl
  | cons received pieces ih =>
      show (parsedBytes data received).2 :: parsed (parsedBytes data received).1 pieces = _
      rw [snd_parsedBytes data (h received List.mem_cons_self),
        ih _ fun piece hpiece => h piece (List.mem_cons_of_mem _ hpiece)]

end ControlSession

/-! ## The client -/

namespace ConnectionSocket

/-- The array that `receive_message` returns, and that the commands pass to `ParseFromArray`, after
`received` was read into it. What `read_some` returns is dropped. -/
def receiveMessage (received : List UInt8) : List UInt8 :=
  let buffer : List UInt8 := List.replicate 1024 0
  overwrite buffer 0 received

/-- Whatever was read, the whole buffer is returned. -/
theorem length_receiveMessage (received : List UInt8) :
    (receiveMessage received).length = 1024 := by
  rw [receiveMessage, length_overwrite, List.length_replicate]

/-- A read that fills the buffer is returned as it is. -/
theorem receiveMessage_of_length {received : List UInt8} (h : received.length = 1024) :
    receiveMessage received = received := by
  have hfits : 0 + received.length ≤ (List.replicate 1024 (0 : UInt8)).length := by
    rw [List.length_replicate]; omega
  rw [receiveMessage, overwrite_of_fits hfits, List.take_zero, List.nil_append,
    List.drop_of_length_le (by rw [List.length_replicate]; omega), List.append_nil]

/-- Numbers of which none is more than `n` and whose sum is the largest possible are all `n`. -/
theorem eq_replicate_of_sum {n : ℕ} {counts : List ℕ} (hle : ∀ count ∈ counts, count ≤ n)
    (hsum : counts.sum = n * counts.length) : counts = List.replicate counts.length n := by
  induction counts with
  | nil => rfl
  | cons count counts ih =>
      have hcount : count ≤ n := hle count List.mem_cons_self
      have hcounts : ∀ c ∈ counts, c ≤ n := fun c hc => hle c (List.mem_cons_of_mem _ hc)
      have hrest : counts.sum ≤ n * counts.length := by
        have hbound := List.sum_le_card_nsmul counts n hcounts
        rwa [smul_eq_mul, Nat.mul_comm] at hbound
      rw [List.sum_cons, List.length_cons, Nat.mul_succ] at hsum
      rw [List.length_cons, List.replicate_succ, ← ih hcounts (by omega)]
      congr 1
      omega

/-- The client is passed the messages iff each of them fills its buffer and arrives in a read of its
own. -/
theorem map_receiveMessage_eq_iff {messages : List (List UInt8)}
    (r : Reads 1024 (sentStream messages)) :
    r.pieces.map receiveMessage = messages ↔
      r.counts = messages.map List.length ∧ ∀ message ∈ messages, message.length = 1024 := by
  constructor
  · intro h
    have hlength : ∀ message ∈ messages, message.length = 1024 := by
      intro message hmessage
      rw [← h] at hmessage
      obtain ⟨piece, -, rfl⟩ := List.mem_map.mp hmessage
      exact length_receiveMessage piece
    -- as many reads as messages and as many bytes in both, so each read fills the buffer
    have hmap : messages.map List.length = List.replicate messages.length 1024 :=
      List.map_eq_replicate_iff.mpr hlength
    have hcount : r.counts.length = messages.length := by
      rw [← r.map_length_pieces, List.length_map, ← List.length_map receiveMessage]
      exact congrArg List.length h
    have hsum : r.counts.sum = 1024 * r.counts.length := by
      rw [r.sum_eq, hcount, sentStream_eq_flatten, List.length_flatten, hmap, List.sum_replicate,
        smul_eq_mul, Nat.mul_comm]
    refine ⟨?_, hlength⟩
    rw [hmap, ← hcount]
    exact eq_replicate_of_sum r.le hsum
  · rintro ⟨hcounts, hlength⟩
    rw [r.pieces_eq_iff.mpr hcounts]
    calc messages.map receiveMessage = messages.map id :=
          List.map_congr_left fun message h => receiveMessage_of_length (hlength message h)
      _ = messages := List.map_id messages

end ConnectionSocket

/-! ## Both directions -/

/-- For every sequence of envelopes and every way in which TCP cuts their bytes into reads:
`ParseFromArray` is called with the envelopes, once for each, on the daemon's side iff the reads are
the envelopes, and on the client's side iff, in addition, each envelope is 1024 bytes long. -/
theorem boundaries_iff (envelopes : List (List UInt8)) :
    (∀ (data : ControlSession.Data) (r : Reads (4 * 1024) (sentStream envelopes)),
      ControlSession.parsed data r.pieces = envelopes ↔ r.counts = envelopes.map List.length) ∧
    ∀ r : Reads 1024 (sentStream envelopes),
      r.pieces.map ConnectionSocket.receiveMessage = envelopes ↔
        r.counts = envelopes.map List.length ∧ ∀ envelope ∈ envelopes, envelope.length = 1024 := by
  refine ⟨fun data r => ?_, fun r => ConnectionSocket.map_receiveMessage_eq_iff r⟩
  rw [ControlSession.parsed_eq data fun piece hpiece => r.length_piece_le hpiece]
  exact r.pieces_eq_iff

/-- Two requests that arrive in one read are parsed as one message; and a response that arrives in a
read of its own is parsed together with the zeros behind it. -/
theorem boundaries_fail :
    let requests : List (List UInt8) := [[8, 1, 50, 0], [8, 2, 50, 0]]
    let responses : List (List UInt8) := [[8, 1, 58, 0]]
    (∃ r : Reads (4 * 1024) (sentStream requests), ∀ data,
      ControlSession.parsed data r.pieces = [[8, 1, 50, 0, 8, 2, 50, 0]] ∧
        ControlSession.parsed data r.pieces ≠ requests) ∧
    ∃ r : Reads 1024 (sentStream responses), r.counts = responses.map List.length ∧
      r.pieces.map ConnectionSocket.receiveMessage ≠ responses := by
  intro requests responses
  constructor
  · refine ⟨⟨[8], by decide, by decide, rfl⟩, fun data => ?_⟩
    rw [ControlSession.parsed_eq data fun piece hpiece => Reads.length_piece_le _ hpiece]
    exact ⟨rfl, by decide⟩
  · refine ⟨⟨[4], by decide, by decide, rfl⟩, rfl, fun h => ?_⟩
    have hlength : ((ConnectionSocket.receiveMessage [8, 1, 58, 0]).length : ℕ) = 4 :=
      congrArg List.length (List.cons.inj h).1
    rw [ConnectionSocket.length_receiveMessage] at hlength
    cases hlength
