import Mathlib.Data.List.Infix
import Mathlib.Data.List.TakeDrop

/-!
# Messages in a stream

A sender writes the encodings of messages one after the other, a receiver has read the first `n`
elements of the concatenation. This file says which messages the receiver can know, without
reference to how the stream was cut into reads.

* `complete encode ms n`: the messages whose whole encoding lies in the first `n` elements;
* `tail encode ms n`: the elements read after the last complete message;
* `pending encode ms n`: the messages that are not complete yet.

Together they split what was read (`stream_complete_append_tail`), `complete` is the longest prefix
of the messages that fits (`prefix_complete`), and one more read of `k` elements advances all three
(`complete_add`, `tail_add`, `tail_append_read`). These four carry any parser that keeps the tail
in a buffer. `Handles` is the contract such a parser's handler has to meet.
-/

namespace Framing

variable {μ β σ : Type*}

section Stream

variable (encode : μ → List β)

/-- The concatenation of the encodings. -/
def stream (ms : List μ) : List β := ms.flatMap encode

/-- The messages whose whole encoding lies in the first `n` elements of the stream. -/
def complete : List μ → ℕ → List μ
  | [], _ => []
  | m :: ms, n =>
      if (encode m).length ≤ n then m :: complete ms (n - (encode m).length) else []

/-- The messages that the first `n` elements of the stream do not complete. -/
def pending : List μ → ℕ → List μ
  | [], _ => []
  | m :: ms, n =>
      if (encode m).length ≤ n then pending ms (n - (encode m).length) else m :: ms

/-- The elements among the first `n` of the stream that belong to no complete message. -/
def tail : List μ → ℕ → List β
  | [], _ => []
  | m :: ms, n =>
      if (encode m).length ≤ n then tail ms (n - (encode m).length) else (encode m).take n

end Stream

variable {encode : μ → List β}

@[simp]
theorem stream_nil : stream encode [] = [] := rfl

@[simp]
theorem stream_cons (m : μ) (ms : List μ) :
    stream encode (m :: ms) = encode m ++ stream encode ms := rfl

@[simp]
theorem stream_append (ms ns : List μ) :
    stream encode (ms ++ ns) = stream encode ms ++ stream encode ns :=
  List.flatMap_append

theorem complete_cons_of_le {m : μ} {n : ℕ} (ms : List μ) (h : (encode m).length ≤ n) :
    complete encode (m :: ms) n = m :: complete encode ms (n - (encode m).length) := by
  rw [complete, if_pos h]

theorem complete_cons_of_lt {m : μ} {n : ℕ} (ms : List μ) (h : n < (encode m).length) :
    complete encode (m :: ms) n = [] := by
  rw [complete, if_neg (Nat.not_le.mpr h)]

theorem pending_cons_of_le {m : μ} {n : ℕ} (ms : List μ) (h : (encode m).length ≤ n) :
    pending encode (m :: ms) n = pending encode ms (n - (encode m).length) := by
  rw [pending, if_pos h]

theorem pending_cons_of_lt {m : μ} {n : ℕ} (ms : List μ) (h : n < (encode m).length) :
    pending encode (m :: ms) n = m :: ms := by
  rw [pending, if_neg (Nat.not_le.mpr h)]

theorem tail_cons_of_le {m : μ} {n : ℕ} (ms : List μ) (h : (encode m).length ≤ n) :
    tail encode (m :: ms) n = tail encode ms (n - (encode m).length) := by
  rw [tail, if_pos h]

theorem tail_cons_of_lt {m : μ} {n : ℕ} (ms : List μ) (h : n < (encode m).length) :
    tail encode (m :: ms) n = (encode m).take n := by
  rw [tail, if_neg (Nat.not_le.mpr h)]

/-- Before anything is read no message is complete. -/
theorem complete_zero (hne : ∀ m, encode m ≠ []) (ms : List μ) : complete encode ms 0 = [] := by
  cases ms with
  | nil => rfl
  | cons m ms => exact complete_cons_of_lt ms (List.length_pos_of_ne_nil (hne m))

theorem tail_zero (hne : ∀ m, encode m ≠ []) (ms : List μ) : tail encode ms 0 = [] := by
  cases ms with
  | nil => rfl
  | cons m ms => exact tail_cons_of_lt ms (List.length_pos_of_ne_nil (hne m))

/-- The complete messages are followed by the pending ones. -/
theorem complete_append_pending (encode : μ → List β) (ms : List μ) (n : ℕ) :
    complete encode ms n ++ pending encode ms n = ms := by
  induction ms generalizing n with
  | nil => rfl
  | cons m ms ih =>
      rcases Nat.lt_or_ge n (encode m).length with h | h
      · rw [complete_cons_of_lt ms h, pending_cons_of_lt ms h, List.nil_append]
      · rw [complete_cons_of_le ms h, pending_cons_of_le ms h, List.cons_append, ih]

/-- The complete messages are a prefix of the messages sent. -/
theorem complete_prefix (ms : List μ) (n : ℕ) : complete encode ms n <+: ms :=
  ⟨pending encode ms n, complete_append_pending encode ms n⟩

/-- The encodings of the complete messages and the tail are what was read. -/
theorem stream_complete_append_tail (encode : μ → List β) (ms : List μ) (n : ℕ) :
    stream encode (complete encode ms n) ++ tail encode ms n = (stream encode ms).take n := by
  induction ms generalizing n with
  | nil => simp [complete, tail]
  | cons m ms ih =>
      rcases Nat.lt_or_ge n (encode m).length with h | h
      · rw [complete_cons_of_lt ms h, tail_cons_of_lt ms h, stream_nil, List.nil_append,
          stream_cons, List.take_append_of_le_length h.le]
      · rw [complete_cons_of_le ms h, tail_cons_of_le ms h, stream_cons, stream_cons,
          List.append_assoc, ih, List.take_append, List.take_of_length_le h]

/-- `complete` is maximal: it extends every prefix of the messages that fits in what was read. -/
theorem prefix_complete (encode : μ → List β) {pre ms : List μ} {n : ℕ}
    (hpre : pre <+: ms) (hn : (stream encode pre).length ≤ n) : pre <+: complete encode ms n := by
  induction ms generalizing pre n with
  | nil =>
      rw [List.prefix_nil.mp hpre]
      exact List.nil_prefix
  | cons m ms ih =>
      -- a prefix that is not empty starts with the same message, which therefore fits
      cases pre with
      | nil => exact List.nil_prefix
      | cons p pre =>
          obtain ⟨rfl, hrest⟩ := List.cons_prefix_cons.mp hpre
          rw [stream_cons, List.length_append] at hn
          rw [complete_cons_of_le ms (by omega)]
          exact List.cons_prefix_cons.mpr ⟨rfl, ih hrest (by omega)⟩

/-- Once everything was read, every message is complete. -/
theorem complete_eq_self (encode : μ → List β) {ms : List μ} {n : ℕ}
    (hn : (stream encode ms).length ≤ n) : complete encode ms n = ms := by
  have hall := prefix_complete encode List.prefix_rfl hn
  exact List.IsPrefix.eq_of_length_le ( complete_prefix ms n) hall.length_le

/-- What was read ends at a message boundary iff there is no tail. -/
theorem tail_eq_nil_iff {ms : List μ} {n : ℕ} (hn : n ≤ (stream encode ms).length) :
    tail encode ms n = [] ↔ ∃ pre, pre <+: ms ∧ (stream encode pre).length = n := by
  have hlen := congrArg List.length (stream_complete_append_tail encode ms n)
  rw [List.length_append, List.length_take, Nat.min_eq_left hn] at hlen
  constructor
  -- without a tail the complete messages are all that was read
  · intro h
    rw [h, List.length_nil, Nat.add_zero] at hlen
    exact ⟨complete encode ms n, complete_prefix ms n, hlen⟩
  -- `complete` extends `pre`, which leaves no element for a tail
  · rintro ⟨pre, hpre, rfl⟩
    obtain ⟨post, hpost⟩ := prefix_complete encode hpre le_rfl
    rw [← hpost, stream_append, List.length_append] at hlen
    exact List.length_eq_zero_iff.mp (by omega)

/-- A tail that is not empty is a strict prefix of the next message's encoding. -/
theorem tail_spec {ms : List μ} {n : ℕ} (h : tail encode ms n ≠ []) :
    ∃ m ∈ ms, tail encode ms n <+: encode m ∧ (tail encode ms n).length < (encode m).length := by
  induction ms generalizing n with
  | nil => exact absurd rfl h
  | cons m ms ih =>
      rcases Nat.lt_or_ge n (encode m).length with hn | hn
      · rw [tail_cons_of_lt ms hn]
        refine ⟨m, List.mem_cons_self, List.take_prefix n _, ?_⟩
        rw [List.length_take]
        omega
      · rw [tail_cons_of_le ms hn] at h ⊢
        obtain ⟨m', hm', hspec⟩ := ih h
        exact ⟨m', List.mem_cons_of_mem _ hm', hspec⟩

/-! ## One more read -/

/-- A further read of `k` elements completes messages among the pending ones. -/
theorem complete_add (ms : List μ) (n k : ℕ) :
    complete encode ms (n + k) = complete encode ms n ++
      complete encode (pending encode ms n) ((tail encode ms n).length + k) := by
  induction ms generalizing n with
  | nil => rfl
  | cons m ms ih =>
      rcases Nat.lt_or_ge n (encode m).length with h | h
      · have hlen : ((encode m).take n).length = n := by rw [List.length_take]; omega
        rw [complete_cons_of_lt ms h, pending_cons_of_lt ms h, tail_cons_of_lt ms h, hlen,
          List.nil_append]
      · rw [complete_cons_of_le ms h, pending_cons_of_le ms h, tail_cons_of_le ms h,
          complete_cons_of_le ms (by omega), Nat.sub_add_comm h, ih, List.cons_append]

/-- The tail after a further read of `k` elements. -/
theorem tail_add (ms : List μ) (n k : ℕ) :
    tail encode ms (n + k) =
      tail encode (pending encode ms n) ((tail encode ms n).length + k) := by
  induction ms generalizing n with
  | nil => rfl
  | cons m ms ih =>
      rcases Nat.lt_or_ge n (encode m).length with h | h
      · have hlen : ((encode m).take n).length = n := by rw [List.length_take]; omega
        rw [pending_cons_of_lt ms h, tail_cons_of_lt ms h, hlen]
      · rw [pending_cons_of_le ms h, tail_cons_of_le ms h, tail_cons_of_le ms (by omega),
          Nat.sub_add_comm h, ih]

/-- The tail and the `k` elements read after it are what the pending messages start with. -/
theorem tail_append_read (ms : List μ) (n k : ℕ) (hn : n ≤ (stream encode ms).length) :
    tail encode ms n ++ ((stream encode ms).drop n).take k =
      (stream encode (pending encode ms n)).take ((tail encode ms n).length + k) := by
  induction ms generalizing n with
  | nil => simp [tail, pending]
  | cons m ms ih =>
      rcases Nat.lt_or_ge n (encode m).length with h | h
      -- the first message is not complete: the tail is all that was read
      · have hlen : ((encode m).take n).length = n := by rw [List.length_take]; omega
        rw [pending_cons_of_lt ms h, tail_cons_of_lt ms h, hlen, List.take_add, stream_cons,
          List.take_append_of_le_length h.le]
      · rw [stream_cons, List.length_append] at hn
        have hdrop : (encode m ++ stream encode ms).drop n =
            (stream encode ms).drop (n - (encode m).length) := by
          rw [List.drop_append, List.drop_of_length_le h, List.nil_append]
        rw [pending_cons_of_le ms h, tail_cons_of_le ms h, stream_cons, hdrop,
          ih _ (by omega)]

/-- The pending messages are some of the messages. -/
theorem mem_of_mem_pending {ms : List μ} {n : ℕ} {m : μ} (h : m ∈ pending encode ms n) :
    m ∈ ms := by
  rw [← complete_append_pending encode ms n]
  exact List.mem_append_right _ h

/-! ## More messages -/

/-- Messages sent later complete nothing among what was sent before. -/
theorem complete_append (hne : ∀ m, encode m ≠ []) {ms : List μ} {n : ℕ}
    (hn : n ≤ (stream encode ms).length) (ns : List μ) :
    complete encode (ms ++ ns) n = complete encode ms n := by
  induction ms generalizing n with
  | nil =>
      obtain rfl := Nat.le_zero.mp hn
      exact complete_zero hne ns
  | cons m ms ih =>
      rw [stream_cons, List.length_append] at hn
      rw [List.cons_append]
      rcases Nat.lt_or_ge n (encode m).length with h | h
      · rw [complete_cons_of_lt _ h, complete_cons_of_lt _ h]
      · rw [complete_cons_of_le _ h, complete_cons_of_le _ h, ih (by omega)]

theorem tail_append (hne : ∀ m, encode m ≠ []) {ms : List μ} {n : ℕ}
    (hn : n ≤ (stream encode ms).length) (ns : List μ) :
    tail encode (ms ++ ns) n = tail encode ms n := by
  induction ms generalizing n with
  | nil =>
      obtain rfl := Nat.le_zero.mp hn
      exact tail_zero hne ns
  | cons m ms ih =>
      rw [stream_cons, List.length_append] at hn
      rw [List.cons_append]
      rcases Nat.lt_or_ge n (encode m).length with h | h
      · rw [tail_cons_of_lt _ h, tail_cons_of_lt _ h]
      · rw [tail_cons_of_le _ h, tail_cons_of_le _ h, ih (by omega)]

/-! ## Handlers -/

/-- A prefix that is at least as long as the fixed part of a message is the fixed part and a prefix
of the rest. -/
theorem exists_append_of_prefix {fixed rest p : List β} (hpre : p <+: fixed ++ rest)
    (hlen : fixed.length ≤ p.length) : ∃ q, p = fixed ++ q ∧ q <+: rest := by
  obtain ⟨q, rfl⟩ := List.prefix_of_prefix_length_le (List.prefix_append fixed rest) hpre hlen
  exact ⟨q, rfl, (List.prefix_append_right_inj fixed).mp hpre⟩

/-- What a handler of buffered data reports back: the number of elements it is done with or a code,
the state after the call, and the data as it left it (a handler may write into the buffer). -/
structure Reply (σ β : Type*) where
  /-- The return value. -/
  ret : ℤ
  /-- The state after the call. -/
  state : σ
  /-- The contents of the span after the call. -/
  data : List β

/-- The contract of a handler with the messages it is meant for: it takes a complete message off
the front of data of at most `capacity` elements, whatever follows the message, with the effect
`deliver`, and answers `-1` and changes nothing on a strict prefix of a message. -/
structure Handles (handle : σ → List β → Option (Reply σ β)) (encode : μ → List β)
    (deliver : σ → μ → σ) (Valid : μ → Prop) (capacity : ℕ) : Prop where
  /-- A message has a first element. -/
  encode_ne_nil : ∀ m, Valid m → encode m ≠ []
  /-- A complete message is consumed. -/
  accepts : ∀ s m rest, Valid m → (encode m ++ rest).length ≤ capacity →
    ∃ left, left.length = (encode m).length ∧
      handle s (encode m ++ rest) = some ⟨(encode m).length, deliver s m, left ++ rest⟩
  /-- An incomplete message is left alone. -/
  waits : ∀ s m p, Valid m → p ≠ [] → p <+: encode m → p.length < (encode m).length →
    handle s p = some ⟨-1, s, p⟩

end Framing
