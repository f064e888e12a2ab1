import EspNowOnLinux.Control.ControlSession
import EspNowOnLinux.Lib.StateMachine

/-!
# The response of a session and its writes

`response_`, which every `async_write` of a session reads its bytes from. The next request is read
and new devices are announced while writes are outstanding, and each response is serialised into
this one string. A write reads the memory at the moments the socket accepts bytes, as much of it as
the string was long when the write was started.

## Main results

* `inOrder_of_eachStep`: the client receives the responses complete and in order in every run in
  which a response is serialised only when every outstanding write has transferred all of its bytes;
* `not_inOrder_of_overlap`: a response that is serialised earlier, and changes bytes that are still
  to be transferred, is delivered in the place of these bytes.
-/

open ControlMessages StateMachine

/-- An `async_write` that has not completed. -/
structure ResponseWrite where
  /-- `response_.size()` when it was started. -/
  size : ℕ
  transferred : ℕ
  /-- What it reads once the string has been moved, and `response_` is somewhere else. -/
  memory : Option (List UInt8)
  deriving DecidableEq

/-- It has transferred all of its bytes. -/
def ResponseWrite.Done (w : ResponseWrite) : Prop := w.transferred = w.size

instance (w : ResponseWrite) : Decidable w.Done := inferInstanceAs (Decidable (_ = _))

/-- What `SerializeToString` does to the memory, apart from the bytes of the string. -/
structure Placement where
  /-- What the memory holds behind the string. -/
  behind : List UInt8
  /-- What the memory that the string has left holds, where it had to be moved. -/
  left : Option (List UInt8)

/-- A session in terms of what it writes. -/
structure ResponseWrites where
  /-- The memory from `response_.data()` on. -/
  response : List UInt8
  /-- The outstanding writes, in the order in which they were started. -/
  writes : List ResponseWrite
  /-- The bytes that the client has received. -/
  delivered : List UInt8
  /-- The serialised responses, in order. -/
  issued : List (List UInt8)

namespace ResponseWrites

/-- A session before the first response. -/
def start : ResponseWrites := ⟨[], [], [], []⟩

/-- What can happen to a session. -/
inductive Event
  /-- `handle_read` with a request, and the device manager as it is then. -/
  | read (deviceManager : DeviceManager) (opening : Opening) (uptime : UInt64)
      (envelope : ControlEnvelope) (placement : Placement)
  /-- `on_new_uart_device`. -/
  | newUartDevice (espnowId : String) (placement : Placement)
  /-- The socket accepts this many bytes of an outstanding write. -/
  | progress (write : ℕ) (count : ℕ)
  /-- `handle_write` is called for an outstanding write. -/
  | written (write : ℕ)

/-- The response that an event makes the session write. -/
def Event.response? : Event → Option (ControlEnvelope × Placement)
  | .read deviceManager opening uptime envelope placement =>
      ((ControlSession.handleRead deviceManager opening uptime envelope).bind Prod.snd).map
        fun response => (response, placement)
  | .newUartDevice espnowId placement => some (ControlSession.onNewUartDevice espnowId, placement)
  | _ => none

/-- `SerializeToString` and `async_write`. -/
def write (s : ResponseWrites) (bytes : List UInt8) (placement : Placement) : ResponseWrites where
  response := bytes ++ placement.behind
  -- a write that has been reading `response_` is left with the memory that the string has left
  writes := s.writes.map (fun w => { w with memory := w.memory <|> placement.left }) ++
    [⟨bytes.length, 0, none⟩]
  delivered := s.delivered
  issued := s.issued ++ [bytes]

/-- The memory that a write reads. -/
def memoryOf (s : ResponseWrites) (w : ResponseWrite) : List UInt8 := w.memory.getD s.response

variable (serialize : ControlEnvelope → List UInt8)

/-- The session after an event; `none` is an event that cannot happen, an exception, or a read past
the memory. -/
def step (s : ResponseWrites) (e : Event) : Option ResponseWrites :=
  match e with
  | .read deviceManager opening uptime envelope placement =>
      (ControlSession.handleRead deviceManager opening uptime envelope).map fun r =>
        match r.2 with
        | some response => s.write (serialize response) placement
        | none => s
  | .newUartDevice espnowId placement =>
      some (s.write (serialize (ControlSession.onNewUartDevice espnowId)) placement)
  | .progress write count => do
      let w ← s.writes[write]?
      if 0 < count ∧ w.transferred + count ≤ w.size ∧
          w.transferred + count ≤ (s.memoryOf w).length then
        some { s with
          writes := s.writes.set write { w with transferred := w.transferred + count }
          delivered := s.delivered ++ ((s.memoryOf w).drop w.transferred).take count }
      else none
  | .written write => do
      let w ← s.writes[write]?
      if w.Done then some { s with writes := s.writes.eraseIdx write } else none

/-- Every outstanding write has transferred all of its bytes. -/
def AllDone (s : ResponseWrites) : Prop := ∀ w ∈ s.writes, w.Done

/-- What the client has received is the beginning of the responses one after the other, and all of
it once every write is done. -/
structure InOrder (s : ResponseWrites) : Prop where
  starts_issued : s.delivered <+: s.issued.flatten
  delivered_eq : s.AllDone → s.delivered = s.issued.flatten

/-- A response is written only when every outstanding write is done. -/
def Alone (s : ResponseWrites) (e : Event) : Prop := e.response? ≠ none → s.AllDone

variable {serialize}

/-- What a step does: it writes a response or nothing, the socket accepts bytes, or a write
completes. -/
theorem step_cases {s t : ResponseWrites} {e : Event} (ht : step serialize s e = some t) :
    (e.response? = none ∧ t = s) ∨
      (∃ response placement, e.response? = some (response, placement) ∧
        t = s.write (serialize response) placement) ∨
      (∃ write count w, e = .progress write count ∧ s.writes[write]? = some w ∧ 0 < count ∧
        w.transferred + count ≤ w.size ∧
        t = { s with
          writes := s.writes.set write { w with transferred := w.transferred + count }
          delivered := s.delivered ++ ((s.memoryOf w).drop w.transferred).take count }) ∨
      ∃ write w, e = .written write ∧ s.writes[write]? = some w ∧ w.Done ∧
        t = { s with writes := s.writes.eraseIdx write } := by
  cases e with
  | read deviceManager opening uptime envelope placement =>
      obtain ⟨⟨m, response⟩, hread, rfl⟩ := Option.map_eq_some_iff.mp ht
      have hresponse : (Event.read deviceManager opening uptime envelope placement).response? =
          response.map fun response => (response, placement) := by
        rw [Event.response?, hread, Option.bind_some]
      cases response with
      | none => exact Or.inl ⟨hresponse, rfl⟩
      | some response => exact Or.inr (Or.inl ⟨response, placement, hresponse, rfl⟩)
  | newUartDevice espnowId placement =>
      exact Or.inr (Or.inl ⟨_, placement, rfl, (Option.some.inj ht).symm⟩)
  | progress write count =>
      obtain ⟨w, hw, ht⟩ := Option.bind_eq_some_iff.mp ht
      split at ht
      · next hcan =>
        exact Or.inr (Or.inr (Or.inl ⟨write, count, w, rfl, hw, hcan.1, hcan.2.1,
          (Option.some.inj ht).symm⟩))
      · cases ht
  | written write =>
      obtain ⟨w, hw, ht⟩ := Option.bind_eq_some_iff.mp ht
      split at ht
      · next hdone =>
        exact Or.inr (Or.inr (Or.inr ⟨write, w, rfl, hw, hdone, (Option.some.inj ht).symm⟩))
      · cases ht

/-! ## One write at a time -/

/-- Behind writes that are done, `w` is transferring `bytes`, the last of the responses. -/
structure Sending (s : ResponseWrites) (done : List ResponseWrite) (w : ResponseWrite)
    (earlier : List (List UInt8)) (bytes : List UInt8) : Prop where
  writes_eq : s.writes = done ++ [w]
  done_of_mem : ∀ v ∈ done, v.Done
  size_eq : w.size = bytes.length
  memory_eq : w.memory = none
  starts_response : bytes <+: s.response
  issued_eq : s.issued = earlier ++ [bytes]
  delivered_eq : s.delivered = earlier.flatten ++ bytes.take w.transferred

/-- Everything has been delivered, or all but the rest of the last response. -/
def Inv (s : ResponseWrites) : Prop :=
  (s.AllDone ∧ s.delivered = s.issued.flatten) ∨
    ∃ done w earlier bytes, s.Sending done w earlier bytes

theorem inv_start : Inv start := Or.inl ⟨fun _ h => absurd h List.not_mem_nil, rfl⟩

/-- Once the last write is done as well, everything has been delivered. -/
theorem Sending.delivered_of_done {s : ResponseWrites} {done : List ResponseWrite}
    {w : ResponseWrite} {earlier : List (List UInt8)} {bytes : List UInt8}
    (h : s.Sending done w earlier bytes) (hdone : w.Done) : s.delivered = s.issued.flatten := by
  have htransferred : w.transferred = bytes.length := hdone.trans h.size_eq
  rw [h.delivered_eq, h.issued_eq, List.flatten_append, List.flatten_singleton, htransferred,
    List.take_length]

theorem Inv.inOrder {s : ResponseWrites} (h : s.Inv) : s.InOrder := by
  rcases h with ⟨-, hdelivered⟩ | ⟨done, w, earlier, bytes, h⟩
  · exact ⟨hdelivered ▸ List.prefix_refl _, fun _ => hdelivered⟩
  · refine ⟨?_, fun hall => h.delivered_of_done (hall w ?_)⟩
    · rw [h.delivered_eq, h.issued_eq, List.flatten_append, List.flatten_singleton]
      exact (List.prefix_append_right_inj _).mpr (List.take_prefix _ _)
    · rw [h.writes_eq]
      exact List.mem_append_right _ List.mem_cons_self

/-- With nothing outstanding that is not done, the invariant says that everything was delivered. -/
theorem Inv.delivered_of_allDone {s : ResponseWrites} (h : s.Inv) (hall : s.AllDone) :
    s.delivered = s.issued.flatten := h.inOrder.delivered_eq hall

/-- A response that is written when every write is done is the one that is being sent. -/
theorem sending_write {s : ResponseWrites} (hall : s.AllDone)
    (hdelivered : s.delivered = s.issued.flatten) (bytes : List UInt8) (placement : Placement) :
    (s.write bytes placement).Sending
      (s.writes.map fun w => { w with memory := w.memory <|> placement.left })
      ⟨bytes.length, 0, none⟩ s.issued bytes where
  writes_eq := rfl
  done_of_mem v hv := by
    obtain ⟨w, hw, rfl⟩ := List.mem_map.mp hv
    exact hall w hw
  size_eq := rfl
  memory_eq := rfl
  starts_response := List.prefix_append _ _
  issued_eq := rfl
  delivered_eq := by
    rw [List.take_zero, List.append_nil]
    exact hdelivered

/-- The write at an index is the last one, or done. -/
theorem Sending.getElem? {s : ResponseWrites} {done : List ResponseWrite} {w v : ResponseWrite}
    {earlier : List (List UInt8)} {bytes : List UInt8} (h : s.Sending done w earlier bytes)
    {write : ℕ} (hv : s.writes[write]? = some v) :
    (write < done.length ∧ v.Done) ∨ (write = done.length ∧ v = w) := by
  rw [h.writes_eq] at hv
  rcases Nat.lt_or_ge write done.length with hlt | hge
  · rw [List.getElem?_append_left hlt] at hv
    exact Or.inl ⟨hlt, h.done_of_mem v (List.mem_of_getElem? hv)⟩
  · rw [List.getElem?_append_right hge] at hv
    rw [List.getElem?_singleton] at hv
    split at hv
    · exact Or.inr ⟨by omega, (Option.some.inj hv).symm⟩
    · cases hv

/-- The socket accepts some more bytes of the response that is being sent. -/
theorem Sending.progress {s : ResponseWrites} {done : List ResponseWrite} {w : ResponseWrite}
    {earlier : List (List UInt8)} {bytes : List UInt8} (h : s.Sending done w earlier bytes)
    {count : ℕ} (hle : w.transferred + count ≤ w.size) :
    Sending { s with
        writes := s.writes.set done.length { w with transferred := w.transferred + count }
        delivered := s.delivered ++ ((s.memoryOf w).drop w.transferred).take count }
      done { w with transferred := w.transferred + count } earlier bytes where
  writes_eq := by
    show s.writes.set done.length _ = _
    rw [h.writes_eq, List.set_append_right _ _ (Nat.le_refl _), Nat.sub_self, List.set_cons_zero]
  done_of_mem := h.done_of_mem
  size_eq := h.size_eq
  memory_eq := h.memory_eq
  starts_response := h.starts_response
  issued_eq := h.issued_eq
  delivered_eq := by
    obtain ⟨behind, hresponse⟩ := h.starts_response
    have hmemory : s.memoryOf w = bytes ++ behind := by
      rw [memoryOf, h.memory_eq, Option.getD_none, hresponse]
    have hsize := h.size_eq
    show s.delivered ++ _ = earlier.flatten ++ bytes.take (w.transferred + count)
    rw [h.delivered_eq, hmemory, List.drop_append_of_le_length (by omega),
      List.take_append_of_le_length (by rw [List.length_drop]; omega), List.append_assoc,
      ← List.take_add]

/-- The invariant is kept by the steps that write a response only when every write is done. -/
theorem inv_step {s t : ResponseWrites} {e : Event} (h : s.Inv) (hC : s.Alone e)
    (ht : step serialize s e = some t) : t.Inv := by
  rcases step_cases ht with ⟨-, rfl⟩ | ⟨response, placement, hresponse, rfl⟩ |
    ⟨write, count, v, -, hv, hpos, hle, rfl⟩ | ⟨write, v, -, hv, hdone, rfl⟩
  · exact h
  · have hall : s.AllDone := hC (by rw [hresponse]; exact Option.some_ne_none _)
    exact Or.inr ⟨_, _, _, _, sending_write hall (h.delivered_of_allDone hall) _ placement⟩
  · have hnotDone : ¬ v.Done := fun hdone => by
      have heq : v.transferred = v.size := hdone
      omega
    rcases h with ⟨hall, -⟩ | ⟨done, w, earlier, bytes, h⟩
    · exact absurd (hall v (List.mem_of_getElem? hv)) hnotDone
    · rcases h.getElem? hv with ⟨-, hdone⟩ | ⟨rfl, rfl⟩
      · exact absurd hdone hnotDone
      · exact Or.inr ⟨_, _, _, _, h.progress hle⟩
  · rcases h with ⟨hall, hdelivered⟩ | ⟨done, w, earlier, bytes, h⟩
    · exact Or.inl ⟨fun u hu => hall u (List.mem_of_mem_eraseIdx hu), hdelivered⟩
    · rcases h.getElem? hv with ⟨hlt, -⟩ | ⟨rfl, rfl⟩
      · refine Or.inr ⟨done.eraseIdx write, w, earlier, bytes, ?_, ?_, h.size_eq, h.memory_eq,
          h.starts_response, h.issued_eq, h.delivered_eq⟩
        · show s.writes.eraseIdx write = _
          rw [h.writes_eq, List.eraseIdx_append_of_lt_length hlt]
        · exact fun u hu => h.done_of_mem u (List.mem_of_mem_eraseIdx hu)
      -- the last write has been done, so the rest are, and everything is delivered
      · refine Or.inl ⟨fun u hu => ?_, h.delivered_of_done hdone⟩
        have hu : u ∈ s.writes.eraseIdx done.length := hu
        rw [h.writes_eq, List.eraseIdx_append_of_length_le (Nat.le_refl _), Nat.sub_self,
          List.eraseIdx_cons_zero, List.append_nil] at hu
        exact h.done_of_mem u hu

/-- A response that is serialised while another one is being sent: as soon as the socket has
accepted the rest of that one, the client has received what the memory holds by then. -/
theorem not_inOrder_of_overlap {s u : ResponseWrites} {done : List ResponseWrite}
    {w : ResponseWrite} {earlier : List (List UInt8)} {bytes bytes' : List UInt8}
    {placement : Placement} (h : s.Sending done w earlier bytes)
    (hchanged : ((placement.left.getD (bytes' ++ placement.behind)).drop w.transferred).take
      (w.size - w.transferred) ≠ bytes.drop w.transferred)
    (hu : step serialize (s.write bytes' placement)
      (.progress done.length (w.size - w.transferred)) = some u) : ¬ u.InOrder := by
  have hwrite : (s.write bytes' placement).writes[done.length]? =
      some { w with memory := placement.left } := by
    show (s.writes.map (fun w => { w with memory := w.memory <|> placement.left }) ++
      [⟨bytes'.length, 0, none⟩])[done.length]? = _
    rw [h.writes_eq, List.map_append, List.append_assoc,
      List.getElem?_append_right (by rw [List.length_map]), List.length_map, Nat.sub_self]
    show some { w with memory := w.memory <|> placement.left } = _
    rw [h.memory_eq]
    rfl
  obtain ⟨v, hv, hu⟩ := Option.bind_eq_some_iff.mp hu
  obtain rfl := Option.some.inj (hwrite.symm.trans hv)
  split at hu
  · next hcan =>
    obtain rfl := Option.some.inj hu
    intro hin
    have hprefix := hin.starts_issued
    simp only [write, memoryOf, h.delivered_eq, h.issued_eq, List.append_assoc,
      List.flatten_append, List.flatten_singleton] at hprefix
    -- what was accepted takes the place of the rest of `bytes`
    have hrest : ((placement.left.getD (bytes' ++ placement.behind)).drop w.transferred).take
        (w.size - w.transferred) <+: bytes.drop w.transferred ++ bytes' := by
      have htail := (List.prefix_append_right_inj _).mp hprefix
      rw [← List.take_append_drop w.transferred bytes, List.append_assoc] at htail
      rw [List.take_append_drop] at htail
      exact (List.prefix_append_right_inj _).mp htail
    have hsize := h.size_eq
    have hlength : (((placement.left.getD (bytes' ++ placement.behind)).drop w.transferred).take
        (w.size - w.transferred)).length = (bytes.drop w.transferred).length := by
      have hmemory : w.transferred + (w.size - w.transferred) ≤
          (placement.left.getD (bytes' ++ placement.behind)).length := hcan.2.2
      rw [List.length_take, List.length_drop, List.length_drop]
      omega
    have hfront := List.prefix_of_prefix_length_le hrest (List.prefix_append _ bytes') hlength.le
    exact hchanged (hfront.eq_of_length hlength)
  · cases hu

/-- In every run of a session in which a response is written only when all bytes of the earlier ones
have been accepted, the client receives the responses complete and in order. -/
theorem inOrder_of_eachStep (serialize : ControlEnvelope → List UInt8) (es : List Event)
    (h : EachStep (step serialize) Alone start es) :
    Always (step serialize) InOrder start es :=
  always_of_eachStep (fun _ _ _ h hC ht => inv_step h hC ht) (fun _ h => h.inOrder) inv_start h

/-- A request for statistics of a device that is not there, answered before the next one arrives. -/
theorem inOrder_of_eachStep_statistics :
    let serialize : ControlEnvelope → List UInt8 := fun e =>
      [8, UInt8.ofNat e.sequenceNumber.toNat, 42, 2, 8, 1]
    let request (n : UInt32) : Event :=
      .read .new .tunError 0 ⟨n, some (.getStatisticsRequest "espnow0")⟩ ⟨[], none⟩
    let es : List Event := [request 1, .progress 0 6, request 2, .progress 1 6]
    (run (step serialize) start es).map delivered =
        some ([8, 1, 42, 2, 8, 1] ++ [8, 2, 42, 2, 8, 1]) ∧
      Always (step serialize) InOrder start es := by
  intro serialize request es
  refine ⟨rfl, inOrder_of_eachStep serialize es fun t ht => ⟨fun _ => ?_, fun u hu => ⟨?_, ?_⟩⟩⟩
  · exact fun w hw => absurd hw List.not_mem_nil
  · exact fun hne => absurd rfl hne
  · obtain rfl := Option.some.inj ht
    obtain rfl := Option.some.inj hu
    refine fun v hv => ⟨fun _ w hw => ?_, fun w hw => ⟨fun hne => absurd rfl hne, trivial⟩⟩
    rw [List.mem_singleton.mp hw]
    rfl

/-- The answer to the second of two requests overwrites that to the first one, of which the client
has received nothing yet. -/
theorem inOrder_fails :
    let serialize : ControlEnvelope → List UInt8 := fun e =>
      [8, UInt8.ofNat e.sequenceNumber.toNat, 42, 2, 8, 1]
    let request (n : UInt32) : Event :=
      .read .new .tunError 0 ⟨n, some (.getStatisticsRequest "espnow0")⟩ ⟨[], none⟩
    let es : List Event := [request 1, request 2, .progress 0 6]
    (run (step serialize) start es).map (fun s => (s.delivered, s.issued)) =
        some ([8, 2, 42, 2, 8, 1], [[8, 1, 42, 2, 8, 1], [8, 2, 42, 2, 8, 1]]) ∧
      ¬ Always (step serialize) InOrder start es := by
  intro serialize request es
  have hrun : (run (step serialize) start es).map (fun s => (s.delivered, s.issued)) =
      some ([8, 2, 42, 2, 8, 1], [[8, 1, 42, 2, 8, 1], [8, 2, 42, 2, 8, 1]]) := rfl
  refine ⟨hrun, fun h => ?_⟩
  obtain ⟨t, hmap, hinOrder⟩ := h.exists_last hrun
  obtain ⟨hdelivered, hissued⟩ := Prod.mk.inj hmap
  have hprefix := hinOrder.starts_issued
  rw [hdelivered, hissued] at hprefix
  exact absurd hprefix (by decide)

end ResponseWrites
