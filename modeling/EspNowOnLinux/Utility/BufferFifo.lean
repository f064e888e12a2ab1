import EspNowOnLinux.Lib.BoundedFifo
import EspNowOnLinux.Utility.ReceivingBuffer

/-!
# The receiving buffer as a queue

`receiving_buffer` under any sequence of its operations, called as they have to be: nothing is
committed that does not fit in the writable span, and nothing is consumed that is not there. The
specification is a bounded queue of bytes, which knows nothing of indices and of the free space
behind the data.

## Main results

* `represents_step`: every operation does to the data what the queue's operation does;
* `represents_run`: so does every run;
* `exists_run_of_fifo`: no capacity is lost, as the buffer can follow every run of the queue if the
  data is moved to the front before each operation;
* `refines_fifo`: after every run the indices are in order and the data is what was committed since
  the last reset, without what was consumed.
-/

open StateMachine

namespace ReceivingBuffer

variable {capacity : ℕ}

/-- A call by the buffer's user. -/
inductive Operation
  /-- The caller fills the start of the writable span with `bytes` and commits them. -/
  | commit (bytes : List UInt8)
  | consume (amount : ℕ)
  | moveDataToFront
  | reset
  deriving DecidableEq

/-- The buffer after a call; `none` is a call that commits or consumes more than there is. -/
def step (b : ReceivingBuffer capacity) : Operation → Option (ReceivingBuffer capacity)
  | .commit bytes =>
      if bytes.length ≤ b.getWritable.length then some ((b.fill bytes).commit bytes.length)
      else none
  | .consume amount => if amount ≤ b.getData.length then some (b.consume amount) else none
  | .moveDataToFront => some b.moveDataToFront
  | .reset => some b.reset

namespace Operation

/-- What a call means for the queue. -/
def fifo : Operation → List (BoundedFifo.Operation UInt8)
  | commit bytes => [.push bytes]
  | consume amount => [.pop amount]
  | moveDataToFront => []
  | reset => [.clear]

/-- The call that does what an operation of the queue does, with the data at the front. -/
def compacted : BoundedFifo.Operation UInt8 → List Operation
  | .push bytes => [moveDataToFront, commit bytes]
  | .pop amount => [consume amount]
  | .clear => [reset]

end Operation

/-- The bytes that were committed since the last `reset`, in order. -/
def committed (ops : List Operation) : List UInt8 :=
  BoundedFifo.pushed (ops.flatMap Operation.fifo)

/-- How many bytes were consumed since the last `reset`. -/
def consumed (ops : List Operation) : ℕ := BoundedFifo.popped (ops.flatMap Operation.fifo)

/-- The buffer holds the contents of the queue. -/
structure Represents (b : ReceivingBuffer capacity) (q : BoundedFifo UInt8 capacity) : Prop where
  wellFormed : b.WellFormed
  getData_eq : b.getData = q.contents

/-! ## Single operations -/

theorem getData_reset (b : ReceivingBuffer capacity) : b.reset.getData = [] := by
  simp only [getData, reset, Nat.sub_self, List.take_zero]

theorem wellFormed_reset (b : ReceivingBuffer capacity) : b.reset.WellFormed :=
  ⟨le_rfl, Nat.zero_le _⟩

/-- With the data at the front, the rest of the array is writable. -/
theorem WellFormed.length_getWritable_moveDataToFront {b : ReceivingBuffer capacity}
    (h : b.WellFormed) :
    b.moveDataToFront.getWritable.length = capacity - b.getData.length := by
  rw [length_getWritable, h.moveDataToFront.writeIndex_eq (readIndex_moveDataToFront b),
    h.getData_moveDataToFront]

theorem represents_new (contents : List.Vector UInt8 capacity) :
    Represents (new contents) .empty := by
  refine ⟨wellFormed_new contents, ?_⟩
  simp only [getData, new, Nat.sub_self, List.take_zero]
  rfl

variable {b b' : ReceivingBuffer capacity} {q q' : BoundedFifo UInt8 capacity}

/-- The queue that a buffer holds. -/
theorem WellFormed.exists_represents (h : b.WellFormed) :
    ∃ q : BoundedFifo UInt8 capacity, b.Represents q :=
  ⟨⟨b.getData, b.length_getData_le⟩, h, rfl⟩

/-- What a call can do. -/
theorem step_cases {op : Operation} (h : b.step op = some b') :
    (∃ bytes, op = .commit bytes ∧ bytes.length ≤ b.getWritable.length ∧
        b' = (b.fill bytes).commit bytes.length) ∨
      (∃ amount, op = .consume amount ∧ amount ≤ b.getData.length ∧ b' = b.consume amount) ∨
      (op = .moveDataToFront ∧ b' = b.moveDataToFront) ∨ (op = .reset ∧ b' = b.reset) := by
  cases op with
  | commit bytes =>
      rw [step, Option.ite_none_right_eq_some] at h
      exact Or.inl ⟨bytes, rfl, h.1, (Option.some.inj h.2).symm⟩
  | consume amount =>
      rw [step, Option.ite_none_right_eq_some] at h
      exact Or.inr (Or.inl ⟨amount, rfl, h.1, (Option.some.inj h.2).symm⟩)
  | moveDataToFront => exact Or.inr (Or.inr (Or.inl ⟨rfl, (Option.some.inj h).symm⟩))
  | reset => exact Or.inr (Or.inr (Or.inr ⟨rfl, (Option.some.inj h).symm⟩))

/-- A call keeps the indices in order. -/
theorem WellFormed.step {op : Operation} (h : b.WellFormed) (hstep : b.step op = some b') :
    b'.WellFormed := by
  rcases step_cases hstep with ⟨bytes, -, hfits, rfl⟩ | ⟨amount, -, hle, rfl⟩ | ⟨-, rfl⟩ | ⟨-, rfl⟩
  · exact h.fill_commit hfits
  · exact h.consume hle
  · exact h.moveDataToFront
  · exact wellFormed_reset b

/-- A call does to the data what it means for the queue. -/
theorem represents_step (op : Operation) (h : b.Represents q) (hstep : b.step op = some b') :
    ∃ q', run BoundedFifo.step q op.fifo = some q' ∧ b'.Represents q' := by
  obtain ⟨q', hq'⟩ := (h.wellFormed.step hstep).exists_represents
  have hdata := hq'.getData_eq
  refine ⟨q', ?_, hq'⟩
  rcases step_cases hstep with
    ⟨bytes, rfl, hfits, rfl⟩ | ⟨amount, rfl, hle, rfl⟩ | ⟨rfl, rfl⟩ | ⟨rfl, rfl⟩
  · rw [h.wellFormed.getData_fill_commit hfits, h.getData_eq] at hdata
    rw [Operation.fifo, run_cons, BoundedFifo.step_push hdata.symm]
    rfl
  · rw [getData_consume, h.getData_eq] at hdata
    rw [h.getData_eq] at hle
    rw [Operation.fifo, run_cons, BoundedFifo.step_pop hle hdata.symm]
    rfl
  -- the queue does not move
  · rw [h.wellFormed.getData_moveDataToFront, h.getData_eq] at hdata
    rw [Operation.fifo, run_nil, BoundedFifo.ext hdata]
  · rw [getData_reset] at hdata
    rw [Operation.fifo, run_cons, BoundedFifo.step_clear hdata.symm]
    rfl

/-- What the queue can do, the buffer can do with its data at the front. -/
theorem represents_compacted (op : BoundedFifo.Operation UInt8) (h : b.Represents q)
    (hstep : q.step op = some q') :
    ∃ b', run ReceivingBuffer.step b (Operation.compacted op) = some b' ∧ b'.Represents q' := by
  rcases BoundedFifo.step_cases hstep with ⟨bytes, rfl, hq'⟩ | ⟨n, rfl, hn, hq'⟩ | ⟨rfl, hq'⟩
  -- with the data at the front, what is writable is all that the capacity leaves
  · have hfront := h.wellFormed.moveDataToFront
    have hfits : bytes.length ≤ b.moveDataToFront.getWritable.length := by
      have hle := q'.length_le
      rw [hq', List.length_append] at hle
      rw [h.wellFormed.length_getWritable_moveDataToFront, h.getData_eq]
      omega
    refine ⟨(b.moveDataToFront.fill bytes).commit bytes.length, ?_, hfront.fill_commit hfits, ?_⟩
    · rw [Operation.compacted, run_cons, step, Option.bind_some, run_cons, step, if_pos hfits]
      rfl
    · rw [hfront.getData_fill_commit hfits, h.wellFormed.getData_moveDataToFront, h.getData_eq, hq']
  · have hle : n ≤ b.getData.length := h.getData_eq ▸ hn
    refine ⟨b.consume n, ?_, h.wellFormed.consume hle, ?_⟩
    · rw [Operation.compacted, run_cons, step, if_pos hle]
      rfl
    · rw [getData_consume, h.getData_eq, hq']
  · exact ⟨b.reset, rfl, wellFormed_reset b, (getData_reset b).trans hq'.symm⟩

/-! ## Runs -/

variable (contents : List.Vector UInt8 capacity)

/-- A run of the buffer is a run of the queue. -/
theorem represents_run {ops : List Operation} (h : run step (new contents) ops = some b) :
    ∃ q : BoundedFifo UInt8 capacity,
      run BoundedFifo.step .empty (ops.flatMap Operation.fifo) = some q ∧ b.Represents q :=
  run_simulation (fun _ op _ _ hR hstep => represents_step op hR hstep) (represents_new contents) h

/-- A run of the queue is a run of the buffer that moves the data to the front as needed. -/
theorem exists_run_of_fifo {ops : List (BoundedFifo.Operation UInt8)}
    (h : run BoundedFifo.step .empty ops = some q) :
    ∃ b, run step (new contents) (ops.flatMap Operation.compacted) = some b ∧
      b.Represents q := by
  have hsim : ∀ (q : BoundedFifo UInt8 capacity) op q' (b : ReceivingBuffer capacity),
      b.Represents q → q.step op = some q' →
      ∃ b', run step b (Operation.compacted op) = some b' ∧ b'.Represents q' :=
    fun _ op _ _ hR hstep => represents_compacted op hR hstep
  exact run_simulation hsim (represents_new contents) h

/-- For every capacity and every sequence of calls: afterwards the indices are in order and within
the array, and the data is what was committed since the last `reset`, in order, without what was
consumed, just as in a queue. Moving it to the front keeps it and leaves the rest of the array
writable. -/
theorem refines_fifo (ops : List Operation) (h : run step (new contents) ops = some b) :
    (b.readIndex ≤ b.writeIndex ∧ b.writeIndex ≤ capacity) ∧
      b.getData = (committed ops).drop (consumed ops) ∧
      consumed ops ≤ (committed ops).length ∧
      b.moveDataToFront.getData = b.getData ∧
      b.moveDataToFront.getWritable.length = capacity - b.getData.length ∧
      ∃ q : BoundedFifo UInt8 capacity,
        run BoundedFifo.step .empty (ops.flatMap Operation.fifo) = some q ∧
        q.contents = b.getData := by
  obtain ⟨q, hq, hwell, hdata⟩ := represents_run contents h
  obtain ⟨hle, hcontents⟩ := BoundedFifo.contents_run hq
  refine ⟨⟨hwell.read_le, hwell.write_le⟩, hdata.trans hcontents, hle, ?_, ?_, q, hq, hdata.symm⟩
  · exact hwell.getData_moveDataToFront
  · exact hwell.length_getWritable_moveDataToFront

/-- An array of four bytes is filled, two of them are consumed, and the others are moved to the
front, which makes room for two more. -/
theorem refines_fifo_moved :
    let contents : List.Vector UInt8 4 := .replicate 4 0
    let ops : List Operation :=
      [.commit [9], .reset, .commit [1, 2, 3, 4], .consume 2, .moveDataToFront, .commit [5, 6]]
    ∃ b, run step (new contents) ops = some b ∧
      b.getData = (committed ops).drop (consumed ops) ∧ b.getData = [3, 4, 5, 6] := by
  intro contents ops
  have hrun : (run step (new contents) ops).map (fun b => b.getData) = some [3, 4, 5, 6] := by
    decide
  obtain ⟨b, hb, hdata⟩ := Option.map_eq_some_iff.mp hrun
  exact ⟨b, hb, (refines_fifo contents ops hb).2.1, hdata⟩

end ReceivingBuffer
