import EspNowOnLinux.Lib.StateMachine
import Mathlib.Data.List.Infix

/-!
# A queue drained by asynchronous writes

Buffers are pushed to the back of a queue, an asynchronous write transfers the buffer that was at
the front when it was started, and the completion of a write pops the front and starts the next.
The operations are separate (`push`, `startWrite`, `transfer`, `popFront`), so that different
disciplines of calling them can be described.

Here `write` starts an operation on every push. That is right exactly when no operation is
outstanding:

* `SingleFlight` is the invariant of the runs in which every push meets an empty queue
  (`singleFlight_step`); in it every buffer is transferred once and in order;
* after a push to a queue that is not empty, the first completion pops a buffer that another
  outstanding operation refers to (`Overlapping.complete`), and the completions outnumber the
  buffers (`Crowded.complete`).

The two conclusions are `refersLive_iff_idleWrites` and `neverDry_iff_idleWrites`. They hold for
every completion handler that pops and restarts while the queue is not empty, whatever it does when
the queue is empty.
-/

/-- A queue of buffers and the asynchronous writes started on it. -/
structure AsyncQueue (α : Type*) where
  /-- The buffers in the queue. -/
  queue : List α
  /-- The outstanding operations in the order they were started. Each refers to a buffer by the
  number of buffers pushed before it and carries what the buffer held. -/
  inFlight : List (ℕ × α)
  /-- The number of buffers removed from the front so far. -/
  popped : ℕ
  /-- Every buffer pushed so far, in order. -/
  accepted : List α
  /-- What the completed operations transferred, in order. -/
  written : List α
  deriving DecidableEq, Repr

namespace AsyncQueue

variable {α : Type*}

/-- The queue before the first push. -/
def empty : AsyncQueue α := ⟨[], [], 0, [], []⟩

/-- Push a buffer to the back of the queue. -/
def push (q : AsyncQueue α) (x : α) : AsyncQueue α :=
  { q with queue := q.queue ++ [x], accepted := q.accepted ++ [x] }

/-- Start an operation on the buffer at the front, if there is one. -/
def startWrite (q : AsyncQueue α) : AsyncQueue α :=
  match q.queue with
  | [] => q
  | x :: _ => { q with inFlight := q.inFlight ++ [(q.popped, x)] }

/-- Remove the buffer at the front; undefined on an empty queue. -/
def popFront (q : AsyncQueue α) : Option (AsyncQueue α) :=
  match q.queue with
  | [] => none
  | _ :: xs => some { q with queue := xs, popped := q.popped + 1 }

/-- The outstanding operation that was started first has transferred its buffer. -/
def transfer (q : AsyncQueue α) : Option (AsyncQueue α) :=
  match q.inFlight with
  | [] => none
  | op :: ops => some { q with inFlight := ops, written := q.written ++ [op.2] }

/-- Push a buffer and start an operation. -/
def write (q : AsyncQueue α) (x : α) : AsyncQueue α := (q.push x).startWrite

/-- Pop the front and start the next operation. -/
def popAndRestart (q : AsyncQueue α) : Option (AsyncQueue α) := q.popFront.map startWrite

/-- What can happen to the queue. -/
inductive Event (α : Type*)
  /-- A buffer is written. -/
  | write (x : α)
  /-- The outstanding operation that was started first completes. -/
  | complete
  deriving DecidableEq, Repr

/-- The buffers that a list of events writes. -/
def writes (es : List (Event α)) : List α :=
  es.filterMap fun
    | .write x => some x
    | .complete => none

/-- The queue under a completion handler `finish`. -/
def step (finish : AsyncQueue α → Option (AsyncQueue α)) (q : AsyncQueue α) :
    Event α → Option (AsyncQueue α)
  | .write x => some (q.write x)
  | .complete => q.transfer.bind finish

/-- Every outstanding operation refers to a buffer that is still in the queue. -/
def RefersLive (q : AsyncQueue α) : Prop :=
  ∀ op ∈ q.inFlight, q.popped ≤ op.1 ∧ op.1 < q.popped + q.queue.length

/-- A completion that can arrive finds a buffer to pop. -/
def NeverDry (q : AsyncQueue α) : Prop := q.inFlight ≠ [] → q.queue ≠ []

/-- The buffers transferred are a prefix of the buffers pushed, and all of them once no operation
is outstanding. -/
def InOrder (q : AsyncQueue α) : Prop :=
  q.written <+: q.accepted ∧ (q.inFlight = [] → q.written = q.accepted)

/-- The queue has taken in just this buffer, behind those that were in it, and an operation has been
started on the buffer that is at the front. -/
structure Takes (q : AsyncQueue α) (x : α) (q' : AsyncQueue α) : Prop where
  /-- The buffer is the last one in the queue. -/
  queue_eq : q'.queue = q.queue ++ [x]
  /-- No other buffer has been accepted. -/
  accepted_eq : q'.accepted = q.accepted ++ [x]
  /-- The operation refers to the front. -/
  inFlight_eq : ∃ y, (q.queue ++ [x]).head? = some y ∧ q'.inFlight = q.inFlight ++ [(q.popped, y)]
  /-- Nothing has been removed. -/
  popped_eq : q'.popped = q.popped
  /-- Nothing has been transferred. -/
  written_eq : q'.written = q.written

/-- A buffer is written only while the queue is empty. -/
def IdleWrite (q : AsyncQueue α) : Event α → Prop
  | .write _ => q.queue = []
  | .complete => True

/-! ## One operation at a time -/

/-- At most one buffer is in the queue, one operation refers to it, and everything pushed before it
has been transferred. -/
structure SingleFlight (q : AsyncQueue α) : Prop where
  /-- At most one buffer is queued. -/
  length_le : q.queue.length ≤ 1
  /-- The queued buffer is being written. -/
  inFlight_eq : q.inFlight = q.queue.map fun x => (q.popped, x)
  /-- The other buffers have been written. -/
  accepted_eq : q.accepted = q.written ++ q.queue

theorem singleFlight_empty : SingleFlight (empty : AsyncQueue α) := ⟨by simp [empty], rfl, rfl⟩

/-- The two shapes of a queue with at most one operation. -/
theorem SingleFlight.cases {q : AsyncQueue α} (h : SingleFlight q) :
    (q.queue = [] ∧ q.inFlight = [] ∧ q.accepted = q.written) ∨
      ∃ x, q.queue = [x] ∧ q.inFlight = [(q.popped, x)] ∧ q.accepted = q.written ++ [x] := by
  obtain ⟨hlen, hfly, hacc⟩ := h
  match hq : q.queue with
  | [] => exact Or.inl ⟨rfl, by rw [hfly, hq]; rfl, by rw [hacc, hq, List.append_nil]⟩
  | [x] => exact Or.inr ⟨x, rfl, by rw [hfly, hq]; rfl, by rw [hacc, hq]⟩
  | _ :: _ :: _ => rw [hq] at hlen; simp at hlen

theorem SingleFlight.refersLive {q : AsyncQueue α} (h : SingleFlight q) : RefersLive q := by
  rcases h.cases with ⟨-, hfly, -⟩ | ⟨x, hq, hfly, -⟩
  · simp [RefersLive, hfly]
  · simp [RefersLive, hq, hfly]

theorem SingleFlight.neverDry {q : AsyncQueue α} (h : SingleFlight q) : NeverDry q := by
  rcases h.cases with ⟨-, hfly, -⟩ | ⟨x, hq, -, -⟩
  · exact fun hne => absurd hfly hne
  · simp [NeverDry, hq]

theorem SingleFlight.inOrder {q : AsyncQueue α} (h : SingleFlight q) : InOrder q := by
  refine ⟨⟨q.queue, h.accepted_eq.symm⟩, fun hfly => ?_⟩
  rcases h.cases with ⟨-, -, hacc⟩ | ⟨x, -, hone, -⟩
  · exact hacc.symm
  · rw [hone] at hfly
    cases hfly

/-- The number of buffers pushed is the number transferred plus the number still queued. -/
theorem SingleFlight.length_accepted {q : AsyncQueue α} (h : SingleFlight q) :
    q.accepted.length = q.written.length + q.queue.length := by
  rw [h.accepted_eq, List.length_append]

/-- The effect of a write on an empty queue. -/
theorem write_of_idle {q : AsyncQueue α} (x : α) (hq : q.queue = []) :
    q.write x = { q with queue := [x], inFlight := q.inFlight ++ [(q.popped, x)],
                         accepted := q.accepted ++ [x] } := by
  simp [write, push, startWrite, hq]

/-- The effect of a write on a queue that is not empty: the operation started is again one on the
front. -/
theorem write_of_cons {q : AsyncQueue α} {y : α} {ys : List α} (x : α) (hq : q.queue = y :: ys) :
    q.write x = { q with queue := y :: (ys ++ [x]), inFlight := q.inFlight ++ [(q.popped, y)],
                         accepted := q.accepted ++ [x] } := by
  simp [write, push, startWrite, hq]

/-- What a write does to the queue. -/
theorem takes_write (q : AsyncQueue α) (x : α) : q.Takes x (q.write x) := by
  cases hq : q.queue with
  | nil =>
      rw [write_of_idle x hq]
      exact ⟨by rw [hq]; rfl, rfl, ⟨x, by rw [hq]; rfl, rfl⟩, rfl, rfl⟩
  | cons y ys =>
      rw [write_of_cons x hq]
      exact ⟨by rw [hq]; rfl, rfl, ⟨y, by rw [hq]; rfl, rfl⟩, rfl, rfl⟩

@[simp]
theorem accepted_write (q : AsyncQueue α) (x : α) : (q.write x).accepted = q.accepted ++ [x] :=
  (q.takes_write x).accepted_eq

@[simp]
theorem accepted_startWrite (q : AsyncQueue α) : q.startWrite.accepted = q.accepted := by
  unfold startWrite
  split <;> rfl

@[simp]
theorem queue_startWrite (q : AsyncQueue α) : q.startWrite.queue = q.queue := by
  unfold startWrite
  split <;> rfl

@[simp]
theorem popped_startWrite (q : AsyncQueue α) : q.startWrite.popped = q.popped := by
  unfold startWrite
  split <;> rfl

theorem accepted_of_transfer {q t : AsyncQueue α} (h : q.transfer = some t) :
    t.accepted = q.accepted := by
  unfold transfer at h
  split at h <;> simp only [Option.some.injEq, reduceCtorEq] at h
  rw [← h]

theorem accepted_of_popAndRestart {q t : AsyncQueue α} (h : q.popAndRestart = some t) :
    t.accepted = q.accepted := by
  unfold popAndRestart popFront at h
  split at h <;> simp only [Option.map_none, Option.map_some, Option.some.injEq, reduceCtorEq] at h
  rw [← h, accepted_startWrite]

/-- An operation is started iff the queue is not empty. -/
theorem length_inFlight_startWrite (q : AsyncQueue α) :
    q.startWrite.inFlight.length = q.inFlight.length + if q.queue = [] then 0 else 1 := by
  unfold startWrite
  split <;> rename_i h <;> simp [h]

/-- The buffers pushed along a run are the ones its events write. -/
theorem accepted_run {finish : AsyncQueue α → Option (AsyncQueue α)}
    (hacc : ∀ q t, finish q = some t → t.accepted = q.accepted) {q t : AsyncQueue α}
    {es : List (Event α)} (hrun : StateMachine.run (step finish) q es = some t) :
    t.accepted = q.accepted ++ writes es := by
  induction es generalizing q with
  | nil =>
      obtain rfl : q = t := Option.some.inj hrun
      exact (List.append_nil _).symm
  | cons e es ih =>
      obtain ⟨u, hu, htail⟩ := StateMachine.run_cons_eq_some.mp hrun
      cases e with
      | write x =>
          obtain rfl : q.write x = u := Option.some.inj hu
          rw [ih htail, accepted_write, List.append_assoc]
          rfl
      | complete =>
          obtain ⟨r, hr, hfin⟩ := Option.bind_eq_some_iff.mp hu
          rw [ih htail, hacc r u hfin, accepted_of_transfer hr]
          rfl

section Step

variable {finish : AsyncQueue α → Option (AsyncQueue α)}
  (hfin : ∀ q, q.queue ≠ [] → finish q = q.popAndRestart)

include hfin

/-- A completion that finds a buffer: the operation's buffer is transferred, the front is popped and
the next operation started. -/
theorem step_complete {q : AsyncQueue α} {op : ℕ × α} {ops : List (ℕ × α)} {x : α} {xs : List α}
    (hfly : q.inFlight = op :: ops) (hq : q.queue = x :: xs) :
    step finish q .complete =
      some (startWrite { q with queue := xs, inFlight := ops, popped := q.popped + 1,
                                written := q.written ++ [op.2] }) := by
  have hne : q.queue ≠ [] := by simp [hq]
  simp only [step, transfer, hfly, Option.bind_some]
  rw [hfin { q with inFlight := ops, written := q.written ++ [op.2] } hne]
  simp [popAndRestart, popFront, hq]

/-- Steps that write only while the queue is empty keep one operation at a time. -/
theorem singleFlight_step (q : AsyncQueue α) (e : Event α) (t : AsyncQueue α)
    (h : SingleFlight q) (hC : IdleWrite q e) (ht : step finish q e = some t) :
    SingleFlight t := by
  rcases h.cases with ⟨hq, hfly, hacc⟩ | ⟨x, hq, hfly, hacc⟩
  -- nothing is outstanding: only a write can happen
  · cases e with
    | write x =>
        obtain rfl : q.write x = t := Option.some.inj ht
        rw [write_of_idle x hq]
        exact ⟨by simp, by simp [hfly], by simp [hacc]⟩
    | complete => simp [step, transfer, hfly] at ht
  -- one operation is outstanding: its completion empties the queue and starts none
  · cases e with
    | write y => simp [IdleWrite, hq] at hC
    | complete =>
        rw [step_complete hfin hfly hq, Option.some.injEq] at ht
        subst ht
        exact ⟨by simp [startWrite], by simp [startWrite], by simp [startWrite, hacc]⟩

/-! ## Two operations on one buffer -/

omit hfin in
/-- The two operations started first both refer to the buffer at the front. -/
def Overlapping (q : AsyncQueue α) : Prop :=
  q.queue ≠ [] ∧ ∃ x y ops, q.inFlight = (q.popped, x) :: (q.popped, y) :: ops

omit hfin in
/-- A write to a queue that is not empty starts a second operation on its front. -/
theorem SingleFlight.overlapping_write {q : AsyncQueue α} (h : SingleFlight q) (x : α)
    (hq : q.queue ≠ []) : Overlapping (q.write x) := by
  rcases h.cases with ⟨hnil, -, -⟩ | ⟨y, hone, hfly, -⟩
  · exact absurd hnil hq
  · rw [write_of_cons x hone]
    exact ⟨by simp, y, y, [], by simp [hfly]⟩

omit hfin in
/-- Further writes leave the first two operations as they are. -/
theorem Overlapping.write {q : AsyncQueue α} (h : Overlapping q) (x : α) :
    Overlapping (q.write x) := by
  obtain ⟨hq, y, z, ops, hfly⟩ := h
  obtain ⟨w, ws, hcons⟩ := List.exists_cons_of_ne_nil hq
  rw [write_of_cons x hcons]
  exact ⟨by simp, y, z, ops ++ [(q.popped, w)], by simp [hfly]⟩

/-- The first completion pops the buffer that the second operation refers to. -/
theorem Overlapping.complete {q : AsyncQueue α} (h : Overlapping q) :
    ∃ t, step finish q .complete = some t ∧ ¬ RefersLive t := by
  obtain ⟨hq, y, z, ops, hfly⟩ := h
  obtain ⟨w, ws, hcons⟩ := List.exists_cons_of_ne_nil hq
  refine ⟨_, step_complete hfin hfly hcons, fun hlive => ?_⟩
  -- the second operation is still outstanding, and its buffer has been popped
  have hmem : (q.popped, z) ∈ (startWrite { q with
      queue := ws, inFlight := (q.popped, z) :: ops, popped := q.popped + 1,
      written := q.written ++ [y] }).inFlight := by
    unfold startWrite
    split <;> simp
  have hle := (hlive _ hmem).1
  rw [popped_startWrite] at hle
  exact absurd hle (Nat.not_succ_le_self q.popped)

/-- No way to complete what is outstanding keeps every operation on a queued buffer. -/
theorem Overlapping.not_drained {P : AsyncQueue α → Prop} (hP : ∀ q, P q → RefersLive q)
    {q : AsyncQueue α} (h : Overlapping q) (es : List (Event α)) :
    ¬ StateMachine.AlwaysDrained (step finish) P .complete q es := by
  induction es generalizing q with
  | nil =>
      intro hd
      obtain ⟨t, ht, hdead⟩ := h.complete hfin
      exact hdead (hP t (hd.drain ht).head)
  | cons e es ih =>
      intro hd
      cases e with
      | write x => exact ih (h.write x) (hd.tail rfl)
      | complete =>
          obtain ⟨t, ht, hdead⟩ := h.complete hfin
          exact hdead (hP t (hd.tail ht).head)

/-- Buffers are transferred once, in order and from the queue, in a run and while it is drained,
iff each of them was written while the queue was empty. -/
theorem refersLive_iff_idleWrites {q : AsyncQueue α} (hq : SingleFlight q) (es : List (Event α)) :
    StateMachine.AlwaysDrained (step finish) (fun q => RefersLive q ∧ InOrder q) .complete q es ↔
      StateMachine.EachStep (step finish) IdleWrite q es := by
  refine StateMachine.alwaysDrained_iff_eachStep (singleFlight_step hfin) ?_ ?_ ?_ hq es
  · exact fun q h => ⟨h.refersLive, h.inOrder⟩
  · exact fun _ => trivial
  intro q e t es h hC ht
  cases e with
  | write x =>
      obtain rfl : q.write x = t := Option.some.inj ht
      exact (h.overlapping_write x hC).not_drained hfin (fun _ hP => hP.1) es
  | complete => exact absurd trivial hC

/-! ## More operations than buffers -/

omit hfin in
/-- At least two operations are outstanding, and at least as many as there are buffers. -/
def Crowded (q : AsyncQueue α) : Prop :=
  q.queue.length ≤ q.inFlight.length ∧ 2 ≤ q.inFlight.length

omit hfin in
theorem SingleFlight.crowded_write {q : AsyncQueue α} (h : SingleFlight q) (x : α)
    (hq : q.queue ≠ []) : Crowded (q.write x) := by
  rcases h.cases with ⟨hnil, -, -⟩ | ⟨y, hone, hfly, -⟩
  · exact absurd hnil hq
  · rw [write_of_cons x hone]
    exact ⟨by simp [hfly], by simp [hfly]⟩

omit hfin in
theorem Crowded.write {q : AsyncQueue α} (h : Crowded q) (x : α) : Crowded (q.write x) := by
  obtain ⟨hle, htwo⟩ := h
  cases hq : q.queue with
  | nil =>
      rw [write_of_idle x hq]
      exact ⟨by simp, by simp; omega⟩
  | cons y ys =>
      rw [hq] at hle
      rw [write_of_cons x hq]
      exact ⟨by simpa using hle, by simp; omega⟩

/-- A completion takes a buffer away; only with the last one it leaves an operation less. -/
theorem Crowded.complete {q : AsyncQueue α} (h : Crowded q) (hq : q.queue ≠ []) :
    ∃ t, step finish q .complete = some t ∧ t.queue.length + 1 = q.queue.length ∧
      (Crowded t ∨ ¬ NeverDry t) := by
  obtain ⟨hle, htwo⟩ := h
  obtain ⟨x, xs, hcons⟩ := List.exists_cons_of_ne_nil hq
  obtain ⟨op, ops, hfly⟩ := List.exists_cons_of_ne_nil (List.ne_nil_of_length_pos
    (by omega : 0 < q.inFlight.length))
  refine ⟨_, step_complete hfin hfly hcons, by simp [hcons], ?_⟩
  rw [hfly, hcons] at hle
  rw [hfly] at htwo
  simp only [List.length_cons] at hle htwo
  -- with the last buffer gone nothing is restarted, but an operation is still outstanding
  cases xs with
  | nil =>
      refine Or.inr fun hdry => hdry ?_ (by simp)
      apply List.ne_nil_of_length_pos
      rw [length_inFlight_startWrite]
      simp only [↓reduceIte]
      omega
  | cons z zs =>
      refine Or.inl ⟨?_, ?_⟩ <;> rw [length_inFlight_startWrite] <;>
        simp only [queue_startWrite, List.length_cons, reduceCtorEq, ↓reduceIte] at hle ⊢ <;> omega

/-- Completing what is outstanding empties the queue before the operations are used up. -/
theorem Crowded.not_drained {P : AsyncQueue α → Prop} (hP : ∀ q, P q → NeverDry q)
    {q : AsyncQueue α} (h : Crowded q) (es : List (Event α)) :
    ¬ StateMachine.AlwaysDrained (step finish) P .complete q es := by
  have hne : ∀ {q : AsyncQueue α}, Crowded q → P q → q.queue ≠ [] := fun h hPq =>
    hP _ hPq (List.ne_nil_of_length_pos (Nat.lt_of_lt_of_le Nat.zero_lt_two h.2))
  induction es generalizing q with
  | nil =>
      -- after the run: by induction on the number of buffers left
      induction hn : q.queue.length generalizing q with
      | zero =>
          exact fun hd => hne h hd.head (List.length_eq_zero_iff.mp hn)
      | succ n ih =>
          intro hd
          obtain ⟨t, ht, hlen, hcrowded | hdry⟩ := h.complete hfin (hne h hd.head)
          · exact ih hcrowded (by omega) (hd.drain ht)
          · exact hdry (hP t (hd.drain ht).head)
  | cons e es ih =>
      intro hd
      cases e with
      | write x => exact ih (h.write x) (hd.tail rfl)
      | complete =>
          obtain ⟨t, ht, -, hcrowded | hdry⟩ := h.complete hfin (hne h hd.head)
          · exact ih hcrowded (hd.tail ht)
          · exact hdry (hP t (hd.tail ht).head)

/-- No completion finds the queue empty, and buffers are transferred once and in order, in a run and
while it is drained, iff each of them was written while the queue was empty. -/
theorem neverDry_iff_idleWrites {q : AsyncQueue α} (hq : SingleFlight q) (es : List (Event α)) :
    StateMachine.AlwaysDrained (step finish) (fun q => NeverDry q ∧ q.written <+: q.accepted ∧
        q.accepted.length = q.written.length + q.queue.length) .complete q es ↔
      StateMachine.EachStep (step finish) IdleWrite q es := by
  refine StateMachine.alwaysDrained_iff_eachStep (singleFlight_step hfin) ?_ ?_ ?_ hq es
  · exact fun q h => ⟨h.neverDry, h.inOrder.1, h.length_accepted⟩
  · exact fun _ => trivial
  intro q e t es h hC ht
  cases e with
  | write x =>
      obtain rfl : q.write x = t := Option.some.inj ht
      exact (h.crowded_write x hC).not_drained hfin (fun _ hP => hP.1) es
  | complete => exact absurd trivial hC

end Step

end AsyncQueue
