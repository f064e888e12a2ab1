import EspNowOnLinux.Lib.AsyncQueue

/-!
# Asynchronous writes that fail

An `AsyncQueue` whose operations may also fail. An operation that fails transfers nothing, and what
becomes of its buffer depends on the handler:

* one that pops and restarts as after a success loses the buffer, and goes on with the next one
  (`Lossy`);
* one that returns leaves the buffer at the front, and the queue at rest until the next push, which
  writes it again (`Retrying`).

In both cases one operation is outstanding at a time, which is what the conditions are about.

## Main results

* `lossy_run`: what is lost is the buffers whose operations failed, and nothing else;
* `retrying_step`: nothing is lost, duplicated or reordered;
* `Retrying.resume`: the next push restarts the queue, and operations that succeed empty it.
-/

open StateMachine

namespace AsyncQueue

variable {α : Type*}

/-- The outstanding operation that was started first has failed, and has transferred nothing. -/
def abort (q : AsyncQueue α) : Option (AsyncQueue α) :=
  match q.inFlight with
  | [] => none
  | _ :: ops => some { q with inFlight := ops }

/-- What can happen to the queue. -/
inductive FailingEvent (α : Type*)
  /-- A buffer is written, or an operation succeeds. -/
  | event (e : Event α)
  /-- The outstanding operation that was started first fails. -/
  | fail
  deriving DecidableEq

/-- The queue under a handler `finish` of operations that have succeeded and a handler `abandon` of
operations that have failed. -/
def failingStep (finish abandon : AsyncQueue α → Option (AsyncQueue α)) (q : AsyncQueue α) :
    FailingEvent α → Option (AsyncQueue α)
  | .event e => step finish q e
  | .fail => q.abort.bind abandon

/-- How the operations have ended, in order. -/
def outcomes (es : List (FailingEvent α)) : List Bool :=
  es.filterMap fun
    | .event .complete => some true
    | .fail => some false
    | .event (.write _) => none

theorem outcomes_concat (es : List (FailingEvent α)) (e : FailingEvent α) :
    outcomes (es ++ [e]) = outcomes es ++ outcomes [e] := List.filterMap_append

/-- The buffers that a list of events writes. -/
def failingWrites (es : List (FailingEvent α)) : List α :=
  es.filterMap fun
    | .event (.write x) => some x
    | .event .complete | .fail => none

theorem accepted_of_abort {q t : AsyncQueue α} (h : q.abort = some t) :
    t.accepted = q.accepted := by
  unfold abort at h
  split at h <;> simp only [Option.some.injEq, reduceCtorEq] at h
  rw [← h]

/-- The buffers pushed along a run are the ones its events write. -/
theorem accepted_failingRun {finish abandon : AsyncQueue α → Option (AsyncQueue α)}
    (hfinish : ∀ q t, finish q = some t → t.accepted = q.accepted)
    (habandon : ∀ q t, abandon q = some t → t.accepted = q.accepted) {q t : AsyncQueue α}
    {es : List (FailingEvent α)} (hrun : run (failingStep finish abandon) q es = some t) :
    t.accepted = q.accepted ++ failingWrites es := by
  induction es generalizing q with
  | nil =>
      obtain rfl : q = t := Option.some.inj hrun
      exact (List.append_nil _).symm
  | cons e es ih =>
      obtain ⟨u, hu, htail⟩ := run_cons_eq_some.mp hrun
      match e with
      -- only a write pushes
      | .event (.write x) =>
          obtain rfl : q.write x = u := Option.some.inj hu
          rw [ih htail, accepted_write, List.append_assoc]
          rfl
      | .event .complete =>
          obtain ⟨r, hr, hfin⟩ := Option.bind_eq_some_iff.mp hu
          rw [ih htail, hfinish r u hfin, accepted_of_transfer hr]
          rfl
      | .fail =>
          obtain ⟨r, hr, hfin⟩ := Option.bind_eq_some_iff.mp hu
          rw [ih htail, habandon r u hfin, accepted_of_abort hr]
          rfl

/-! ## A handler that goes on -/

/-- At most one buffer is in the queue, and one operation refers to it. The others have been
written, except those whose operations failed. -/
structure Lossy (os : List Bool) (q : AsyncQueue α) : Prop where
  length_le : q.queue.length ≤ 1
  inFlight_eq : q.inFlight = q.queue.map fun x => (q.popped, x)
  /-- Each buffer with the outcome of its operation. -/
  done : ∃ done : List (α × Bool), q.accepted = done.map Prod.fst ++ q.queue ∧
    os = done.map Prod.snd ∧ q.written = (done.filter Prod.snd).map Prod.fst

theorem lossy_empty : Lossy (outcomes ([] : List (FailingEvent α))) (empty : AsyncQueue α) :=
  ⟨Nat.zero_le 1, rfl, [], rfl, rfl, rfl⟩

/-- The two shapes of such a queue. -/
theorem Lossy.cases {os : List Bool} {q : AsyncQueue α} (h : Lossy os q) :
    (q.queue = [] ∧ q.inFlight = []) ∨
      ∃ x, q.queue = [x] ∧ q.inFlight = [(q.popped, x)] := by
  have hlen := h.length_le
  match hq : q.queue with
  | [] => exact Or.inl ⟨rfl, by rw [h.inFlight_eq, hq]; rfl⟩
  | [x] => exact Or.inr ⟨x, rfl, by rw [h.inFlight_eq, hq]; rfl⟩
  | _ :: _ :: _ => rw [hq] at hlen; simp at hlen

theorem Lossy.refersLive {os : List Bool} {q : AsyncQueue α} (h : Lossy os q) : RefersLive q := by
  rcases h.cases with ⟨-, hfly⟩ | ⟨x, hq, hfly⟩
  · simp [RefersLive, hfly]
  · simp [RefersLive, hq, hfly]

/-- A buffer is written only while the queue is empty. -/
def IdleWriteFailing (q : AsyncQueue α) : FailingEvent α → Prop
  | .event e => IdleWrite q e
  | .fail => True

section Lossy

variable {finish abandon : AsyncQueue α → Option (AsyncQueue α)}
  (hfinish : ∀ q, q.queue ≠ [] → finish q = q.popAndRestart)
  (habandon : ∀ q, q.queue ≠ [] → abandon q = q.popAndRestart)

include habandon in
/-- A failure that finds a buffer: the buffer is popped, as after a success. -/
theorem failingStep_fail {q : AsyncQueue α} {op : ℕ × α} {ops : List (ℕ × α)} {x : α} {xs : List α}
    (hfly : q.inFlight = op :: ops) (hq : q.queue = x :: xs) :
    failingStep finish abandon q .fail =
      some (startWrite { q with queue := xs, inFlight := ops, popped := q.popped + 1 }) := by
  have hne : q.queue ≠ [] := by simp [hq]
  simp only [failingStep, abort, hfly, Option.bind_some]
  rw [habandon { q with inFlight := ops } hne]
  simp [popAndRestart, popFront, hq]

include hfinish habandon in
/-- What a step does, while buffers are written to an empty queue only. -/
theorem lossy_step (es : List (FailingEvent α)) (q : AsyncQueue α) (e : FailingEvent α)
    (t : AsyncQueue α) (h : Lossy (outcomes es) q) (hC : IdleWriteFailing q e)
    (ht : failingStep finish abandon q e = some t) : Lossy (outcomes (es ++ [e])) t := by
  obtain ⟨done, haccepted, hos, hwritten⟩ := h.done
  rw [outcomes_concat]
  rcases h.cases with ⟨hq, hfly⟩ | ⟨x, hq, hfly⟩
  -- nothing is outstanding: only a write can happen
  · match e with
    | .event (.write x) =>
        obtain rfl : q.write x = t := Option.some.inj ht
        rw [write_of_idle x hq]
        refine ⟨Nat.le_refl 1, by simp [hfly], done, ?_, ?_, hwritten⟩
        · simp [haccepted, hq]
        · rw [hos]
          exact List.append_nil _
    | .event .complete => simp [failingStep, step, transfer, hfly] at ht
    | .fail => simp [failingStep, abort, hfly] at ht
  -- one operation is outstanding: with its end the queue is empty
  · match e with
    | .event (.write y) => exact absurd (show q.queue = [] from hC) (by simp [hq])
    | .event .complete =>
        rw [failingStep, step_complete hfinish hfly hq, Option.some.injEq] at ht
        subst ht
        refine ⟨Nat.zero_le 1, rfl, done ++ [(x, true)], ?_, ?_, ?_⟩
        · simp [startWrite, haccepted, hq]
        · rw [hos, List.map_append]
          rfl
        · simp [startWrite, hwritten]
    | .fail =>
        rw [failingStep_fail habandon hfly hq, Option.some.injEq] at ht
        subst ht
        refine ⟨Nat.zero_le 1, rfl, done ++ [(x, false)], ?_, ?_, ?_⟩
        · simp [startWrite, haccepted, hq]
        · rw [hos, List.map_append]
          rfl
        · simp [startWrite, hwritten]

include hfinish habandon in
/-- In a run that writes to an empty queue only, the buffers lost are those whose operations
failed. -/
theorem lossy_run {t : AsyncQueue α} {es : List (FailingEvent α)}
    (hC : EachStep (failingStep finish abandon) IdleWriteFailing empty es)
    (hrun : run (failingStep finish abandon) empty es = some t) : Lossy (outcomes es) t :=
  run_history_of_eachStep (lossy_step hfinish habandon) lossy_empty hC hrun

end Lossy

/-! ## A handler that returns -/

/-- What has been pushed has been written or is in the queue, and at most one operation is
outstanding, on the front. -/
structure Retrying (q : AsyncQueue α) : Prop where
  inFlight_eq : q.inFlight = [] ∨ ∃ x xs, q.queue = x :: xs ∧ q.inFlight = [(q.popped, x)]
  accepted_eq : q.accepted = q.written ++ q.queue

theorem retrying_empty : Retrying (empty : AsyncQueue α) := ⟨Or.inl rfl, rfl⟩

/-- A buffer is written only while no operation is outstanding. -/
def QuietWrite (q : AsyncQueue α) : FailingEvent α → Prop
  | .event (.write _) => q.inFlight = []
  | .event .complete | .fail => True

/-- An operation is started on the front, if there is one. -/
theorem Retrying.startWrite {q : AsyncQueue α} (hfly : q.inFlight = [])
    (hacc : q.accepted = q.written ++ q.queue) : Retrying q.startWrite := by
  unfold AsyncQueue.startWrite
  split
  · exact ⟨Or.inl hfly, hacc⟩
  · next x xs hq =>
    refine ⟨Or.inr ⟨x, xs, hq, ?_⟩, hacc⟩
    show q.inFlight ++ _ = _
    rw [hfly, List.nil_append]

/-- A success writes the front. -/
theorem step_complete_retrying {q : AsyncQueue α} {x : α} {xs : List α} (hq : q.queue = x :: xs)
    (hfly : q.inFlight = [(q.popped, x)]) :
    failingStep popAndRestart some q (.event .complete) =
      some (AsyncQueue.startWrite { q with queue := xs, inFlight := [], popped := q.popped + 1,
                                           written := q.written ++ [x] }) :=
  step_complete (fun _ _ => rfl) hfly hq

/-- What a step preserves, while buffers are written only when no operation is outstanding. -/
theorem retrying_step (q : AsyncQueue α) (e : FailingEvent α) (t : AsyncQueue α) (h : Retrying q)
    (hC : QuietWrite q e) (ht : failingStep popAndRestart some q e = some t) : Retrying t := by
  match e with
  | .event (.write x) =>
      obtain rfl : q.write x = t := Option.some.inj ht
      have hfly : q.inFlight = [] := hC
      refine Retrying.startWrite (q := q.push x) hfly ?_
      show q.accepted ++ [x] = q.written ++ (q.queue ++ [x])
      rw [h.accepted_eq, List.append_assoc]
  | .event .complete =>
      rcases h.inFlight_eq with hfly | ⟨x, xs, hq, hfly⟩
      · simp [failingStep, step, transfer, hfly] at ht
      · rw [step_complete_retrying hq hfly, Option.some.injEq] at ht
        subst ht
        refine Retrying.startWrite rfl ?_
        show q.accepted = q.written ++ [x] ++ xs
        rw [h.accepted_eq, hq, List.append_assoc]
        rfl
  -- the buffer stays where it is
  | .fail =>
      rcases h.inFlight_eq with hfly | ⟨x, xs, hq, hfly⟩
      · simp [failingStep, abort, hfly] at ht
      · simp only [failingStep, abort, hfly, Option.bind_some, Option.some.injEq] at ht
        subst ht
        exact ⟨Or.inl rfl, h.accepted_eq⟩

/-- With every operation that succeeds the queue is shorter by one, until it is empty. -/
theorem Retrying.drain {q : AsyncQueue α} (h : Retrying q) (hfly : q.inFlight ≠ []) :
    ∃ t, run (failingStep popAndRestart some) q
        (List.replicate q.queue.length (.event .complete)) = some t ∧
      t.queue = [] ∧ t.inFlight = [] ∧ t.written = q.accepted ∧ t.accepted = q.accepted := by
  induction hn : q.queue.length generalizing q with
  | zero =>
      rcases h.inFlight_eq with hnil | ⟨x, xs, hq, -⟩
      · exact absurd hnil hfly
      · rw [hq] at hn
        cases hn
  | succ n ih =>
      -- the front is written, and the operation on the next one is started
      obtain hnil | ⟨x, xs, hq, hone⟩ := h.inFlight_eq
      · exact absurd hnil hfly
      have hlen : xs.length = n := by
        rw [hq, List.length_cons] at hn
        exact Nat.succ.inj hn
      have hstep := step_complete_retrying hq hone
      have hrest := retrying_step q (.event .complete) _ h trivial hstep
      rw [List.replicate_succ, run_cons, hstep, Option.bind_some]
      cases hxs : xs with
      | nil =>
          rw [hxs] at hlen
          subst hlen
          refine ⟨_, rfl, rfl, rfl, ?_, rfl⟩
          show q.written ++ [x] = q.accepted
          rw [h.accepted_eq, hq, hxs]
      | cons y ys =>
          rw [hxs] at hrest hlen
          exact ih hrest (List.cons_ne_nil _ _) hlen

/-- The next buffer restarts a queue at rest, and what is there is written first. -/
theorem Retrying.resume {q : AsyncQueue α} (h : Retrying q) (hfly : q.inFlight = []) (x : α) :
    ∃ t, run (failingStep popAndRestart some) q
        (.event (.write x) :: List.replicate (q.queue.length + 1) (.event .complete)) = some t ∧
      t.queue = [] ∧ t.written = q.accepted ++ [x] := by
  have hwrite := retrying_step q (.event (.write x)) (q.write x) h hfly rfl
  have hlength : (q.write x).queue.length = q.queue.length + 1 := by
    rw [write, queue_startWrite, push, List.length_append]
    rfl
  have hne : (q.write x).inFlight ≠ [] := by
    refine List.ne_nil_of_length_pos ?_
    rw [write, length_inFlight_startWrite, if_neg (by simp [push])]
    exact Nat.succ_pos _
  obtain ⟨t, hrun, hqueue, -, hwritten, -⟩ := hwrite.drain hne
  rw [hlength] at hrun
  exact ⟨t, hrun, hqueue, by rw [hwritten, accepted_write]⟩

end AsyncQueue
