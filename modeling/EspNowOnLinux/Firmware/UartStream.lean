import EspNowOnLinux.Firmware.UartLine

/-!
# The line to the host as a stream of messages

`framedWhenFree_iff` speaks of the moments at which the semaphore is free. The host reads at any
moment, so here the line is described while a task is writing as well: it is the beginning of the
messages whose first piece has gone through, and what is missing of the last one is what the task
that has the semaphore still has to write.

## Main result

* `Streams.step`: this stays so as long as no call has one piece written and another one timed out.
-/

open Bytes Framing Messages

namespace UartLine

variable {τ : Type*}

/-- A write ends as the writes before it in the same call did. -/
def Uniform (s : UartLine τ) : Event τ → Prop
  | .write task result =>
    match s.tasks task with
    | .writing _ results => ∀ before ∈ results, before = result
    | _ => True
  | _ => True

instance (s : UartLine τ) : ∀ e, Decidable (Uniform s e)
  | .write task result =>
      match h : s.tasks task with
      | .idle => isTrue (by rw [Uniform, h]; trivial)
      | .taking _ => isTrue (by rw [Uniform, h]; trivial)
      | .writing _ results =>
          decidable_of_iff (∀ before ∈ results, before = result) (by rw [Uniform, h])
  | .call _ _ => isTrue trivial
  | .take _ => isTrue trivial
  | .takeFailed _ => isTrue trivial
  | .give _ => isTrue trivial

/-- The call whose first write goes through. -/
def begun (s : UartLine τ) : Event τ → List UartCall
  | .write task true =>
    match s.tasks task with
    | .writing call [] => [call]
    | _ => []
  | _ => []

/-- Where a task that has written `results` is: it has written nothing, or everything so far and
owes the rest. -/
def Owes (o : ByteOrder) (call : UartCall) (results : List Bool) (owed : List UInt8) : Prop :=
  ((∀ result ∈ results, result = false) ∧ owed = []) ∨
    (results ≠ [] ∧ (∀ result ∈ results, result = true) ∧
      owed = ((call.writes o).drop results.length).flatten)

/-- The line carries the messages of `calls`, up to the bytes that are `owed`. -/
structure Streams (o : ByteOrder) (s : UartLine τ) (calls : List UartCall) (owed : List UInt8) :
    Prop extends Exclusive s where
  wire_append : s.wire ++ owed = stream DeviceMessage.encode (calls.map UartCall.message)
  free_owed : s.semaphoreFree = true → owed = []
  owes : ∀ {task call results}, s.tasks task = .writing call results → Owes o call results owed

variable {o : ByteOrder} {calls : List UartCall} {owed : List UInt8}

/-- A line on which nothing has been written. -/
theorem streams_start (o : ByteOrder) : Streams o (start : UartLine τ) [] [] where
  free _ _ := nofun
  unique := nofun
  wire_append := rfl
  free_owed _ := rfl
  owes := nofun

/-- The next piece of what is owed. -/
theorem drop_writes {call : UartCall} {n : ℕ} {data : List UInt8}
    (h : (call.writes o)[n]? = some data) :
    ((call.writes o).drop n).flatten = data ++ ((call.writes o).drop (n + 1)).flatten := by
  obtain ⟨hlt, hdata⟩ := List.getElem?_eq_some_iff.mp h
  rw [List.drop_eq_getElem_cons hlt, List.flatten_cons, hdata]

variable {s t : UartLine τ} {e : Event τ}

/-- What a write leaves owed, and the message that it begins. -/
theorem Owes.write {task : τ} {call : UartCall} {results : List Bool} {result : Bool}
    {data : List UInt8} (h : Owes o call results owed)
    (htask : s.tasks task = .writing call results)
    (hdata : (call.writes o)[results.length]? = some data)
    (huniform : ∀ before ∈ results, before = result) :
    ∃ owed', Owes o call (results ++ [result]) owed' ∧
      (if result then data else []) ++ owed' =
        owed ++
          stream DeviceMessage.encode ((begun s (.write task result)).map UartCall.message) := by
  have hlen : (results ++ [result]).length = results.length + 1 := List.length_append
  cases result with
  | false =>
      -- nothing has gone through before either
      have howed : owed = [] := by
        rcases h with ⟨-, howed⟩ | ⟨hne, htrue, -⟩
        · exact howed
        · obtain ⟨before, hbefore⟩ := List.exists_mem_of_ne_nil _ hne
          exact absurd ((htrue before hbefore).symm.trans (huniform before hbefore)) (by decide)
      refine ⟨[], Or.inl ⟨fun before hbefore => ?_, rfl⟩, ?_⟩
      · rcases List.mem_append.mp hbefore with hold | hnew
        · exact huniform before hold
        · exact List.mem_singleton.mp hnew
      · rw [howed]
        rfl
  | true =>
      have hall : ∀ before ∈ results ++ [true], before = true := by
        intro before hbefore
        rcases List.mem_append.mp hbefore with hold | hnew
        · exact huniform before hold
        · exact List.mem_singleton.mp hnew
      refine ⟨((call.writes o).drop (results.length + 1)).flatten,
        Or.inr ⟨List.append_ne_nil_of_right_ne_nil _ (List.cons_ne_nil _ _), hall, ?_⟩, ?_⟩
      · rw [hlen]
      rw [if_pos rfl, ← drop_writes hdata]
      cases hresults : results with
      -- the first piece: from here on the whole message is owed
      | nil =>
          have howed : owed = [] := by
            rcases h with ⟨-, howed⟩ | ⟨hne, -, -⟩
            · exact howed
            · exact absurd hresults hne
          rw [hresults] at htask
          rw [howed, begun, htask, List.length_nil, List.drop_zero, call.flatten_writes]
          exact (List.append_nil _).symm
      | cons first rest =>
          have howed : owed = ((call.writes o).drop results.length).flatten := by
            rcases h with ⟨hfalse, -⟩ | ⟨-, -, howed⟩
            · have hfirst : first ∈ results := hresults ▸ List.mem_cons_self
              exact absurd ((hfalse first hfirst).symm.trans (huniform first hfirst)) (by decide)
            · exact howed
          rw [hresults] at htask howed
          rw [howed, begun, htask]
          exact (List.append_nil _).symm

variable [DecidableEq τ]

/-- The task that an event is about, and what becomes of it, where the event is no call. -/
theorem step_task (hcall : ∀ task c, e ≠ .call task c) (ht : UartLine.step o s e = some t) :
    ∃ task stage, t.tasks = Function.update s.tasks task stage ∧
      ((∃ c, e = .take task ∧ s.tasks task = .taking c ∧ stage = .writing c []) ∨
        (∃ c, e = .takeFailed task ∧ s.tasks task = .taking c ∧ stage = .idle) ∨
        (∃ result c results, e = .write task result ∧ s.tasks task = .writing c results ∧
          stage = .writing c (results ++ [result])) ∨
        ∃ c results, e = .give task ∧ s.tasks task = .writing c results ∧
          results.length = (c.writes o).length ∧ stage = .idle) := by
  cases e with
  | call task c => exact absurd rfl (hcall task c)
  | take task =>
      simp only [UartLine.step] at ht
      split at ht
      · next c htask =>
        split at ht
        · obtain rfl := Option.some.inj ht
          exact ⟨task, _, rfl, Or.inl ⟨c, rfl, htask, rfl⟩⟩
        · cases ht
      · cases ht
  | takeFailed task =>
      simp only [UartLine.step] at ht
      split at ht
      · next c htask =>
        obtain rfl := Option.some.inj ht
        exact ⟨task, _, rfl, Or.inr (Or.inl ⟨c, rfl, htask, rfl⟩)⟩
      · cases ht
  | write task result =>
      simp only [UartLine.step] at ht
      split at ht
      · next c results htask =>
        split at ht
        · obtain rfl := Option.some.inj ht
          exact ⟨task, _, rfl, Or.inr (Or.inr (Or.inl ⟨result, c, results, rfl, htask, rfl⟩))⟩
        · cases ht
      · cases ht
  | give task =>
      simp only [UartLine.step] at ht
      split at ht
      · next c results htask =>
        split at ht
        · next hlen =>
          obtain rfl := Option.some.inj ht
          exact ⟨task, _, rfl, Or.inr (Or.inr (Or.inr ⟨c, results, rfl, htask, hlen, rfl⟩))⟩
        · cases ht
      · cases ht

/-- Outside of the semaphore no call begins. -/
theorem begun_eq_nil {task : τ} {stage : TaskStage}
    (hstage : ∀ call results, stage ≠ .writing call results)
    (ht : UartLine.step o s e = some (s.setTask task stage)) : begun s e = [] := by
  cases e with
  | write other result =>
      obtain ⟨_, _, htasks, ⟨_, he, -⟩ | ⟨_, he, -⟩ | ⟨_, call, results, he, hother, rfl⟩ |
        ⟨_, _, he, -⟩⟩ := step_task nofun ht
      · cases he
      · cases he
      -- the task that writes would be one result further
      · cases he
        have hwriting : (s.setTask task stage).tasks other =
            .writing call (results ++ [result]) := by
          rw [htasks, Function.update_self]
        rcases tasks_setTask_eq hwriting with ⟨-, hwriting⟩ | ⟨-, hwriting⟩
        · exact absurd hwriting (hstage _ _)
        · rw [hother] at hwriting
          have hlen := congrArg List.length (TaskStage.writing.inj hwriting).2
          rw [List.length_append, List.length_singleton] at hlen
          omega
      · cases he
  | call => rfl
  | take => rfl
  | takeFailed => rfl
  | give => rfl

/-- One event. -/
theorem Streams.step (h : Streams o s calls owed) (huniform : Uniform s e)
    (ht : UartLine.step o s e = some t) :
    ∃ owed', Streams o t (calls ++ begun s e) owed' := by
  have hexclusive : Exclusive t := exclusive_step h.toExclusive ht
  rcases step_cases ht with ⟨task, stage, hstage, rfl, hnot, -⟩ | ⟨task, call, rfl, hfree, rfl⟩ |
    ⟨task, result, call, results, data, rfl, htask, hdata, rfl⟩ |
    ⟨task, call, results, rfl, htask, hlen, rfl⟩
  -- no task that writes has moved, so no call begins
  · rw [begun_eq_nil hstage ht, List.append_nil]
    refine ⟨owed, hexclusive, h.wire_append, h.free_owed, fun hother => ?_⟩
    rcases tasks_setTask_eq hother with ⟨-, hwriting⟩ | ⟨-, hwriting⟩
    · exact absurd hwriting (hstage _ _)
    · exact h.owes hwriting
  · rw [show begun s (.take task) = [] from rfl, List.append_nil]
    refine ⟨owed, hexclusive, h.wire_append, nofun, fun {other _ _} hother => ?_⟩
    rcases tasks_setTask_eq hother with ⟨-, hwriting⟩ | ⟨-, hwriting⟩
    · cases hwriting
      exact Or.inl ⟨fun _ hr => absurd hr List.not_mem_nil, h.free_owed hfree⟩
    · exact absurd ⟨_, _, hwriting⟩ (h.free hfree other)
  · rw [Uniform, htask] at huniform
    obtain ⟨owed', howes, hbytes⟩ := (h.owes htask).write htask hdata huniform
    refine ⟨owed', hexclusive, ?_, fun hfree => absurd ⟨call, results, htask⟩ (h.free hfree task),
      fun hother => ?_⟩
    · rw [List.append_assoc, hbytes, ← List.append_assoc, h.wire_append, List.map_append,
        stream_append]
    · rcases tasks_setTask_eq hother with ⟨-, hwriting⟩ | ⟨hne, hwriting⟩
      · cases hwriting
        exact howes
      · exact absurd (h.unique ⟨_, _, htask⟩ ⟨_, _, hwriting⟩) hne
  -- a task that has made all of its writes owes nothing
  · have howed : owed = [] := by
      rcases h.owes htask with ⟨-, howed⟩ | ⟨-, -, howed⟩
      · exact howed
      · rw [howed, hlen, List.drop_length, List.flatten_nil]
    rw [show begun s (.give task) = [] from rfl, List.append_nil]
    refine ⟨owed, hexclusive, h.wire_append, fun _ => howed, fun hother => ?_⟩
    rcases tasks_setTask_eq hother with ⟨-, hwriting⟩ | ⟨hne, hwriting⟩
    · cases hwriting
    · exact absurd (h.unique ⟨_, _, htask⟩ ⟨_, _, hwriting⟩) hne

end UartLine
