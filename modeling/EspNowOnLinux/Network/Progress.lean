import EspNowOnLinux.Network.ToHost

/-!
# Nothing gets stuck on the way to the host

From every state that a node can reach once its handshake is complete, it comes to rest by finishing
what has been begun: the task that has the semaphore writes and gives it back, the transmit loop
works off its queue, and the daemon reads. No further packet, ping or frame is needed for it, and no
push is lost on the way.

Each of these steps has less left to do. What is left is measured by the statements of the transmit
loop and the calls on the line, and only then by the bytes that the daemon has not read, because a
write adds to them.

## Main results

* `settles`: there is a run to a state at rest;
* `delivers`: in it the daemon has got the frames of all packets that were enqueued.
-/

open Bytes DeviceMessage Framing Messages StateMachine UartLine

namespace ToHost

/-! ## The line -/

/-- If the semaphore is taken, some task has it. No task has made more writes than its call has, and
the next one can end as those before it did. -/
structure Live (o : ByteOrder) (line : UartLine FirmwareTask) : Prop where
  held : line.semaphoreFree = false → ∃ task, Writing line task
  length_le : ∀ {task call results}, line.tasks task = .writing call results →
    results.length ≤ (call.writes o).length
  exists_result : ∀ {task call results}, line.tasks task = .writing call results →
    ∃ result, (∀ before ∈ results, before = result) ∧ (task = .usbMain → result = true)

variable {o : ByteOrder} {line line' : UartLine FirmwareTask} {e : UartLine.Event FirmwareTask}

theorem live_start (o : ByteOrder) : Live o UartLine.start := ⟨nofun, nofun, nofun⟩

/-- Every step keeps the line live. -/
theorem Live.step (h : Live o line) (huniform : Uniform line e) (hkeeps : ¬ Loses e)
    (ht : line.step o e = some line') : Live o line' := by
  rcases step_cases ht with ⟨task, stage, hstage, rfl, hnot, -⟩ | ⟨task, call, -, -, rfl⟩ |
    ⟨task, result, call, results, data, rfl, htask, hdata, rfl⟩ |
    ⟨task, call, results, -, -, -, rfl⟩
  -- a task that is not writing has moved, so the one that has the semaphore has it still
  · have hsame {other call results}
        (hother : (line.setTask task stage).tasks other = .writing call results) :
        line.tasks other = .writing call results := by
      rcases tasks_setTask_eq hother with ⟨-, hwriting⟩ | ⟨-, hwriting⟩
      · exact absurd hwriting (hstage _ _)
      · exact hwriting
    refine ⟨fun htaken => ?_, fun hother => h.length_le (hsame hother),
      fun hother => h.exists_result (hsame hother)⟩
    obtain ⟨other, call, results, hother⟩ := h.held htaken
    have hne : other ≠ task := by
      rintro rfl
      exact hnot ⟨call, results, hother⟩
    exact ⟨other, call, results, (Function.update_of_ne hne _ _).trans hother⟩
  · refine ⟨fun _ => ⟨task, call, [], Function.update_self ..⟩, fun hother => ?_, fun hother => ?_⟩
    · rcases tasks_setTask_eq hother with ⟨-, hwriting⟩ | ⟨-, hwriting⟩
      · cases hwriting
        exact Nat.zero_le _
      · exact h.length_le hwriting
    · rcases tasks_setTask_eq hother with ⟨-, hwriting⟩ | ⟨-, hwriting⟩
      · cases hwriting
        exact ⟨true, fun _ hbefore => absurd hbefore List.not_mem_nil, fun _ => rfl⟩
      · exact h.exists_result hwriting
  · refine ⟨fun _ => ⟨task, call, results ++ [result], Function.update_self ..⟩, fun hother => ?_,
      fun hother => ?_⟩
    · rcases tasks_setTask_eq hother with ⟨-, hwriting⟩ | ⟨-, hwriting⟩
      · cases hwriting
        rw [List.length_append]
        exact (List.getElem?_eq_some_iff.mp hdata).1
      · exact h.length_le hwriting
    · rcases tasks_setTask_eq hother with ⟨rfl, hwriting⟩ | ⟨-, hwriting⟩
      -- this write has ended as those before it, and those of the transmit loop all go through
      · cases hwriting
        rw [Uniform, htask] at huniform
        refine ⟨result, fun before hbefore => ?_, fun hloop => ?_⟩
        · rcases List.mem_append.mp hbefore with hold | hnew
          · exact huniform before hold
          · exact List.mem_singleton.mp hnew
        · exact Bool.not_eq_false _ |>.mp fun hfalse => hkeeps ⟨hloop, hfalse⟩
      · exact h.exists_result hwriting
  · have hsame {other call' results'}
        (hother : (line.setTask task .idle).tasks other = .writing call' results') :
        line.tasks other = .writing call' results' := by
      rcases tasks_setTask_eq hother with ⟨-, hwriting⟩ | ⟨-, hwriting⟩
      · cases hwriting
      · exact hwriting
    exact ⟨nofun, fun hother => h.length_le (hsame hother),
      fun hother => h.exists_result (hsame hother)⟩

/-- Nothing is taken off the line. -/
theorem wire_length_le (ht : line.step o e = some line') :
    line.wire.length ≤ line'.wire.length := by
  rcases step_cases ht with ⟨task, stage, -, rfl, -⟩ | ⟨task, call, -, -, rfl⟩ |
    ⟨task, result, call, results, data, -, -, -, rfl⟩ | ⟨task, call, results, -, -, -, rfl⟩
  · exact Nat.le_refl _
  · exact Nat.le_refl _
  · cases result with
    | true =>
        show line.wire.length ≤ (line.wire ++ data).length
        rw [List.length_append]
        exact Nat.le_add_right _ _
    | false => exact Nat.le_of_eq (congrArg List.length (List.append_nil _).symm)
  · exact Nat.le_refl _

/-- How many steps a task has to take until it is in none of the functions. -/
def stepsLeft (o : ByteOrder) : TaskStage → ℕ
  | .idle => 0
  | .taking call => (call.writes o).length + 2
  | .writing call results => (call.writes o).length - results.length + 1

/-- How many steps the tasks have to take. -/
def lineLeft (o : ByteOrder) (line : UartLine FirmwareTask) : ℕ :=
  stepsLeft o (line.tasks .usbMain) + stepsLeft o (line.tasks .jtagReceive) +
    stepsLeft o (line.tasks .ping) + stepsLeft o (line.tasks .wifi)

/-- What one task does changes what it has left. -/
theorem lineLeft_update (task : FirmwareTask) (stage : TaskStage)
    (h : line'.tasks = Function.update line.tasks task stage) :
    lineLeft o line' + stepsLeft o (line.tasks task) = lineLeft o line + stepsLeft o stage := by
  simp only [lineLeft, h, Function.update_apply]
  cases task <;> simp only [reduceCtorEq, if_true, if_false] <;> omega

theorem lineLeft_lt (task : FirmwareTask) (stage : TaskStage)
    (h : line'.tasks = Function.update line.tasks task stage)
    (hlt : stepsLeft o stage < stepsLeft o (line.tasks task)) :
    lineLeft o line' < lineLeft o line := by
  have hleft := lineLeft_update (o := o) task stage h
  omega

/-- The task that has the semaphore can write or give it back. -/
theorem Live.goesOn (h : Live o line) {task : FirmwareTask} {call : UartCall} {results : List Bool}
    (htask : line.tasks task = .writing call results) :
    ∃ e line', (∀ task c, e ≠ .call task c) ∧ Uniform line e ∧ ¬ Loses e ∧
      line.step o e = some line' ∧ lineLeft o line' < lineLeft o line := by
  rcases Nat.lt_or_eq_of_le (h.length_le htask) with hlt | heq
  · obtain ⟨result, hbefore, hloop⟩ := h.exists_result htask
    -- some write is left: it ends as those before it, and all of the transmit loop's go through
    have hdata := List.getElem?_eq_getElem hlt
    refine ⟨.write task result, { line.setTask task (.writing call (results ++ [result])) with
      wire := if result then line.wire ++ (call.writes o)[results.length] else line.wire },
      (by rintro _ _ ⟨⟩), ?_, fun hl => ?_, ?_, ?_⟩
    · rw [Uniform, htask]
      exact hbefore
    · exact absurd (hl.2.symm.trans (hloop hl.1)) (by decide)
    · simp only [UartLine.step, htask, hdata]
    · refine lineLeft_lt task (.writing call (results ++ [result])) rfl ?_
      rw [htask]
      simp only [stepsLeft, List.length_append, List.length_singleton]
      omega
  -- all writes have been made
  · refine ⟨.give task, { line.setTask task .idle with semaphoreFree := true },
      (by rintro _ _ ⟨⟩), trivial, id, ?_, ?_⟩
    · simp only [UartLine.step, htask, if_pos heq]
    · refine lineLeft_lt task .idle rfl ?_
      rw [htask]
      exact Nat.succ_pos _

/-- Unless the semaphore is free and the transmit loop is not at the line, some task can go on. -/
theorem Live.exists_step (h : Live o line) (hexclusive : Exclusive line)
    (hbusy : ¬ (line.semaphoreFree = true ∧ line.tasks .usbMain = .idle)) :
    ∃ e line', (∀ task c, e ≠ .call task c) ∧ Uniform line e ∧ ¬ Loses e ∧
      line.step o e = some line' ∧ lineLeft o line' < lineLeft o line := by
  cases hfree : line.semaphoreFree with
  | false =>
      obtain ⟨task, call, results, htask⟩ := h.held hfree
      exact h.goesOn htask
  | true =>
      cases htask : line.tasks .usbMain with
      | idle => exact absurd ⟨hfree, htask⟩ hbusy
      | writing call results => exact absurd ⟨call, results, htask⟩ (hexclusive.free hfree _)
      | taking call =>
          -- the loop waits for the semaphore, which is free
          refine ⟨.take .usbMain, { line.setTask .usbMain (.writing call []) with
            semaphoreFree := false }, (by rintro _ _ ⟨⟩), trivial, id, ?_, ?_⟩
          · simp only [UartLine.step, htask, if_pos hfree]
          · refine lineLeft_lt .usbMain (.writing call []) rfl ?_
            rw [htask]
            simp only [stepsLeft, List.length_nil]
            omega

end ToHost

namespace Node

open ToHost

variable {setup : Setup} {s t : Node}

/-! ## The node -/

/-- What the firmware and the daemon do to bring the node to rest: the transmit loop works, the
tasks go on with the line, and the daemon reads. -/
def Internal : Event → Prop
  | .main => True
  | .uart _ => True
  | .host (.serialRead _) => True
  | _ => False

/-- The invariant: the packets are where `ToHostInv` says, the line is live, and the daemon has read
no more than there is. -/
structure Deliverable (setup : Setup) (s : Node) : Prop where
  toHost : s.ToHostInv setup Eq
  live : Live setup.firmware.order s.line
  received_le : s.host.received ≤ s.line.wire.length

/-- The daemon reads what is on the line. -/
theorem received_le_step {e : Event} (h : s.host.received ≤ s.line.wire.length)
    (ht : step setup s e = some t) : t.host.received ≤ t.line.wire.length := by
  by_cases hhost : ∃ e', e = .host e'
  · obtain ⟨e', rfl⟩ := hhost
    obtain ⟨host, hstep, rfl⟩ := Option.map_eq_some_iff.mp ht
    rcases HostRun.step_cases hstep with ⟨count, r, -, hcan, -, -, rfl⟩ | ⟨frame, d, -, -, -, rfl⟩ |
      ⟨port, -, -, rfl⟩ | ⟨d, -, -, rfl⟩
    · exact hcan.2
    · exact h
    · exact h
    · exact h
  · have hparts := step_parts ht
    have hsame : t.host = s.host := hparts.host fun e' he => hhost ⟨e', he⟩
    have hwire : s.line.wire.length ≤ t.line.wire.length := by
      rcases hparts.line with hline | ⟨task, c, hline⟩ | ⟨e', -, hline⟩
      · rw [hline]
      · exact wire_length_le hline
      · exact wire_length_le hline
    exact hsame ▸ h.trans hwire

/-- Every event that loses nothing keeps the invariant. -/
theorem deliverable_step {e : Event} (h : s.Deliverable setup) (huniform : Uniform s e)
    (hlossless : Lossless e) (ht : step setup s e = some t) : t.Deliverable setup := by
  refine ⟨toHostInv_step h.toHost huniform (fun new heq => by rw [heq])
    (fun hlost => absurd hlossless hlost) ht, ?_, received_le_step h.received_le ht⟩
  rcases (step_parts ht).line with hline | ⟨task, c, hline⟩ | ⟨e', rfl, hline⟩
  · exact hline ▸ h.live
  · exact Live.step (e := .call task c) h.live trivial id hline
  · exact h.live.step huniform hlossless hline

theorem deliverable_start (setup : Setup) : (start setup).Deliverable setup :=
  ⟨toHostInv_start rfl, live_start _, Nat.le_refl _⟩

/-- Coming to rest enqueues nothing and does not touch the handshake. -/
theorem Internal.frame {e : Event} (h : Internal e) (ht : step setup s e = some t) :
    t.pool.enqueued = s.pool.enqueued ∧ t.usb = s.usb := by
  have hpool := (step_parts ht).pool
  cases e with
  | host e =>
      obtain ⟨host, -, rfl⟩ := Option.map_eq_some_iff.mp ht
      exact ⟨rfl, rfl⟩
  | main =>
      obtain ⟨-, -, husb⟩ := step_frame (by rintro _ ⟨⟩) (by rintro ⟨⟩) (by rintro _ ⟨⟩) ht
      exact ⟨(PacketPool.mainStep_frame hpool).2, husb⟩
  | uart e =>
      obtain ⟨-, line, -, rfl⟩ := uart_cases ht
      exact ⟨rfl, rfl⟩
  | announce => exact h.elim
  | read count => exact h.elim
  | log stack => exact h.elim
  | ping => exact h.elim
  | received call stack => exact h.elim
  | callback => exact h.elim
  | sendFailed => exact h.elim

/-! ## What is left to do -/

/-- What the firmware has left: a statement of the transmit loop weighs more than a call. -/
def firmwareLeft (setup : Setup) (s : Node) : ℕ :=
  4 * s.pool.loopLeft + lineLeft setup.firmware.order s.line

/-- The bytes that the daemon has not read. -/
def unread (s : Node) : ℕ := s.line.wire.length - s.host.received

/-- Less is left: of the firmware's work, or of the daemon's with the firmware's as it was. -/
def Nearer (setup : Setup) (t s : Node) : Prop :=
  Prod.Lex (· < ·) (· < ·) (t.firmwareLeft setup, t.unread) (s.firmwareLeft setup, s.unread)

theorem wellFounded_nearer (setup : Setup) : WellFounded (Nearer setup) :=
  InvImage.wf (fun s : Node => (s.firmwareLeft setup, s.unread))
    (WellFounded.prod_lex Nat.lt_wfRel.wf Nat.lt_wfRel.wf)

/-- A call of the transmit loop is one write. -/
theorem lineLeft_pushCall {o : ByteOrder} {line line' : UartLine FirmwareTask} {p : PoolPacket}
    {n : UInt32} (h : line.step o (.call .usbMain (pushCall p n)) = some line') :
    lineLeft o line' = lineLeft o line + 3 := by
  simp only [UartLine.step] at h
  split at h
  · next hidle =>
    obtain rfl := Option.some.inj h
    have htasks : (line.setTask .usbMain (.taking (pushCall p n))).tasks =
        Function.update line.tasks .usbMain (.taking (pushCall p n)) := rfl
    have hleft := lineLeft_update (o := o) _ _ htasks
    rw [hidle] at hleft
    exact hleft
  · cases h

/-- A task that is not at the line can make a call. -/
theorem isSome_call {task : FirmwareTask} {c : UartCall} (hidle : s.Idle task) :
    (s.call setup task c).isSome := by
  rw [call, UartLine.step, show s.line.tasks task = .idle from hidle]
  rfl

/-- While there is something to transmit, the transmit loop can go on once it is not at the line. -/
theorem Deliverable.exists_main (h : s.Deliverable setup) (hready : s.Ready)
    (hidle : s.Idle .usbMain)
    (hleft : s.pool.transmission = none → s.pool.receiveQueue ≠ []) :
    ∃ t, step setup s .main = some t ∧ t.firmwareLeft setup < s.firmwareLeft setup := by
  obtain ⟨pool, hpool⟩ := Option.isSome_iff_exists.mp (h.toHost.poolInv.isSome_mainStep hleft)
  have hstep : (step setup s .main).isSome := by
    rw [step, if_pos ⟨hready, hidle⟩, mainStep, hpool, Option.bind_some]
    split
    · exact isSome_call (s := { s with pool }) hidle
    · rfl
  obtain ⟨t, ht⟩ := Option.isSome_iff_exists.mp hstep
  refine ⟨t, ht, ?_⟩
  rw [step, Option.ite_none_right_eq_some] at ht
  obtain ⟨pool', hpool', hcases⟩ := mainStep_cases ht.2
  have hloop := PacketPool.loopLeft_mainStep hpool'
  rcases hcases with ⟨slot, n, line, -, hline, rfl⟩ | ⟨-, rfl⟩
  · have hpush := lineLeft_pushCall hline
    simp only [firmwareLeft]
    omega
  · simp only [firmwareLeft]
    omega

/-- What the daemon has not read it can read, byte by byte if need be: an incomplete message does
not fill its buffer. -/
theorem Deliverable.exists_read (h : s.Deliverable setup)
    (hunread : s.host.received ≠ s.line.wire.length) :
    ∃ t, step setup s (.host (.serialRead 1)) = some t ∧
      t.firmwareLeft setup = s.firmwareLeft setup ∧ t.unread < s.unread := by
  obtain ⟨calls, owed, hsent, hhost⟩ := h.toHost.sent
  have hlistening := hhost.listening
  have hroom : 1 ≤ s.host.device.serialPort.buffer.getWritable.length := by
    have hlength := hlistening.wellFormed.length_getData
    rw [hlistening.getData_eq, hlistening.readIndex_eq, Nat.sub_zero] at hlength
    rw [ReceivingBuffer.length_getWritable, ← hlength]
    -- what is in the buffer is a part of one message, which is shorter than the buffer
    by_cases htail : tail encode (calls.map UartCall.message) s.host.received = []
    · rw [htail]
      decide
    · obtain ⟨m, hm, -, hlt⟩ := tail_spec htail
      have hfits := (hsent.wellFormed m hm).length_le
      omega
  have hcan : HostRun.CanRead s.line.wire s.host 1 := by
    have hle := h.received_le
    exact ⟨⟨_, hlistening.readRequest_eq, hroom⟩, by omega⟩
  obtain ⟨t, ht⟩ := Option.isSome_iff_exists.mp (h.toHost.defined hcan)
  refine ⟨t, ht, ?_⟩
  obtain ⟨host, hstep, rfl⟩ := Option.map_eq_some_iff.mp ht
  rw [HostRun.step, if_pos hcan] at hstep
  obtain ⟨r, -, rfl⟩ := Option.map_eq_some_iff.mp hstep
  have hle := hcan.2
  exact ⟨rfl, by simp only [unread]; omega⟩

/-! ## Coming to rest -/

/-- A node that is not at rest comes nearer to it. -/
theorem Deliverable.exists_nearer (h : s.Deliverable setup) (hready : s.Ready)
    (hrest : ¬ s.AtRest) :
    ∃ e t, step setup s e = some t ∧ (Uniform s e ∧ Lossless e ∧ Internal e) ∧
      Nearer setup t s := by
  by_cases hline : s.line.semaphoreFree = true ∧ s.line.tasks .usbMain = .idle
  · by_cases hpool : s.pool.transmission = none ∧ s.pool.receiveQueue = []
    -- only the daemon has something to do
    · have hunread : s.host.received ≠ s.line.wire.length :=
        fun hread => hrest ⟨hpool.2, hpool.1, hline.2, hline.1, hread⟩
      obtain ⟨t, ht, hsame, hlt⟩ := h.exists_read hunread
      refine ⟨_, t, ht, ⟨trivial, trivial, trivial⟩, ?_⟩
      rw [Nearer, hsame]
      exact Prod.Lex.right _ hlt
    · obtain ⟨t, ht, hlt⟩ := h.exists_main hready hline.2 fun hnone hqueue => hpool ⟨hnone, hqueue⟩
      exact ⟨_, t, ht, ⟨trivial, trivial, trivial⟩, Prod.Lex.left _ _ hlt⟩
  · obtain ⟨calls, owed, hsent, -⟩ := h.toHost.sent
    obtain ⟨e, line, hcall, huniform, hkeeps, hstep, hlt⟩ :=
      h.live.exists_step hsent.toExclusive hline
    refine ⟨.uart e, { s with line }, ?_, ⟨huniform, hkeeps, trivial⟩,
      Prod.Lex.left _ _ (Nat.add_lt_add_left hlt _)⟩
    cases e with
    | call task c => exact absurd rfl (hcall task c)
    | take task => exact Option.map_eq_some_iff.mpr ⟨line, hstep, rfl⟩
    | takeFailed task => exact Option.map_eq_some_iff.mpr ⟨line, hstep, rfl⟩
    | write task result => exact Option.map_eq_some_iff.mpr ⟨line, hstep, rfl⟩
    | give task => exact Option.map_eq_some_iff.mpr ⟨line, hstep, rfl⟩

/-- What has been enqueued can be delivered: the transmit loop, the tasks at the line and the daemon
need nothing from outside to bring the node to rest, and at rest the TAP device has got the frames
of all packets. -/
def CanDeliver (setup : Setup) (s : Node) : Prop :=
  s.Ready → ∃ es t, run (step setup) s es = some t ∧
    EachStep (step setup) (fun s e => Uniform s e ∧ Lossless e ∧ Internal e) s es ∧ t.AtRest ∧
    t.host.device.tunFdWriteBuffers.accepted = s.pool.enqueued.map EspNowCall.frame

/-- A node settles. -/
theorem Deliverable.settles (h : s.Deliverable setup) : s.CanDeliver setup := by
  intro hready
  let Settling (t : Node) : Prop :=
    t.Deliverable setup ∧ t.Ready ∧ t.pool.enqueued = s.pool.enqueued
  have hstart : Settling s := ⟨h, hready, rfl⟩
  have hprogress (u : Node) (hu : Settling u) (hnot : ¬ u.AtRest) : ∃ e v,
      step setup u e = some v ∧ (Uniform u e ∧ Lossless e ∧ Internal e) ∧ Settling v ∧
        Nearer setup v u := by
    obtain ⟨hdeliverable, hready, henqueued⟩ := hu
    obtain ⟨e, v, hv, hC, hnearer⟩ := hdeliverable.exists_nearer hready hnot
    obtain ⟨hsame, husb⟩ := hC.2.2.frame hv
    refine ⟨e, v, hv, hC, ⟨deliverable_step hdeliverable hC.1 hC.2.1 hv, ?_,
      hsame.trans henqueued⟩, hnearer⟩
    -- the handshake stays complete
    rw [Ready, husb]
    exact hready
  obtain ⟨es, t, hrun, hes, ⟨ht, -, henqueued⟩, hrest⟩ :=
    exists_run_of_progress (wellFounded_nearer setup) hprogress hstart
  exact ⟨es, t, hrun, hes, hrest, henqueued ▸ ht.toHost.frames_of_atRest hrest⟩

/-- In every run that has lost nothing, and at every moment of it from the handshake on, all packets
enqueued can still be delivered. A push of the transmit loop can go through whatever its length, the
longest being longer than the buffer of the driver. -/
theorem delivers (setup : Setup) (es : List Event)
    (hsteps : EachStep (step setup) (fun s e => Uniform s e ∧ Fits e ∧ Lossless e) (start setup)
      es) :
    Always (step setup) (CanDeliver setup) (start setup) es :=
  always_of_eachStep (fun _ _ _ h hC ht => deliverable_step h hC.1 hC.2.2 ht)
    (fun _ h => h.settles) (deliverable_start setup) hsteps

/-- A packet is in the queue, and nothing of it has been pushed. -/
theorem delivers_packet :
    let call : EspNowCall := ⟨.replicate 6 7, [1, 82]⟩
    ∃ s es t, run (step .zeroed) (start .zeroed) (packetRun.take 13) = some s ∧
      s.pool.receiveQueue = [0] ∧ s.host.device.tunFdWriteBuffers.accepted = [] ∧
      run (step .zeroed) s es = some t ∧ t.AtRest ∧
      t.host.device.tunFdWriteBuffers.accepted = [call.frame] := by
  intro call
  have hpassed : (run (step .zeroed) (start .zeroed) (packetRun.take 13)).map (fun s =>
      (s.pool.receiveQueue, s.host.device.tunFdWriteBuffers.accepted, s.pool.enqueued,
        decide s.Ready)) = some ([0], [], [call], true) := by decide +kernel
  obtain ⟨s, hrun, hs⟩ := Option.map_eq_some_iff.mp hpassed
  obtain ⟨hqueue, hframes, henqueued, hready⟩ : s.pool.receiveQueue = [0] ∧
      s.host.device.tunFdWriteBuffers.accepted = [] ∧ s.pool.enqueued = [call] ∧
      decide s.Ready = true := by simpa only [Prod.mk.injEq] using hs
  have hdelivers := delivers .zeroed (packetRun.take 13) (by decide +kernel)
  obtain ⟨es, t, ht, -, hrest, hdelivered⟩ := hdelivers.last hrun (of_decide_eq_true hready)
  rw [henqueued] at hdelivered
  exact ⟨s, es, t, hrun, hqueue, hframes, ht, hrest, hdelivered⟩

end Node
