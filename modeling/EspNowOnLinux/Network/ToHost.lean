import EspNowOnLinux.Network.Node

/-!
# From the radio to the TAP device

What becomes of the packets that the receive callback has enqueued: the transmit loop pushes them
among the announcements, pings and log messages of the other tasks, pushes may be given up or time
out, and the daemon reads the line in pieces of any size.

## Main results

* `frames_sublist`: in every run in which no call writes one piece of its message and loses another,
  and in which ESP-NOW calls the callback with at most 250 bytes, the frames queued for the TAP
  device are those of enqueued packets, in order and each at most once, and the daemon takes nothing
  else for an announcement of the device;
* `frames_prefix`: if moreover no push of the transmit loop is lost, then no packet is missing among
  them, and all of them are there once everything has come to rest.
-/

open Bytes DeviceMessage Framing Messages StateMachine UartLine

/-- The packet that a call pushes. -/
def UartCall.packet? : UartCall → Option EspNowCall
  | receivedPacket mac payload => some ⟨mac, payload.val⟩
  | _ => none

/-- The call that a task is in. -/
def TaskStage.call? : TaskStage → Option UartCall
  | idle => none
  | taking call => some call
  | writing call _ => some call

/-- The packet of a call of which nothing has been written yet. -/
def TaskStage.pending : TaskStage → Option EspNowCall
  | taking call => call.packet?
  | writing call [] => call.packet?
  | _ => none

/-- The frame of a packet from the radio. -/
def EspNowCall.frame (call : EspNowCall) : List UInt8 :=
  EspnowUartDevice.tapFrame call.srcAddr call.data

/-- The packets that the transmit loop has pushed. -/
def PacketPool.pushedCalls (s : PacketPool) : List EspNowCall := s.enqueued.take s.pushed.length

namespace ToHost

/-- What the tasks write: the handshake loop announces the device, and only the transmit loop pushes
packets. -/
def FromTask (setup : Setup) (task : FirmwareTask) : UartCall → Prop
  | .startDevice enVersion mac => enVersion = setup.enVersion ∧ mac = setup.mac
  | .receivedPacket _ payload => task = .usbMain ∧ payload.val.length ≤ 250
  | _ => True

/-- The messages on the line, and of which of the packets pushed they are. -/
structure Sent (setup : Setup) (rel : List EspNowCall → List EspNowCall → Prop)
    (pushed : List EspNowCall) (line : UartLine FirmwareTask) (calls : List UartCall)
    (owed : List UInt8) : Prop extends Streams setup.firmware.order line calls owed where
  fromTask : ∀ c ∈ calls, ∃ task, FromTask setup task c
  pushes : ∃ before, pushed = before ++ (line.tasks .usbMain).pending.toList ∧
    rel (calls.filterMap UartCall.packet?) before

/-- The invariant. The relation is between the packets on the line and those pushed. -/
structure Inv (setup : Setup) (rel : List EspNowCall → List EspNowCall → Prop) (pool : PacketPool)
    (line : UartLine FirmwareTask) (host : HostRun) : Prop where
  poolInv : pool.Inv setup.firmware.order
  issued : ∀ {task c}, (line.tasks task).call? = some c → FromTask setup task c
  sent : ∃ calls owed, Sent setup rel pool.pushedCalls line calls owed ∧
    host.Inv setup.host { setup.details with deviceName := [] } (calls.map UartCall.message)

variable {setup : Setup} {rel : List EspNowCall → List EspNowCall → Prop} {pool pool' : PacketPool}
  {line line' : UartLine FirmwareTask} {host host' : HostRun}

/-! ## The pool -/

/-- The packets that the transmit loop has pushed are the first ones of those enqueued. -/
theorem pushedCalls_eq {o : ByteOrder} {done current waiting : List EspNowCall}
    (h : PacketPool.Delivery o pool done current waiting) : pool.pushedCalls = done := by
  rw [PacketPool.pushedCalls, h.enqueued_eq, h.pushed_eq, List.length_map, List.take_left]

/-- A step that pushes nothing. -/
theorem pushedCalls_congr {o : ByteOrder} (h : pool.Inv o)
    (henqueued : pool.enqueued <+: pool'.enqueued) (hpushed : pool'.pushed = pool.pushed) :
    pool'.pushedCalls = pool.pushedCalls := by
  obtain ⟨new, hnew⟩ := henqueued
  have hle := h.intact.length_enqueued
  rw [PacketPool.pushedCalls, PacketPool.pushedCalls, ← hnew, hpushed,
    List.take_append_of_le_length (by omega)]

/-- The bytes of a packet determine the packet. -/
theorem packet?_pushCall {o : ByteOrder} {p : PoolPacket} {n : UInt32} {call : EspNowCall}
    (hn : n.toNat ≤ 261) (h : (p.bytes o).take n.toNat = PacketPool.receivedBytes o call) :
    (Node.pushCall p n).packet? = some call ∧ call.data.length ≤ 250 := by
  have hlen := congrArg List.length h
  rw [List.length_take, PoolPacket.length_bytes, PacketPool.receivedBytes,
    ReceivedPacket.length_serialize] at hlen
  have hsize : n.toNat = 11 + call.data.length := by
    change _ = 11 + call.data.length at hlen
    omega
  rw [PacketPool.receivedBytes, ReceivedPacket.serialize_eq, PoolPacket.bytes, packetBytes,
    packetBytes] at h
  -- the fixed parts are equally long, and what is pushed of the payload follows them
  have hfixed : ([p.id] ++ p.srcMac.toList ++ storeUInt32 o p.payloadSize).length = 11 := by simp
  rw [hsize, ← hfixed, List.take_length_add_append] at h
  obtain ⟨hheader, hdata⟩ := List.append_inj h (by simp)
  obtain ⟨hheader, -⟩ := List.append_inj hheader (by simp)
  obtain ⟨-, hmac⟩ := List.append_inj hheader (by simp)
  refine ⟨?_, by omega⟩
  rw [Node.pushCall, UartCall.packet?]
  refine congrArg some (EspNowCall.mk.injEq .. ▸ ⟨List.Vector.eq _ _ hmac, ?_⟩)
  show p.payload.toList.take (n.toNat - 11) = call.data
  rw [hsize, Nat.add_sub_cancel_left]
  exact hdata

/-- The statement of the transmit loop that pushes its slot. -/
theorem push_cases {o : ByteOrder} {slot : Fin 15} {n : UInt32} (h : pool.Inv o)
    (hslot : pool.transmission = some ⟨slot, .swapped n⟩) (ht : pool.mainStep o = some pool') :
    ∃ call, (Node.pushCall (pool.packets slot).data n).packet? = some call ∧
      call.data.length ≤ 250 ∧ pool'.pushedCalls = pool.pushedCalls ++ [call] := by
  obtain ⟨-, done, current, waiting, hdelivery⟩ := h
  have hsending := hdelivery.sending
  rw [hslot] at hsending
  obtain ⟨call, rfl, -, hn, hbytes⟩ := hsending
  obtain ⟨hpacket, hle⟩ := packet?_pushCall hn hbytes
  refine ⟨call, hpacket, hle, ?_⟩
  rw [PacketPool.mainStep, hslot] at ht
  simp only [PoolPacket.length_bytes, if_pos hn, Option.some.injEq] at ht
  rw [pushedCalls_eq hdelivery, ← ht]
  show pool.enqueued.take (pool.pushed ++ [_]).length = done ++ [call]
  rw [hdelivery.enqueued_eq, hdelivery.pushed_eq, ← List.append_assoc]
  exact List.take_left' (by simp)

/-! ## The line -/

/-- The transmit loop loses the packet that it pushes: it gives up on the semaphore, or a write of
it times out. -/
def Loses : UartLine.Event FirmwareTask → Prop
  | .takeFailed task => task = .usbMain
  | .write task result => task = .usbMain ∧ result = false
  | _ => False

instance : ∀ e, Decidable (Loses e)
  | .takeFailed task => inferInstanceAs (Decidable (task = .usbMain))
  | .write task result => inferInstanceAs (Decidable (task = .usbMain ∧ result = false))
  | .call _ _ => isFalse id
  | .take _ => isFalse id
  | .give _ => isFalse id

theorem writes_ne_nil (o : ByteOrder) (c : UartCall) : c.writes o ≠ [] := by
  cases c <;> exact List.cons_ne_nil _ _

/-- Only the transmit loop pushes packets. -/
theorem packet?_eq_none {task : FirmwareTask} {c : UartCall} (h : FromTask setup task c)
    (htask : task ≠ .usbMain) : c.packet? = none := by
  cases c with
  | receivedPacket mac payload => exact absurd h.1 htask
  | startDevice enVersion mac => rfl
  | ping => rfl
  | log stack message => rfl

variable {e : UartLine.Event FirmwareTask}

/-- The packet that is being pushed stays where it is, gets on the line, or is lost. -/
theorem pending_step (hissued : ∀ {task c}, (line.tasks task).call? = some c →
      FromTask setup task c) (hcall : ∀ task c, e ≠ .call task c)
    (ht : line.step setup.firmware.order e = some line') :
    ((line'.tasks .usbMain).pending = (line.tasks .usbMain).pending ∧
        (begun line e).filterMap UartCall.packet? = []) ∨
      ((line'.tasks .usbMain).pending = none ∧
        (begun line e).filterMap UartCall.packet? = (line.tasks .usbMain).pending.toList) ∨
      ((line'.tasks .usbMain).pending = none ∧
        (begun line e).filterMap UartCall.packet? = [] ∧ Loses e) := by
  obtain ⟨task, stage, htasks, hcases⟩ := step_task hcall ht
  by_cases htask : task = .usbMain
  · subst htask
    rw [htasks, Function.update_self]
    rcases hcases with ⟨c, rfl, hs, rfl⟩ | ⟨c, rfl, hs, rfl⟩ | ⟨result, c, results, rfl, hs, rfl⟩ |
      ⟨c, results, rfl, hs, hlen, rfl⟩
    -- the semaphore has been taken, or given up
    · rw [hs]
      exact Or.inl ⟨rfl, rfl⟩
    · exact Or.inr (Or.inr ⟨rfl, rfl, rfl⟩)
    · cases results with
      | nil =>
          -- the first write decides what becomes of the packet
          cases result with
          | true =>
              refine Or.inr (Or.inl ⟨rfl, ?_⟩)
              rw [begun, hs, TaskStage.pending]
              cases hpacket : c.packet? <;> simp [hpacket]
          | false => exact Or.inr (Or.inr ⟨rfl, rfl, rfl, rfl⟩)
      | cons first rest =>
          rw [hs]
          refine Or.inl ⟨rfl, ?_⟩
          cases result with
          | true => rw [begun, hs]; rfl
          | false => rfl
    -- the function has made at least one write
    · rw [hs]
      cases results with
      | nil => exact absurd (List.eq_nil_of_length_eq_zero hlen.symm) (writes_ne_nil _ c)
      | cons first rest => exact Or.inl ⟨rfl, rfl⟩
  · rw [htasks, Function.update_of_ne (Ne.symm htask)]
    refine Or.inl ⟨rfl, ?_⟩
    rcases hcases with ⟨c, rfl, -⟩ | ⟨c, rfl, -⟩ | ⟨result, c, results, rfl, hs, -⟩ |
      ⟨c, results, rfl, -⟩
    · rfl
    · rfl
    · have hnone : c.packet? = none := packet?_eq_none (hissued (by rw [hs]; rfl)) htask
      cases result with
      | true =>
          rw [begun, hs]
          cases results with
          | nil => exact List.filterMap_cons_none hnone
          | cons first rest => rfl
      | false => rfl
    · rfl

/-- A call stays a call of its task. -/
theorem issued_step (hissued : ∀ {task c}, (line.tasks task).call? = some c →
      FromTask setup task c) (hcall : ∀ task c, e ≠ .call task c)
    (ht : line.step setup.firmware.order e = some line') {task : FirmwareTask} {c : UartCall}
    (hc : (line'.tasks task).call? = some c) : FromTask setup task c := by
  obtain ⟨other, stage, htasks, hcases⟩ := step_task hcall ht
  rw [htasks] at hc
  by_cases hother : task = other
  · subst hother
    rw [Function.update_self] at hc
    refine hissued ?_
    rcases hcases with ⟨c', rfl, hs, rfl⟩ | ⟨c', rfl, hs, rfl⟩ | ⟨_, c', results, rfl, hs, rfl⟩ |
      ⟨c', results, rfl, hs, -, rfl⟩
    · rw [hs]; exact hc
    · cases hc
    · rw [hs]; exact hc
    · cases hc
  · rw [Function.update_of_ne hother] at hc
    exact hissued hc

/-- A call that begins is one of those that the tasks are in. -/
theorem fromTask_begun (hissued : ∀ {task c}, (line.tasks task).call? = some c →
      FromTask setup task c) {c : UartCall} (hc : c ∈ begun line e) :
    ∃ task, FromTask setup task c := by
  cases e with
  | write task result =>
      cases result with
      | false => exact absurd hc List.not_mem_nil
      | true =>
          rw [begun] at hc
          split at hc
          · next call htask =>
            obtain rfl := List.mem_singleton.mp hc
            exact ⟨task, hissued (by rw [htask]; rfl)⟩
          · exact absurd hc List.not_mem_nil
  | call => exact absurd hc List.not_mem_nil
  | take => exact absurd hc List.not_mem_nil
  | takeFailed => exact absurd hc List.not_mem_nil
  | give => exact absurd hc List.not_mem_nil

/-- An event on the line that is no call. -/
theorem Sent.uart {pushed : List EspNowCall} {calls : List UartCall} {owed : List UInt8}
    (h : Sent setup rel pushed line calls owed)
    (hissued : ∀ {task c}, (line.tasks task).call? = some c → FromTask setup task c)
    (hcall : ∀ task c, e ≠ .call task c) (huniform : Uniform line e)
    (happend : ∀ {sent before} new, rel sent before → rel (sent ++ new) (before ++ new))
    (hloses : Loses e → ∀ {sent before} lost, rel sent before → rel sent (before ++ lost))
    (ht : line.step setup.firmware.order e = some line') :
    ∃ owed', Sent setup rel pushed line' (calls ++ begun line e) owed' := by
  obtain ⟨owed', hstreams⟩ := h.toStreams.step huniform ht
  obtain ⟨before, hpushed, hrel⟩ := h.pushes
  refine ⟨owed', hstreams, fun c hc => ?_, ?_⟩
  · rcases List.mem_append.mp hc with hc | hc
    · exact h.fromTask c hc
    · exact fromTask_begun hissued hc
  · rw [List.filterMap_append]
    rcases pending_step hissued hcall ht with ⟨hpending, hbegun⟩ | ⟨hpending, hbegun⟩ |
      ⟨hpending, hbegun, hlost⟩
    · exact ⟨before, hpending ▸ hpushed, by rwa [hbegun, List.append_nil]⟩
    · exact ⟨pushed, by rw [hpending]; exact (List.append_nil _).symm,
        by rw [hbegun, hpushed]; exact happend _ hrel⟩
    · exact ⟨pushed, by rw [hpending]; exact (List.append_nil _).symm,
        by rw [hbegun, List.append_nil, hpushed]; exact hloses hlost _ hrel⟩

/-- A task that is idle makes a call. -/
theorem Sent.call {pushed : List EspNowCall} {calls : List UartCall} {owed : List UInt8}
    {task : FirmwareTask} {c : UartCall} (h : Sent setup rel pushed line calls owed)
    (hc : FromTask setup task c) (ht : line.step setup.firmware.order (.call task c) = some line') :
    Sent setup rel (pushed ++ c.packet?.toList) line' calls owed := by
  have hexclusive : Exclusive line' := exclusive_step h.toExclusive ht
  obtain ⟨before, hpushed, hrel⟩ := h.pushes
  simp only [UartLine.step] at ht
  split at ht
  · next hidle =>
    obtain rfl := Option.some.inj ht
    refine ⟨⟨hexclusive, h.wire_append, h.free_owed, fun hother => ?_⟩, h.fromTask, before,
      ?_, hrel⟩
    · rcases tasks_setTask_eq hother with ⟨-, hwriting⟩ | ⟨-, hwriting⟩
      · cases hwriting
      · exact h.owes hwriting
    · by_cases htask : task = .usbMain
      -- the loop was idle, so no other packet is being pushed
      · subst htask
        rw [hidle] at hpushed
        have hdone : pushed = before := hpushed.trans (List.append_nil _)
        rw [hdone]
        show _ = _ ++ (Function.update line.tasks .usbMain (.taking c) .usbMain).pending.toList
        rw [Function.update_self]
        rfl
      · rw [packet?_eq_none hc htask, hpushed]
        show _ = _ ++ (Function.update line.tasks task (.taking c) .usbMain).pending.toList
        rw [Function.update_of_ne (Ne.symm htask)]
        exact List.append_nil _
  · cases ht

/-! ## The daemon -/

variable (setup) in
/-- What the daemon reads of the bytes that are there does not depend on those that follow. -/
theorem serialRead_append {bytes : List UInt8} {count : ℕ} (more : List UInt8)
    (hcan : HostRun.CanRead bytes host count) :
    HostRun.step setup.host (bytes ++ more) host (.serialRead count) =
      HostRun.step setup.host bytes host (.serialRead count) := by
  have hmore : HostRun.CanRead (bytes ++ more) host count :=
    ⟨hcan.1, by rw [List.length_append]; exact Nat.le_add_right_of_le hcan.2⟩
  have hle := hcan.2
  rw [HostRun.step, HostRun.step, if_pos hcan, if_pos hmore,
    List.drop_append_of_le_length (by omega),
    List.take_append_of_le_length (by rw [List.length_drop]; omega)]

theorem hostStep_append {bytes : List UInt8} {e : HostEvent} (more : List UInt8)
    (ht : HostRun.step setup.host bytes host e = some host') :
    HostRun.step setup.host (bytes ++ more) host e = some host' := by
  cases e with
  | serialRead count =>
      have hcan : HostRun.CanRead bytes host count := by
        by_contra hcan
        rw [HostRun.step, if_neg hcan] at ht
        cases ht
      rw [serialRead_append setup more hcan, ht]
  | tunRead frame => exact ht
  | serialWritten => exact ht
  | tunWritten => exact ht

/-- The daemon can receive what the tasks write. -/
theorem wellFormed_message {task : FirmwareTask} {c : UartCall} (h : FromTask setup task c) :
    c.message.WellFormed := by
  cases c with
  | startDevice enVersion mac =>
      refine ⟨rfl, ?_⟩
      rw [UartCall.message, DeviceMessage.encode, StartDevice.length_toBytes]
      decide
  | ping => exact ⟨trivial, by decide⟩
  | receivedPacket mac payload =>
      have hle : payload.val.length ≤ 250 := h.2
      refine ⟨show payload.val.length ≤ 498 by omega, ?_⟩
      simp only [UartCall.message, DeviceMessage.encode, List.length_cons, List.length_append,
        length_lengthField, List.Vector.toList_length]
      omega
  | log stack message =>
      refine ⟨trivial, ?_⟩
      simp only [UartCall.message, DeviceMessage.encode, List.length_cons, List.length_append,
        length_lengthField, length_logBuffer, List.cons_append]
      omega

theorem Sent.wellFormed {pushed : List EspNowCall} {calls : List UartCall} {owed : List UInt8}
    (h : Sent setup rel pushed line calls owed) :
    ∀ m ∈ calls.map UartCall.message, m.WellFormed := by
  intro m hm
  obtain ⟨c, hc, rfl⟩ := List.mem_map.mp hm
  obtain ⟨task, hfrom⟩ := h.fromTask c hc
  exact wellFormed_message hfrom

/-- The frames of the messages on the line are those of the packets on it. -/
theorem frames_map_message (calls : List UartCall) :
    frames (calls.map UartCall.message) =
      (calls.filterMap UartCall.packet?).map EspNowCall.frame := by
  rw [frames, List.filterMap_map, List.map_filterMap]
  refine List.filterMap_congr fun c _ => ?_
  cases c <;> rfl

/-- The announcements on the line are those of the device. -/
theorem firstStart_message {calls : List UartCall}
    (hcalls : ∀ c ∈ calls, ∃ task, FromTask setup task c) {ms : List DeviceMessage}
    (hms : ms <+: calls.map UartCall.message) {message : StartDevice}
    (h : firstStart ms = some message) : message = startMessage setup.enVersion setup.mac := by
  obtain ⟨m, hm, hstart⟩ := List.exists_of_findSome?_eq_some h
  obtain ⟨c, hc, rfl⟩ := List.mem_map.mp (hms.subset hm)
  obtain ⟨task, hfrom⟩ := hcalls c hc
  cases c with
  | startDevice enVersion mac =>
      obtain ⟨rfl, rfl⟩ := hfrom
      exact (Option.some.inj hstart).symm
  | ping => cases hstart
  | receivedPacket mac payload => cases hstart
  | log stack message => cases hstart

/-! ## Every event -/

/-- The pool takes a step that pushes nothing. -/
theorem Inv.poolStep {e : PacketPool.Event} (h : Inv setup rel pool line host)
    (ht : PacketPool.step setup.firmware.order pool e = some pool')
    (hpushed : pool'.pushedCalls = pool.pushedCalls) : Inv setup rel pool' line host := by
  obtain ⟨calls, owed, hsent, hhost⟩ := h.sent
  exact ⟨PacketPool.inv_step pool e pool' h.poolInv ht, h.issued, calls, owed, hpushed ▸ hsent,
    hhost⟩

/-- A task makes a call, and the pool has taken a step that pushes what the call pushes. -/
theorem Inv.call {task : FirmwareTask} {c : UartCall} (h : Inv setup rel pool line host)
    (hpool : pool'.Inv setup.firmware.order)
    (hpushed : pool'.pushedCalls = pool.pushedCalls ++ c.packet?.toList)
    (hc : FromTask setup task c) (ht : line.step setup.firmware.order (.call task c) = some line') :
    Inv setup rel pool' line' host := by
  obtain ⟨calls, owed, hsent, hhost⟩ := h.sent
  refine ⟨hpool, fun {other c'} hother => ?_, calls, owed, hpushed ▸ hsent.call hc ht, hhost⟩
  simp only [UartLine.step] at ht
  split at ht
  · obtain rfl := Option.some.inj ht
    by_cases htask : other = task
    · subst htask
      have hsame : (Function.update line.tasks other (.taking c) other).call? = some c' := hother
      rw [Function.update_self] at hsame
      exact Option.some.inj hsame ▸ hc
    · have hsame : (Function.update line.tasks task (.taking c) other).call? = some c' := hother
      rw [Function.update_of_ne htask] at hsame
      exact h.issued hsame
  · cases ht

/-- An event on the line that is no call. -/
theorem Inv.uart (h : Inv setup rel pool line host) (hcall : ∀ task c, e ≠ .call task c)
    (huniform : Uniform line e)
    (happend : ∀ {sent before} new, rel sent before → rel (sent ++ new) (before ++ new))
    (hloses : Loses e → ∀ {sent before} lost, rel sent before → rel sent (before ++ lost))
    (ht : line.step setup.firmware.order e = some line') : Inv setup rel pool line' host := by
  obtain ⟨calls, owed, hsent, hhost⟩ := h.sent
  obtain ⟨owed', hsent'⟩ := hsent.uart h.issued hcall huniform happend hloses ht
  refine ⟨h.poolInv, fun hc => issued_step h.issued hcall ht hc, _, owed', hsent', ?_⟩
  rw [List.map_append]
  exact hhost.append _

/-- Something happens to the daemon. -/
theorem Inv.hostStep {e : HostEvent} (h : Inv setup rel pool line host)
    (ht : HostRun.step setup.host line.wire host e = some host') :
    Inv setup rel pool line host' := by
  obtain ⟨calls, owed, hsent, hhost⟩ := h.sent
  have hstep := hostStep_append owed ht
  rw [hsent.wire_append] at hstep
  exact ⟨h.poolInv, h.issued, calls, owed, hsent,
    HostRun.inv_step hsent.wellFormed _ _ _ hhost hstep⟩

/-- The callback's and the loop's statements, but for the push. -/
theorem pushedCalls_step {o : ByteOrder} {e : PacketPool.Event} (h : pool.Inv o)
    (hnot : e = .main → ∀ slot n, pool.transmission ≠ some ⟨slot, .swapped n⟩)
    (ht : PacketPool.step o pool e = some pool') : pool'.pushedCalls = pool.pushedCalls := by
  cases e with
  | received call =>
      have ht : pool.receive call = some pool' := ht
      unfold PacketPool.receive at ht
      split at ht
      · cases ht
      split at ht
      · rw [Option.some.inj ht]
      split at ht <;> obtain rfl := Option.some.inj ht <;> rfl
  | callback =>
      obtain ⟨c, -, ⟨stage, f, rfl⟩ | rfl⟩ := PacketPool.callbackStep_cases ht
      · rfl
      · exact pushedCalls_congr h (List.prefix_append _ _) rfl
  | sendFailed =>
      obtain ⟨c, -, -, -, rfl⟩ := PacketPool.sendFailed_cases ht
      rfl
  | main =>
      have ht : pool.mainStep o = some pool' := ht
      unfold PacketPool.mainStep at ht
      split at ht
      · split at ht
        · cases ht
        · obtain rfl := Option.some.inj ht
          rfl
      · next u hu =>
        obtain ⟨slot, stage⟩ := u
        cases stage with
        | swapped n => exact absurd hu (hnot rfl slot n)
        | dequeued => obtain rfl := Option.some.inj ht; rfl
        | sized n => obtain rfl := Option.some.inj ht; rfl
        | idWritten n => obtain rfl := Option.some.inj ht; rfl
        | pushed => obtain rfl := Option.some.inj ht; rfl

end ToHost

namespace Node

open ToHost

/-- No call has one piece of its message written and another one timed out. -/
def Uniform (s : Node) : Event → Prop := OnUart s.line.Uniform

instance (s : Node) : DecidablePred (Uniform s) :=
  inferInstanceAs (DecidablePred (OnUart s.line.Uniform))

/-- No push of the transmit loop is lost. -/
def Lossless : Event → Prop := OnUart fun e => ¬ Loses e

instance : DecidablePred Lossless := inferInstanceAs (DecidablePred (OnUart fun e => ¬ Loses e))

/-- The invariant for a node. -/
def ToHostInv (setup : Setup) (rel : List EspNowCall → List EspNowCall → Prop) (s : Node) : Prop :=
  ToHost.Inv setup rel s.pool s.line s.host

variable {setup : Setup} {rel : List EspNowCall → List EspNowCall → Prop} {s t : Node}

/-- A task other than the transmit loop makes a call. -/
theorem ToHostInv.call (h : s.ToHostInv setup rel) {task : FirmwareTask} {c : UartCall}
    (hc : FromTask setup task c) (hnone : c.packet? = none) (ht : s.call setup task c = some t) :
    t.ToHostInv setup rel := by
  obtain ⟨line, hline, rfl⟩ := call_cases ht
  exact ToHost.Inv.call h h.poolInv (by rw [hnone]; exact (List.append_nil _).symm) hc hline

/-- A statement of the callback or of the transmit loop that pushes nothing. -/
theorem ToHostInv.pool (h : s.ToHostInv setup rel) {e : PacketPool.Event} {pool : PacketPool}
    (hnot : e = .main → ∀ slot n, s.pool.transmission ≠ some ⟨slot, .swapped n⟩)
    (ht : PacketPool.step setup.firmware.order s.pool e = some pool) :
    ({ s with pool } : Node).ToHostInv setup rel :=
  ToHost.Inv.poolStep h ht (pushedCalls_step h.poolInv hnot ht)

/-- The transmit loop's next statement. -/
theorem ToHostInv.main (h : s.ToHostInv setup rel) (ht : s.mainStep setup = some t) :
    t.ToHostInv setup rel := by
  obtain ⟨pool, hpool, ⟨slot, n, line, hslot, hline, rfl⟩ | ⟨hnot, rfl⟩⟩ := mainStep_cases ht
  · obtain ⟨call, hpacket, hle, hpushed⟩ := push_cases h.poolInv hslot hpool
    refine ToHost.Inv.call h (PacketPool.inv_step _ .main _ h.poolInv hpool)
      (by rw [hpushed, hpacket]; rfl) ?_ hline
    obtain rfl := Option.some.inj hpacket
    exact ⟨rfl, hle⟩
  · exact h.pool (e := .main) (fun _ => hnot) hpool

/-- The callback is called. -/
theorem ToHostInv.receive (h : s.ToHostInv setup rel) {call : EspNowCall}
    {stack : List.Vector UInt8 256} (ht : s.receive setup call stack = some t) :
    t.ToHostInv setup rel := by
  obtain ⟨pool, hpool, rfl | ⟨line, hline, rfl⟩⟩ := receive_cases ht
  · exact h.pool (e := .received call) (by rintro ⟨⟩) hpool
  · have hinv := h.pool (e := .received call) (by rintro ⟨⟩) hpool
    have hlog : FromTask setup .wifi (.log stack .noSpaceToStoreReceivedPacket) := trivial
    exact ToHost.Inv.call hinv hinv.poolInv (List.append_nil _).symm hlog hline

/-- Every event keeps the invariant. -/
theorem toHostInv_step {e : Event} (h : s.ToHostInv setup rel) (huniform : Uniform s e)
    (happend : ∀ {sent before} new, rel sent before → rel (sent ++ new) (before ++ new))
    (hloses : ¬ Lossless e → ∀ {sent before} lost, rel sent before → rel sent (before ++ lost))
    (ht : step setup s e = some t) : t.ToHostInv setup rel := by
  cases e with
  | host e =>
      obtain ⟨host, hhost, rfl⟩ := Option.map_eq_some_iff.mp ht
      exact ToHost.Inv.hostStep h hhost
  | announce =>
      obtain ⟨usb, -, ht⟩ := Option.bind_eq_some_iff.mp ht
      have hc : FromTask setup .usbMain (.startDevice setup.enVersion setup.mac) := ⟨rfl, rfl⟩
      exact ToHostInv.call (s := { s with usb }) h hc rfl ht
  | read count =>
      rw [step, Option.ite_none_right_eq_some] at ht
      obtain ⟨usb, -, rfl⟩ := Option.map_eq_some_iff.mp ht.2
      exact h
  | log stack =>
      simp only [step] at ht
      split at ht
      · cases ht
      · next message logs _ =>
        have hc : FromTask setup .jtagReceive (.log stack message) := trivial
        exact ToHostInv.call (s := { s with logs }) h hc rfl ht
  | ping =>
      rw [step, Option.ite_none_right_eq_some] at ht
      have hc : FromTask setup .ping .ping := trivial
      exact h.call hc rfl ht.2
  | received call stack =>
      rw [step, Option.ite_none_right_eq_some] at ht
      exact h.receive ht.2
  | callback =>
      obtain ⟨pool, hpool, rfl⟩ := Option.map_eq_some_iff.mp ht
      exact h.pool (e := .callback) (by rintro ⟨⟩) hpool
  | sendFailed =>
      obtain ⟨pool, hpool, rfl⟩ := Option.map_eq_some_iff.mp ht
      exact h.pool (e := .sendFailed) (by rintro ⟨⟩) hpool
  | main =>
      rw [step, Option.ite_none_right_eq_some] at ht
      exact h.main ht.2
  | uart e =>
      obtain ⟨hcall, line, hline, rfl⟩ := uart_cases ht
      exact ToHost.Inv.uart h hcall huniform happend (fun hl => hloses (not_not.mpr hl)) hline

/-- Before the first event nothing has been pushed. -/
theorem toHostInv_start (hrel : rel [] []) : (start setup).ToHostInv setup rel where
  poolInv := PacketPool.inv_start _
  issued := nofun
  sent := ⟨[], [], ⟨streams_start _, fun _ hc => absurd hc List.not_mem_nil, [], rfl, hrel⟩,
    HostRun.inv_start _ _ _ _ _ _⟩

/-! ## What the daemon has got -/

/-- The frames queued for the TAP device are those of packets on the line. -/
theorem ToHostInv.exists_frames (h : s.ToHostInv setup rel) :
    ∃ sent before received, received <+: sent ∧ rel sent before ∧ before <+: s.pool.enqueued ∧
      s.host.device.tunFdWriteBuffers.accepted = received.map EspNowCall.frame := by
  obtain ⟨calls, owed, hsent, hhost⟩ := h.sent
  obtain ⟨before, hpushed, hrel⟩ := hsent.pushes
  -- the messages that the daemon has handled are the first ones on the line
  have hcomplete : complete encode (calls.map UartCall.message) s.host.received <+:
      calls.map UartCall.message := complete_prefix _ _
  have hframes : frames (complete encode (calls.map UartCall.message) s.host.received) <+:
      (calls.filterMap UartCall.packet?).map EspNowCall.frame := by
    rw [← frames_map_message]
    exact hcomplete.filterMap _
  obtain ⟨received, hreceived, hmap⟩ := List.prefix_map_iff.mp hframes
  refine ⟨_, before, received, hreceived, hrel, ?_, hhost.delivered.frames_eq.trans hmap⟩
  have hprefix : before <+: s.pool.pushedCalls := ⟨_, hpushed.symm⟩
  exact hprefix.trans (List.take_prefix _ _)

/-- The daemon has from the device what is on the radio, and what the device says about itself. -/
structure Faithful (setup : Setup) (s : Node) : Prop where
  /-- The frames are those of enqueued packets, in order. -/
  frames : ∃ calls : List EspNowCall, calls.Sublist s.pool.enqueued ∧
    s.host.device.tunFdWriteBuffers.accepted = calls.map EspNowCall.frame
  /-- The details are those of the device from the answer on, and those of no device before. -/
  details : s.host.device.deviceDetails = if s.host.device.requestedStart then
    EspnowUartDevice.detailsOf setup.host s.host.device.espnowId
      (startMessage setup.enVersion setup.mac)
    else { setup.details with deviceName := [] }
  /-- Whatever part of the line is read, the daemon can handle it. -/
  defined : ∀ count, HostRun.CanRead s.line.wire s.host count →
    (step setup s (.host (.serialRead count))).isSome
  /-- The callback can go on, unless it waits for room in the queue. -/
  callback : ∀ c, s.pool.callback = some c →
    (c.stage = .payloadFilled → s.pool.receiveQueue.length < espnowQueueSize) →
    (step setup s .callback).isSome

theorem ToHostInv.details (h : s.ToHostInv setup rel) :
    s.host.device.deviceDetails = if s.host.device.requestedStart then
      EspnowUartDevice.detailsOf setup.host s.host.device.espnowId
        (startMessage setup.enVersion setup.mac)
      else { setup.details with deviceName := [] } := by
  obtain ⟨calls, owed, hsent, hhost⟩ := h.sent
  rw [hhost.delivered.deviceDetails_eq, hhost.delivered.requestedStart_eq]
  cases hfirst : firstStart (complete encode (calls.map UartCall.message) s.host.received) with
  | none => rfl
  | some message =>
      have hcomplete : complete encode (calls.map UartCall.message) s.host.received <+:
          calls.map UartCall.message := complete_prefix _ _
      rw [firstStart_message hsent.fromTask hcomplete hfirst]
      rfl

theorem ToHostInv.defined (h : s.ToHostInv setup rel) {count : ℕ}
    (hcan : HostRun.CanRead s.line.wire s.host count) :
    (step setup s (.host (.serialRead count))).isSome := by
  obtain ⟨calls, owed, hsent, hhost⟩ := h.sent
  have hsame := serialRead_append setup owed hcan
  rw [hsent.wire_append] at hsame
  have hcan' : HostRun.CanRead (stream encode (calls.map UartCall.message)) s.host count := by
    rw [← hsent.wire_append]
    exact ⟨hcan.1, by rw [List.length_append]; exact Nat.le_add_right_of_le hcan.2⟩
  obtain ⟨host, hhost, -⟩ := hhost.serialRead hsent.wellFormed hcan'
  show ((HostRun.step setup.host s.line.wire s.host (.serialRead count)).map _).isSome
  rw [← hsame, hhost]
  rfl

/-- The callback has filled in what fits its slot. -/
theorem isSome_callback (hfits : ∀ call ∈ s.pool.calls, call.data.length ≤ 250) {c : Callback}
    (hc : s.pool.callback = some c)
    (hroom : c.stage = .payloadFilled →
      s.pool.receiveQueue.length < espnowQueueSize) :
    (step setup s .callback).isSome := by
  have hmem : c.call ∈ s.pool.calls := by
    rw [PacketPool.calls, hc]
    exact List.mem_append_right _ (List.mem_singleton_self _)
  obtain ⟨pool, hpool, -⟩ := PacketPool.exists_callbackStep hc (hfits _ hmem) hroom
  rw [step, hpool]
  rfl

/-- In every run in which no call has one piece of its message written and another one timed out,
and in which every packet fits its slot, the daemon gets the packets of the radio in order, each at
most once and unaltered, and knows the device by its own announcement. -/
theorem frames_sublist (setup : Setup) (es : List Event)
    (hsteps : EachStep (step setup) (fun s e => Uniform s e ∧ Fits e) (start setup) es) :
    Always (step setup) (Faithful setup) (start setup) es := by
  refine always_of_eachStep (fun s e t hs hC ht => ?_)
    (fun s (hs : s.ToHostInv setup List.Sublist ∧
      ∀ call ∈ s.pool.calls, call.data.length ≤ 250) => ?_)
    ⟨toHostInv_start List.Sublist.slnil, fun _ hcall => absurd hcall List.not_mem_nil⟩ hsteps
  · refine ⟨?_, fits_step hs.2 hC.2 ht⟩
    exact toHostInv_step hs.1 hC.1 (fun new hsub => hsub.append_right new)
      (fun _ _ _ lost hsub => hsub.trans (List.sublist_append_left _ lost)) ht
  · obtain ⟨h, hfits⟩ := hs
    obtain ⟨sent, before, received, hreceived, hsub, hbefore, hframes⟩ := h.exists_frames
    exact ⟨⟨received, (hreceived.sublist.trans hsub).trans hbefore.sublist, hframes⟩, h.details,
      fun _ => h.defined, fun _ => isSome_callback hfits⟩

/-- A packet of two bytes on its way to the TAP device, with a ping in front of it. -/
def packetRun : List Event :=
  let call : EspNowCall := ⟨.replicate 6 7, [1, 82]⟩
  let uart (task : FirmwareTask) : List Event :=
    [.uart (.take task), .uart (.write task true), .uart (.give task)]
  [.announce] ++ uart .usbMain ++ [.host (.serialRead 34), .host .serialWritten, .read 1,
    .received call (.replicate _ 0), .callback, .callback, .callback, .callback, .callback,
    .main, .main, .ping, .main, .main, .main] ++ uart .ping ++ uart .usbMain ++
    [.host (.serialRead 9), .host (.serialRead 8), .main]

theorem frames_sublist_packet :
    (run (step .zeroed) (start .zeroed) packetRun).map
        (fun s => s.host.device.tunFdWriteBuffers.accepted) =
      some [EspNowCall.frame ⟨.replicate 6 7, [1, 82]⟩] ∧
    Always (step .zeroed) (Faithful .zeroed) (start .zeroed) packetRun :=
  ⟨by decide +kernel, frames_sublist .zeroed packetRun (by decide +kernel)⟩

/-- Everything that was enqueued has been pushed and read: the queue is empty, no task is at the
line, and the daemon has read all of it. -/
structure AtRest (s : Node) : Prop where
  receiveQueue_eq : s.pool.receiveQueue = []
  transmission_eq : s.pool.transmission = none
  idle : s.Idle .usbMain
  semaphoreFree : s.line.semaphoreFree = true
  received_eq : s.host.received = s.line.wire.length

/-- With the queue empty and the loop waiting for it, everything enqueued has been pushed. -/
theorem pushedCalls_of_idle {o : ByteOrder} {pool : PacketPool} (h : pool.Inv o)
    (hqueue : pool.receiveQueue = []) (htransmission : pool.transmission = none) :
    pool.pushedCalls = pool.enqueued := by
  obtain ⟨-, done, current, waiting, hdelivery⟩ := h
  have hcurrent := hdelivery.sending
  rw [htransmission] at hcurrent
  have hwaiting := hdelivery.queued.length_eq
  rw [hqueue] at hwaiting
  rw [pushedCalls_eq hdelivery, hdelivery.enqueued_eq, show current = [] from hcurrent,
    List.eq_nil_of_length_eq_zero hwaiting.symm]
  exact (List.append_nil _).symm

/-- At rest, the frames are those of all packets on the line. -/
theorem ToHostInv.frames_of_atRest (h : s.ToHostInv setup Eq) (hrest : s.AtRest) :
    s.host.device.tunFdWriteBuffers.accepted = s.pool.enqueued.map EspNowCall.frame := by
  obtain ⟨calls, owed, hsent, hhost⟩ := h.sent
  -- nothing is being pushed, so what has been pushed is on the line
  obtain ⟨before, hpushed, rfl⟩ := hsent.pushes
  rw [hrest.idle, pushedCalls_of_idle h.poolInv hrest.receiveQueue_eq hrest.transmission_eq]
    at hpushed
  have hwire := hsent.wire_append
  rw [hsent.free_owed hrest.semaphoreFree, List.append_nil] at hwire
  -- the whole line has been read, so every message on it is complete
  have hcomplete : complete encode (calls.map UartCall.message) s.host.received =
      calls.map UartCall.message :=
    complete_eq_self encode (by rw [hrest.received_eq, hwire])
  rw [hhost.delivered.frames_eq, hcomplete, frames_map_message, hpushed]
  exact congrArg _ (List.append_nil _).symm

end Node
