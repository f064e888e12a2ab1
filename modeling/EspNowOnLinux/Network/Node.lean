import EspNowOnLinux.Firmware.PacketDelivery
import EspNowOnLinux.Firmware.UartStream
import EspNowOnLinux.Handshake

/-!
# A device and the daemon it is plugged into

All of the firmware and the daemon's device object, with the serial line in both directions. The
firmware consists of four tasks: `usb_main`, which makes the handshake and then runs the transmit
loop, `jtag_receive_task`, `ping_task`, and the task in which ESP-NOW calls the receive callback.
All of them write to the host and share `jtag_tx_semaphore`.

`Link` is the handshake on its own, where a push always goes through. Here each push is made up of
the steps of `UartLine`, and the device reads what the daemon's writes have transferred, whether or
not they were started in order. A write of the daemon that completes has transferred the whole of
its packet.

## Main results

* `call_cases`, `mainStep_cases` and `receive_cases`: what the events that concern more than one
  part of a node do to them;
* `step_parts`: what an event does to the pool, to the line and to the daemon, each on its own;
* `step_frame`: which events leave the daemon and the handshake alone;
* `calls_step`, `fits_step`: what the callback is called with.
-/

open Bytes Framing Messages StateMachine

/-- The tasks of the firmware. -/
inductive FirmwareTask
  /-- `usb_main`. -/
  | usbMain
  /-- `jtag_receive_task`. -/
  | jtagReceive
  /-- `ping_task`. -/
  | ping
  /-- The task that calls `example_espnow_recv_cb`. -/
  | wifi
  deriving DecidableEq

/-- A device and its daemon. -/
structure Node where
  /-- The daemon's device object. -/
  host : HostRun
  /-- The frames that the daemon has read from its TAP device. -/
  tapped : List (PacketBuffer 512)
  /-- The line to the daemon and where each task is with it. -/
  line : UartLine FirmwareTask
  /-- Where `usb_main` is in the handshake, and `jtag_receive_task` once it is complete. -/
  usb : UsbMain
  /-- What `jtag_receive_task` has yet to log. -/
  logs : List FirmwareLog
  /-- The packets from the radio. -/
  pool : PacketPool

namespace Node

/-- What can happen to a node. -/
inductive Event
  /-- Something happens to the daemon. -/
  | host (e : HostEvent)
  /-- The handshake loop calls `push_to_uart_with_synchro`. -/
  | announce
  /-- `usb_serial_jtag_read_bytes` returns this many bytes, to the loop or to the task. -/
  | read (count : ℕ)
  /-- `jtag_receive_task` calls `log_to_uart`, on a stack that holds `stack`. -/
  | log (stack : List.Vector UInt8 256)
  /-- `ping_task` calls `push_to_uart_with_synchro`. -/
  | ping
  /-- ESP-NOW calls the callback. -/
  | received (call : EspNowCall) (stack : List.Vector UInt8 256)
  /-- The callback executes its next statement. -/
  | callback
  /-- The callback gives up on the queue. -/
  | sendFailed
  /-- The transmit loop executes its next statement. -/
  | main
  /-- A task takes the semaphore, writes or gives it back. -/
  | uart (e : UartLine.Event FirmwareTask)

/-- What the device can read: the buffers that the daemon's writes have transferred. -/
def toDevice (s : Node) : List UInt8 :=
  stream PacketBuffer.buffer s.host.device.serialPort.writeQueue.written

/-- The handshake is complete. -/
def Ready (s : Node) : Prop := ∃ first origin run, s.usb = .task first origin run

instance (s : Node) : Decidable s.Ready :=
  match h : s.usb with
  | .pushing _ => isFalse fun ⟨_, _, _, ht⟩ => by rw [h] at ht; cases ht
  | .reading _ => isFalse fun ⟨_, _, _, ht⟩ => by rw [h] at ht; cases ht
  | .task first origin run => isTrue ⟨first, origin, run, h⟩

/-- The task is in none of the functions that write to the line. -/
def Idle (s : Node) (task : FirmwareTask) : Prop := s.line.tasks task = .idle

instance (s : Node) (task : FirmwareTask) : Decidable (s.Idle task) :=
  match h : s.line.tasks task with
  | .idle => isTrue h
  | .taking _ => isFalse fun ht => by rw [Idle, h] at ht; cases ht
  | .writing _ _ => isFalse fun ht => by rw [Idle, h] at ht; cases ht

/-- The calls of `esp_now_send`. -/
def sent (s : Node) : List (MacAddress × List UInt8) := s.usb.sent

/-- What `jtag_receive_task` has logged. -/
def logged : UsbMain → List FirmwareLog
  | .task _ _ run => run.task.done.logs
  | _ => []

/-- The call of `push_to_uart_with_synchro` with the first `totalSize` bytes of a slot. -/
def pushCall (p : PoolPacket) (totalSize : UInt32) : UartCall :=
  .receivedPacket p.srcMac ⟨p.payload.toList.take (totalSize.toNat - 11), by
    have hle := List.length_take_le (totalSize.toNat - 11) p.payload.toList
    rw [List.length_take, p.payload.toList_length]
    omega⟩

variable (setup : Setup)

/-- A task calls one of the functions that write to the line. -/
def call (s : Node) (task : FirmwareTask) (c : UartCall) : Option Node :=
  (s.line.step setup.firmware.order (.call task c)).map fun line => { s with line }

/-- The next statement of the transmit loop. -/
def mainStep (s : Node) : Option Node :=
  (s.pool.mainStep setup.firmware.order).bind fun pool =>
    match s.pool.transmission with
    | some ⟨slot, .swapped totalSize⟩ =>
        -- the statement that pushes the slot is a call
        { s with pool }.call setup .usbMain (pushCall (s.pool.packets slot).data totalSize)
    | _ => some { s with pool }

/-- `example_espnow_recv_cb` up to the choice of a slot, or up to its log message. -/
def receive (s : Node) (espNowCall : EspNowCall) (stack : List.Vector UInt8 256) : Option Node :=
  (s.pool.receive espNowCall).bind fun pool =>
    -- the callback logs only that no slot is free
    if pool.logs = s.pool.logs then some { s with pool }
    else { s with pool }.call setup .wifi (.log stack .noSpaceToStoreReceivedPacket)

/-- The driver returns bytes. What the task logs while it handles them it logs afterwards, before it
reads again. -/
def read (s : Node) (count : ℕ) : Option Node :=
  (s.usb.read setup.firmware setup.jtagContents s.toDevice count).map fun usb =>
    { s with usb, logs := (logged usb).drop (logged s.usb).length }

/-- The node after an event; `none` is an event that cannot happen, or undefined behaviour. -/
def step (s : Node) : Event → Option Node
  | .host e =>
      (HostRun.step setup.host s.line.wire s.host e).map fun host =>
        { s with
          host
          tapped := s.tapped ++ match e with
            | .tunRead frame => [frame]
            | _ => [] }
  | .announce =>
      s.usb.push.bind fun usb =>
        { s with usb }.call setup .usbMain (.startDevice setup.enVersion setup.mac)
  | .read count =>
      -- the loop reads until the task takes over, and the task only once it has logged
      if s.Idle (if s.Ready then .jtagReceive else .usbMain) ∧ s.logs = [] then
        s.read setup count
      else none
  | .log stack =>
      match s.logs with
      | [] => none
      | message :: logs => { s with logs }.call setup .jtagReceive (.log stack message)
  | .ping => if s.Ready then s.call setup .ping .ping else none
  | .received espNowCall stack =>
      if s.Ready ∧ s.Idle .wifi then s.receive setup espNowCall stack else none
  | .callback => s.pool.callbackStep.map fun pool => { s with pool }
  | .sendFailed => s.pool.sendFailed.map fun pool => { s with pool }
  | .main => if s.Ready ∧ s.Idle .usbMain then s.mainStep setup else none
  -- calls are made by the events above
  | .uart (.call _ _) => none
  | .uart e => (s.line.step setup.firmware.order e).map fun line => { s with line }

/-- The device has been switched on and the daemon has just opened its port. -/
def start : Node where
  host := .start (.new (.new setup.portContents) setup.espnowId setup.details setup.tunFdBuffer)
  tapped := []
  line := .start
  usb := .start
  logs := []
  pool := .start

/-! ## What an event can do -/

variable {setup : Setup} {s t : Node}

/-- A call moves the task that makes it, and nothing else. -/
theorem call_cases {task : FirmwareTask} {c : UartCall} (h : s.call setup task c = some t) :
    ∃ line, s.line.step setup.firmware.order (.call task c) = some line ∧
      t = { s with line } := by
  obtain ⟨line, hline, rfl⟩ := Option.map_eq_some_iff.mp h
  exact ⟨line, hline, rfl⟩

/-- The transmit loop works on its slot or pushes it. -/
theorem mainStep_cases (h : s.mainStep setup = some t) :
    ∃ pool, s.pool.mainStep setup.firmware.order = some pool ∧
      ((∃ slot totalSize line, s.pool.transmission = some ⟨slot, .swapped totalSize⟩ ∧
          s.line.step setup.firmware.order
            (.call .usbMain (pushCall (s.pool.packets slot).data totalSize)) = some line ∧
          t = { s with pool, line }) ∨
        ((∀ slot totalSize, s.pool.transmission ≠ some ⟨slot, .swapped totalSize⟩) ∧
          t = { s with pool })) := by
  obtain ⟨pool, hpool, ht⟩ := Option.bind_eq_some_iff.mp h
  refine ⟨pool, hpool, ?_⟩
  split at ht
  · next slot totalSize htransmission =>
    obtain ⟨line, hline, rfl⟩ := call_cases ht
    exact Or.inl ⟨slot, totalSize, line, htransmission, hline, rfl⟩
  · next hnot => exact Or.inr ⟨hnot, (Option.some.inj ht).symm⟩

/-- The callback starts with a slot, or logs that there is none. -/
theorem receive_cases {espNowCall : EspNowCall} {stack : List.Vector UInt8 256}
    (h : s.receive setup espNowCall stack = some t) :
    ∃ pool, s.pool.receive espNowCall = some pool ∧
      (t = { s with pool } ∨ ∃ line, s.line.step setup.firmware.order
        (.call .wifi (.log stack .noSpaceToStoreReceivedPacket)) = some line ∧
          t = { s with pool, line }) := by
  obtain ⟨pool, hpool, ht⟩ := Option.bind_eq_some_iff.mp h
  refine ⟨pool, hpool, ?_⟩
  split at ht
  · exact Or.inl (Option.some.inj ht).symm
  · obtain ⟨line, hline, rfl⟩ := call_cases ht
    exact Or.inr ⟨line, hline, rfl⟩

/-- A task that is in one of the functions goes on in it. -/
theorem uart_cases {e : UartLine.Event FirmwareTask} (h : step setup s (.uart e) = some t) :
    (∀ task c, e ≠ .call task c) ∧
      ∃ line, s.line.step setup.firmware.order e = some line ∧ t = { s with line } := by
  cases e with
  | call task c => cases h
  | take task =>
      obtain ⟨line, hline, rfl⟩ := Option.map_eq_some_iff.mp h
      exact ⟨nofun, line, hline, rfl⟩
  | takeFailed task =>
      obtain ⟨line, hline, rfl⟩ := Option.map_eq_some_iff.mp h
      exact ⟨nofun, line, hline, rfl⟩
  | write task result =>
      obtain ⟨line, hline, rfl⟩ := Option.map_eq_some_iff.mp h
      exact ⟨nofun, line, hline, rfl⟩
  | give task =>
      obtain ⟨line, hline, rfl⟩ := Option.map_eq_some_iff.mp h
      exact ⟨nofun, line, hline, rfl⟩

/-- What an event is for the pool. -/
def Event.toPool : Event → Option PacketPool.Event
  | .received espNowCall _ => some (.received espNowCall)
  | .callback => some .callback
  | .sendFailed => some .sendFailed
  | .main => some .main
  | _ => none

/-- What an event does to the pool, to the line and to the daemon. -/
structure Parts (setup : Setup) (s t : Node) (e : Event) : Prop where
  host : (∀ e', e ≠ .host e') → t.host = s.host
  line : t.line = s.line ∨
    (∃ task c, s.line.step setup.firmware.order (.call task c) = some t.line) ∨
    ∃ e', e = .uart e' ∧ s.line.step setup.firmware.order e' = some t.line
  pool : e.toPool.elim (t.pool = s.pool) fun e' =>
    PacketPool.step setup.firmware.order s.pool e' = some t.pool

theorem step_parts {e : Event} (h : step setup s e = some t) : Parts setup s t e := by
  cases e with
  | host e =>
      obtain ⟨host, -, rfl⟩ := Option.map_eq_some_iff.mp h
      exact ⟨fun hhost => absurd rfl (hhost e), Or.inl rfl, rfl⟩
  | announce =>
      obtain ⟨usb, -, h⟩ := Option.bind_eq_some_iff.mp h
      obtain ⟨line, hline, rfl⟩ := call_cases h
      exact ⟨fun _ => rfl, Or.inr (Or.inl ⟨_, _, hline⟩), rfl⟩
  | read count =>
      rw [step, Option.ite_none_right_eq_some] at h
      obtain ⟨usb, -, rfl⟩ := Option.map_eq_some_iff.mp h.2
      exact ⟨fun _ => rfl, Or.inl rfl, rfl⟩
  | log stack =>
      simp only [step] at h
      split at h
      · cases h
      · obtain ⟨line, hline, rfl⟩ := call_cases h
        exact ⟨fun _ => rfl, Or.inr (Or.inl ⟨_, _, hline⟩), rfl⟩
  | ping =>
      rw [step, Option.ite_none_right_eq_some] at h
      obtain ⟨line, hline, rfl⟩ := call_cases h.2
      exact ⟨fun _ => rfl, Or.inr (Or.inl ⟨_, _, hline⟩), rfl⟩
  | received call stack =>
      rw [step, Option.ite_none_right_eq_some] at h
      obtain ⟨pool, hpool, rfl | ⟨line, hline, rfl⟩⟩ := receive_cases h.2
      · exact ⟨fun _ => rfl, Or.inl rfl, hpool⟩
      · exact ⟨fun _ => rfl, Or.inr (Or.inl ⟨_, _, hline⟩), hpool⟩
  | callback =>
      obtain ⟨pool, hpool, rfl⟩ := Option.map_eq_some_iff.mp h
      exact ⟨fun _ => rfl, Or.inl rfl, hpool⟩
  | sendFailed =>
      obtain ⟨pool, hpool, rfl⟩ := Option.map_eq_some_iff.mp h
      exact ⟨fun _ => rfl, Or.inl rfl, hpool⟩
  | main =>
      rw [step, Option.ite_none_right_eq_some] at h
      obtain ⟨pool, hpool, ⟨_, _, line, -, hline, rfl⟩ | ⟨-, rfl⟩⟩ := mainStep_cases h.2
      · exact ⟨fun _ => rfl, Or.inr (Or.inl ⟨_, _, hline⟩), hpool⟩
      · exact ⟨fun _ => rfl, Or.inl rfl, hpool⟩
  | uart e =>
      obtain ⟨-, line, hline, rfl⟩ := uart_cases h
      exact ⟨fun _ => rfl, Or.inr (Or.inr ⟨e, rfl, hline⟩), rfl⟩

/-- The daemon and the handshake are concerned by the daemon's events, by announcements and by what
the device reads. -/
theorem step_frame {e : Event} (hhost : ∀ e', e ≠ .host e') (hannounce : e ≠ .announce)
    (hread : ∀ count, e ≠ .read count) (h : step setup s e = some t) :
    t.host = s.host ∧ t.tapped = s.tapped ∧ t.usb = s.usb := by
  cases e with
  | host e => exact absurd rfl (hhost e)
  | announce => exact absurd rfl hannounce
  | read count => exact absurd rfl (hread count)
  | log stack =>
      simp only [step] at h
      split at h
      · cases h
      · obtain ⟨line, -, rfl⟩ := call_cases h
        exact ⟨rfl, rfl, rfl⟩
  | ping =>
      rw [step, Option.ite_none_right_eq_some] at h
      obtain ⟨line, -, rfl⟩ := call_cases h.2
      exact ⟨rfl, rfl, rfl⟩
  | received call stack =>
      rw [step, Option.ite_none_right_eq_some] at h
      obtain ⟨pool, -, rfl | ⟨line, -, rfl⟩⟩ := receive_cases h.2 <;> exact ⟨rfl, rfl, rfl⟩
  | callback =>
      obtain ⟨pool, -, rfl⟩ := Option.map_eq_some_iff.mp h
      exact ⟨rfl, rfl, rfl⟩
  | sendFailed =>
      obtain ⟨pool, -, rfl⟩ := Option.map_eq_some_iff.mp h
      exact ⟨rfl, rfl, rfl⟩
  | main =>
      rw [step, Option.ite_none_right_eq_some] at h
      obtain ⟨pool, -, ⟨_, _, line, -, -, rfl⟩ | ⟨-, rfl⟩⟩ := mainStep_cases h.2 <;>
        exact ⟨rfl, rfl, rfl⟩
  | uart e =>
      obtain ⟨-, line, -, rfl⟩ := uart_cases h
      exact ⟨rfl, rfl, rfl⟩

/-- The packet that an event brings. -/
def Event.packets : Event → List EspNowCall
  | .received call _ => [call]
  | _ => []

/-- An event adds to the pool the packet that it brings, at most. -/
theorem calls_step {e : Event} (h : step setup s e = some t) :
    t.pool.calls.Sublist (s.pool.calls ++ e.packets) := by
  have hpool := (step_parts h).pool
  cases hto : e.toPool with
  | none =>
      rw [hto] at hpool
      rw [show t.pool = s.pool from hpool]
      exact List.sublist_append_left _ _
  | some e' =>
      rw [hto] at hpool
      have hpackets : e'.packets = e.packets := by cases e <;> cases hto <;> rfl
      exact hpackets ▸ PacketPool.calls_step hpool

/-- What the callback is called with fits its slot. With a longer payload the copy would leave the
slot, and the run would not be one of this model. -/
def Fits (e : Event) : Prop := ∀ call ∈ e.packets, call.data.length ≤ 250

instance (e : Event) : Decidable (Fits e) :=
  inferInstanceAs (Decidable (∀ call ∈ e.packets, call.data.length ≤ 250))

/-- The packets for which the callback has found a slot fit it. -/
theorem fits_step {e : Event} (h : ∀ call ∈ s.pool.calls, call.data.length ≤ 250)
    (hfits : Fits e) (ht : step setup s e = some t) :
    ∀ call ∈ t.pool.calls, call.data.length ≤ 250 := by
  intro call hcall
  rcases List.mem_append.mp ((calls_step ht).subset hcall) with hold | hnew
  · exact h call hold
  · exact hfits call hnew

/-- A condition on what the tasks do with the line to the daemon. -/
def OnUart (P : UartLine.Event FirmwareTask → Prop) : Event → Prop
  | .uart e => P e
  | _ => True

instance {P : UartLine.Event FirmwareTask → Prop} [DecidablePred P] : DecidablePred (OnUart P)
  | .uart e => inferInstanceAs (Decidable (P e))
  | .host _ => isTrue trivial
  | .announce => isTrue trivial
  | .read _ => isTrue trivial
  | .log _ => isTrue trivial
  | .ping => isTrue trivial
  | .received _ _ => isTrue trivial
  | .callback => isTrue trivial
  | .sendFailed => isTrue trivial
  | .main => isTrue trivial

end Node
