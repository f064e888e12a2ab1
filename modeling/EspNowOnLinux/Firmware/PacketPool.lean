import EspNowOnLinux.Firmware.Uart
import EspNowOnLinux.Lib.StateMachine
import Mathlib.Data.List.FinRange
import Mathlib.Logic.Function.Basic

/-!
# The firmware's pool of received packets

`packets`, an array of 15 slots, and `receive_queue`, a queue of 6 slot numbers, between the
ESP-NOW receive callback and the transmit loop of `usb_main`. The two run concurrently; here each is
cut into the steps that access shared memory, and a run interleaves the steps in any order.
Callbacks do not run concurrently with each other.

## Main results

* `receive_cases`, `callbackStep_cases`, `sendFailed_cases` and `mainStep_cases`: what one step of
  either side can do to the shared memory;
* `step_frame`: a step changes the slot of the party that takes it and no other.
-/

open Bytes Messages StateMachine

/-- `struct packet`, packed. -/
structure PoolPacket where
  id : UInt8
  srcMac : MacAddress
  payloadSize : UInt32
  payload : List.Vector UInt8 250

namespace PoolPacket

/-- The object representation. -/
def bytes (o : ByteOrder) (p : PoolPacket) : List UInt8 :=
  packetBytes p.id p.srcMac (storeUInt32 o p.payloadSize) p.payload.toList

@[simp]
theorem length_bytes (o : ByteOrder) (p : PoolPacket) : (p.bytes o).length = 261 := by
  simp [bytes, packetBytes]

end PoolPacket

/-- `occupied_packet`. -/
structure OccupiedPacket where
  isFree : Bool
  data : PoolPacket

/-- What ESP-NOW calls the receive callback with. -/
structure EspNowCall where
  srcAddr : MacAddress
  data : List UInt8
  deriving DecidableEq

/-- How far the callback is: the statement it has completed last. -/
inductive CallbackStage
  | chosen
  | marked
  | macFilled
  | sizeFilled
  | payloadFilled
  deriving DecidableEq

/-- A running callback that has found a slot. -/
structure Callback where
  slot : Fin 15
  call : EspNowCall
  stage : CallbackStage

/-- How far the transmit loop is with a slot, with `total_size` from where it is computed. -/
inductive TransmitStage
  | dequeued
  | sized (totalSize : UInt32)
  | idWritten (totalSize : UInt32)
  | swapped (totalSize : UInt32)
  | pushed

/-- The slot that the transmit loop works on. -/
structure Transmission where
  slot : Fin 15
  stage : TransmitStage

/-- `ESPNOW_QUEUE_SIZE`. -/
def espnowQueueSize : ℕ := 6

/-- The shared memory, where the callback and the loop are, and what they have done. -/
structure PacketPool where
  packets : Fin 15 → OccupiedPacket
  receiveQueue : List (Fin 15)
  callback : Option Callback
  transmission : Option Transmission
  /-- The calls whose slot was enqueued, in order. -/
  enqueued : List EspNowCall
  /-- What was passed to `push_to_uart_with_synchro`, in order. -/
  pushed : List (List UInt8)
  /-- The calls of `log_to_uart`. -/
  logs : List FirmwareLog

namespace PacketPool

/-- The pool after `usb_main` has cleared it. -/
def start : PacketPool where
  packets _ := ⟨true, 0, .replicate 6 0, 0, .replicate 250 0⟩
  receiveQueue := []
  callback := none
  transmission := none
  enqueued := []
  pushed := []
  logs := []

/-- An assignment to members of a slot. -/
def modify (s : PacketPool) (i : Fin 15) (f : OccupiedPacket → OccupiedPacket) : PacketPool :=
  { s with packets := Function.update s.packets i (f (s.packets i)) }

@[simp]
theorem modify_self (s : PacketPool) (i : Fin 15) (f : OccupiedPacket → OccupiedPacket) :
    (s.modify i f).packets i = f (s.packets i) := Function.update_self ..

theorem modify_of_ne (s : PacketPool) {i j : Fin 15} (f : OccupiedPacket → OccupiedPacket)
    (h : j ≠ i) : (s.modify i f).packets j = s.packets j := Function.update_of_ne h ..

/-! ## The receive callback -/

/-- `example_espnow_recv_cb` up to the choice of a slot. -/
def receive (s : PacketPool) (call : EspNowCall) : Option PacketPool :=
  match s.callback with
  | some _ => none
  | none =>
    -- `len <= 0`
    if call.data = [] then some s
    else
      match (List.finRange 15).find? fun i => (s.packets i).isFree with
      | some i => some { s with callback := some ⟨i, call, .chosen⟩ }
      | none => some { s with logs := s.logs ++ [.noSpaceToStoreReceivedPacket] }

/-- The callback's assignment in stage `c.stage`, after which it is in stage `stage`. -/
def advance (s : PacketPool) (c : Callback) (stage : CallbackStage)
    (f : OccupiedPacket → OccupiedPacket) : PacketPool :=
  { s.modify c.slot f with callback := some { c with stage } }

/-- The next statement of the callback. The length of the payload is not compared with the array it
is copied to: `none` is a copy past its end, or a callback that waits for room in the queue. -/
def callbackStep (s : PacketPool) : Option PacketPool :=
  match s.callback with
  | none => none
  | some c =>
    match c.stage with
    | .chosen => some (s.advance c .marked fun p => { p with isFree := false })
    | .marked =>
        some (s.advance c .macFilled fun p => { p with data.srcMac := c.call.srcAddr })
    | .macFilled =>
        some (s.advance c .sizeFilled fun p =>
          { p with data.payloadSize := UInt32.ofNat c.call.data.length })
    | .sizeFilled =>
        if c.call.data.length ≤ 250 then
          some (s.advance c .payloadFilled fun p =>
            { p with data.payload := ⟨overwrite p.data.payload.toList 0 c.call.data, by simp⟩ })
        else none
    -- `xQueueSend` waits while the queue is full
    | .payloadFilled =>
        if s.receiveQueue.length < espnowQueueSize then
          some { s with
            receiveQueue := s.receiveQueue ++ [c.slot]
            callback := none
            enqueued := s.enqueued ++ [c.call] }
        else none

/-- `xQueueSend` times out: the queue is full, and the callback returns. -/
def sendFailed (s : PacketPool) : Option PacketPool :=
  match s.callback with
  | none => none
  | some c =>
    -- only a message is printed: the slot stays marked as used
    if c.stage = .payloadFilled ∧ s.receiveQueue.length = espnowQueueSize then
      some { s with callback := none }
    else none

/-! ## The transmit loop -/

/-- The next statement of the loop of `usb_main`; `none` is a loop that waits for the queue, or a
push past the end of the slot. -/
def mainStep (o : ByteOrder) (s : PacketPool) : Option PacketPool :=
  match s.transmission with
  | none =>
    match s.receiveQueue with
    | [] => none
    | index :: queue =>
        some { s with receiveQueue := queue, transmission := some ⟨index, .dequeued⟩ }
  | some t =>
    let rPacket := s.packets t.slot
    match t.stage with
    | .dequeued =>
        let totalSize := 1 + 6 + 4 + rPacket.data.payloadSize
        some { s with transmission := some ⟨t.slot, .sized totalSize⟩ }
    | .sized totalSize =>
        some { s.modify t.slot (fun p => { p with data.id := MessageId.receivedPacket }) with
          transmission := some ⟨t.slot, .idWritten totalSize⟩ }
    | .idWritten totalSize =>
        some { s.modify t.slot (fun p =>
            { p with data.payloadSize := hostToNetwork o p.data.payloadSize }) with
          transmission := some ⟨t.slot, .swapped totalSize⟩ }
    -- `total_size` was computed before the length was swapped
    | .swapped totalSize =>
        if totalSize.toNat ≤ (rPacket.data.bytes o).length then
          some { s with
            transmission := some ⟨t.slot, .pushed⟩
            pushed := s.pushed ++ [(rPacket.data.bytes o).take totalSize.toNat] }
        else none
    | .pushed =>
        some { s.modify t.slot (fun p => { p with isFree := true }) with transmission := none }

/-! ## Interleavings -/

/-- What can happen to the pool. -/
inductive Event
  /-- ESP-NOW calls the callback. -/
  | received (call : EspNowCall)
  /-- The callback executes its next statement. -/
  | callback
  /-- The callback gives up on the queue. -/
  | sendFailed
  /-- The transmit loop executes its next statement. -/
  | main
  deriving DecidableEq

/-- The pool after an event. -/
def step (o : ByteOrder) (s : PacketPool) : Event → Option PacketPool
  | .received call => s.receive call
  | .callback => s.callbackStep
  | .sendFailed => s.sendFailed
  | .main => s.mainStep o

section Cases

variable {o : ByteOrder} {s t : PacketPool}

/-- A callback starts only where none runs, and touches no slot. -/
theorem receive_cases {call : EspNowCall} (h : s.receive call = some t) :
    s.callback = none ∧ t.packets = s.packets ∧ t.receiveQueue = s.receiveQueue ∧
      t.transmission = s.transmission := by
  unfold receive at h
  split at h
  · cases h
  · next hidle =>
    split at h
    · obtain rfl := Option.some.inj h
      exact ⟨hidle, rfl, rfl, rfl⟩
    · split at h <;> obtain rfl := Option.some.inj h <;> exact ⟨hidle, rfl, rfl, rfl⟩

/-- The callback assigns to its slot or enqueues it. -/
theorem callbackStep_cases (h : s.callbackStep = some t) :
    ∃ c, s.callback = some c ∧ ((∃ stage f, t = s.advance c stage f) ∨
      t = { s with
        receiveQueue := s.receiveQueue ++ [c.slot]
        callback := none
        enqueued := s.enqueued ++ [c.call] }) := by
  unfold callbackStep at h
  split at h
  · cases h
  · next c hc =>
    refine ⟨c, hc, ?_⟩
    split at h
    · exact Or.inl ⟨_, _, (Option.some.inj h).symm⟩
    · exact Or.inl ⟨_, _, (Option.some.inj h).symm⟩
    · exact Or.inl ⟨_, _, (Option.some.inj h).symm⟩
    · split at h
      · exact Or.inl ⟨_, _, (Option.some.inj h).symm⟩
      · cases h
    · split at h
      · exact Or.inr (Option.some.inj h).symm
      · cases h

/-- A callback that fails to enqueue has filled its slot, and the queue is full. -/
theorem sendFailed_cases (h : s.sendFailed = some t) :
    ∃ c, s.callback = some c ∧ c.stage = .payloadFilled ∧
      s.receiveQueue.length = espnowQueueSize ∧ t = { s with callback := none } := by
  unfold sendFailed at h
  split at h
  · cases h
  · next c hc =>
    split at h
    · next hfull => exact ⟨c, hc, hfull.1, hfull.2, (Option.some.inj h).symm⟩
    · cases h

/-- The loop takes a slot from the queue, works on it, or frees it. -/
theorem mainStep_cases (h : s.mainStep o = some t) :
    (∃ index queue, s.transmission = none ∧ s.receiveQueue = index :: queue ∧
        t = { s with receiveQueue := queue, transmission := some ⟨index, .dequeued⟩ }) ∨
      ∃ u, s.transmission = some u ∧ t.receiveQueue = s.receiveQueue ∧ t.callback = s.callback ∧
        (∀ i, i ≠ u.slot → t.packets i = s.packets i) ∧
        ((∃ stage, t.transmission = some ⟨u.slot, stage⟩) ∨
          t.transmission = none ∧ (t.packets u.slot).isFree = true) := by
  unfold mainStep at h
  split at h
  · next htransmission =>
    split at h
    · cases h
    · next index queue hqueue =>
      exact Or.inl ⟨index, queue, htransmission, hqueue, (Option.some.inj h).symm⟩
  next u hu =>
  refine Or.inr ⟨u, hu, ?_⟩
  dsimp only at h
  split at h
  · obtain rfl := Option.some.inj h
    exact ⟨rfl, rfl, fun _ _ => rfl, Or.inl ⟨_, rfl⟩⟩
  · obtain rfl := Option.some.inj h
    exact ⟨rfl, rfl, fun i hi => Function.update_of_ne hi _ _, Or.inl ⟨_, rfl⟩⟩
  · obtain rfl := Option.some.inj h
    exact ⟨rfl, rfl, fun i hi => Function.update_of_ne hi _ _, Or.inl ⟨_, rfl⟩⟩
  · split at h
    · obtain rfl := Option.some.inj h
      exact ⟨rfl, rfl, fun _ _ => rfl, Or.inl ⟨_, rfl⟩⟩
    · cases h
  · obtain rfl := Option.some.inj h
    exact ⟨rfl, rfl, fun i hi => Function.update_of_ne hi _ _, Or.inr ⟨rfl, by
      simp only [modify_self]⟩⟩

/-- The transmit loop leaves the callback alone, and what the callback has enqueued. -/
theorem mainStep_frame (h : s.mainStep o = some t) :
    t.callback = s.callback ∧ t.enqueued = s.enqueued := by
  unfold mainStep at h
  split at h
  · split at h
    · cases h
    · obtain rfl := Option.some.inj h
      exact ⟨rfl, rfl⟩
  next u hu =>
  obtain ⟨slot, stage⟩ := u
  cases stage with
  | swapped n =>
      rw [Option.ite_none_right_eq_some] at h
      obtain rfl := Option.some.inj h.2
      exact ⟨rfl, rfl⟩
  | dequeued => obtain rfl := Option.some.inj h; exact ⟨rfl, rfl⟩
  | sized n => obtain rfl := Option.some.inj h; exact ⟨rfl, rfl⟩
  | idWritten n => obtain rfl := Option.some.inj h; exact ⟨rfl, rfl⟩
  | pushed => obtain rfl := Option.some.inj h; exact ⟨rfl, rfl⟩

/-- A step changes only the slot of the party that takes it. -/
theorem step_frame {e : Event} (h : step o s e = some t) {i : Fin 15}
    (hcallback : e = .callback → ∀ c, s.callback = some c → i ≠ c.slot)
    (hmain : e = .main → ∀ u, s.transmission = some u → i ≠ u.slot) :
    t.packets i = s.packets i := by
  cases e with
  | received call => rw [(receive_cases h).2.1]
  | callback =>
      obtain ⟨c, hc, ⟨stage, f, rfl⟩ | rfl⟩ := callbackStep_cases h
      · exact modify_of_ne s f (hcallback rfl c hc)
      · rfl
  | sendFailed =>
      obtain ⟨c, -, -, -, rfl⟩ := sendFailed_cases h
      rfl
  | main =>
      rcases mainStep_cases h with ⟨index, queue, -, -, rfl⟩ | ⟨u, hu, -, -, hframe, -⟩
      · rfl
      · exact hframe i (hmain rfl u hu)

end Cases

/-! ## What the callback is called with -/

/-- The packets for which the callback has found a slot, and not given it up. -/
def calls (s : PacketPool) : List EspNowCall :=
  s.enqueued ++ (s.callback.map Callback.call).toList

/-- The packet that an event brings. -/
def Event.packets : PacketPool.Event → List EspNowCall
  | received call => [call]
  | _ => []

/-- A step adds the packet that it brings, at most, and only at the end. -/
theorem calls_step {o : ByteOrder} {s t : PacketPool} {e : Event} (h : step o s e = some t) :
    t.calls.Sublist (s.calls ++ e.packets) := by
  cases e with
  | received call =>
      have h : s.receive call = some t := h
      unfold receive at h
      split at h
      · cases h
      next hidle =>
      -- no callback runs, so the new one is the only one
      have hcalls : s.calls = s.enqueued := by rw [calls, hidle]; exact List.append_nil _
      split at h
      · obtain rfl := Option.some.inj h
        exact List.sublist_append_left _ _
      split at h
      · obtain rfl := Option.some.inj h
        exact hcalls ▸ List.Sublist.refl _
      · obtain rfl := Option.some.inj h
        exact List.sublist_append_left _ _
  | callback =>
      obtain ⟨c, hc, ⟨stage, f, rfl⟩ | rfl⟩ := callbackStep_cases h
      · have hcalls : (s.advance c stage f).calls = s.calls := by rw [calls, calls, hc]; rfl
        rw [hcalls]
        exact List.sublist_append_left _ _
      · rw [calls, calls, hc]
        simp [Event.packets]
  | sendFailed =>
      obtain ⟨c, hc, -, -, rfl⟩ := sendFailed_cases h
      rw [calls, calls, hc]
      simp [Event.packets]
  | main =>
      obtain ⟨hcallback, henqueued⟩ := mainStep_frame h
      rw [calls, calls, hcallback, henqueued]
      exact List.sublist_append_left _ _

/-! ## What is left to do -/

/-- How many statements a callback at a stage still has to execute. -/
def stagesLeft : CallbackStage → ℕ
  | .chosen => 5
  | .marked => 4
  | .macFilled => 3
  | .sizeFilled => 2
  | .payloadFilled => 1

/-- How many statements the callback has to execute until it returns. -/
def callbackLeft (s : PacketPool) : ℕ := (s.callback.map fun c => stagesLeft c.stage).getD 0

/-- How many statements of the transmit loop a slot still needs. -/
def statementsLeft : Option Transmission → ℕ
  | none => 0
  | some ⟨_, .dequeued⟩ => 5
  | some ⟨_, .sized _⟩ => 4
  | some ⟨_, .idWritten _⟩ => 3
  | some ⟨_, .swapped _⟩ => 2
  | some ⟨_, .pushed⟩ => 1

/-- How many statements the transmit loop has to execute until it waits for the queue. -/
def loopLeft (s : PacketPool) : ℕ := 6 * s.receiveQueue.length + statementsLeft s.transmission

variable {o : ByteOrder} {s t : PacketPool}

/-- The callback goes on to its next stage or, when the queue has room, enqueues its slot. -/
theorem exists_callbackStep {c : Callback} (hc : s.callback = some c)
    (hlen : c.call.data.length ≤ 250)
    (hroom : c.stage = .payloadFilled → s.receiveQueue.length < espnowQueueSize) :
    ∃ t, s.callbackStep = some t ∧ t.callbackLeft < s.callbackLeft ∧
      ((∃ stage, t.callback = some { c with stage } ∧ t.receiveQueue = s.receiveQueue ∧
          t.enqueued = s.enqueued) ∨
        (t.callback = none ∧ t.receiveQueue = s.receiveQueue ++ [c.slot] ∧
          t.enqueued = s.enqueued ++ [c.call])) := by
  obtain ⟨slot, call, stage⟩ := c
  simp only [callbackStep, callbackLeft, hc]
  cases stage with
  | chosen => exact ⟨_, rfl, Nat.lt_succ_self _, Or.inl ⟨_, rfl, rfl, rfl⟩⟩
  | marked => exact ⟨_, rfl, Nat.lt_succ_self _, Or.inl ⟨_, rfl, rfl, rfl⟩⟩
  | macFilled => exact ⟨_, rfl, Nat.lt_succ_self _, Or.inl ⟨_, rfl, rfl, rfl⟩⟩
  | sizeFilled => exact ⟨_, if_pos hlen, Nat.lt_succ_self _, Or.inl ⟨_, rfl, rfl, rfl⟩⟩
  | payloadFilled => exact ⟨_, if_pos (hroom rfl), Nat.lt_succ_self _, Or.inr ⟨rfl, rfl, rfl⟩⟩

/-- Each statement is one less. -/
theorem loopLeft_mainStep (h : s.mainStep o = some t) : t.loopLeft < s.loopLeft := by
  unfold mainStep at h
  split at h
  · next htransmission =>
    split at h
    · cases h
    · next index queue hqueue =>
      obtain rfl := Option.some.inj h
      simp only [loopLeft, htransmission, hqueue, statementsLeft, List.length_cons]
      omega
  · next u hu =>
    obtain ⟨slot, stage⟩ := u
    cases stage with
    | dequeued =>
        obtain rfl := Option.some.inj h
        simp only [loopLeft, hu, statementsLeft]
        omega
    | sized n =>
        obtain rfl := Option.some.inj h
        simp only [loopLeft, hu, statementsLeft, modify]
        omega
    | idWritten n =>
        obtain rfl := Option.some.inj h
        simp only [loopLeft, hu, statementsLeft, modify]
        omega
    | swapped n =>
        rw [Option.ite_none_right_eq_some] at h
        obtain rfl := Option.some.inj h.2
        simp only [loopLeft, hu, statementsLeft]
        omega
    | pushed =>
        obtain rfl := Option.some.inj h
        simp only [loopLeft, hu, statementsLeft, modify]
        omega

end PacketPool
