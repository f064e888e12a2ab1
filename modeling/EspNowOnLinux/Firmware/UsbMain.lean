import EspNowOnLinux.Firmware.JtagReceive
import EspNowOnLinux.Messages.StartDevice

/-!
# The start of the firmware

The handshake loop of `usb_main` and the hand-over to `jtag_receive_task`. Both read the same byte
stream: the loop into an array of 256 bytes of which it looks at the first, the task into its
receiving buffer. What the other tasks send once the handshake is complete is left out.

## Main results

* `announcement_eq`: the bytes that the loop pushes;
* `handover_iff`: the task begins with the first byte after `START_HOST` iff no read of the loop
  takes more than one byte. Whatever else a read takes is dropped.
-/

open Bytes Framing Messages StateMachine

/-- The `start_device` of `usb_main`, for what `esp_now_get_version` and `esp_wifi_get_mac`
return. -/
def startMessage (enVersion : UInt32) (mac : MacAddress) : StartDevice where
  deviceName := ⟨[69, 83, 80, 51, 50, 45, 67, 51, 0, 0], rfl⟩
  version := if enVersion = 1 then EspnowVersion.v1 else EspnowVersion.v2
  fwVersion := ⟨0, 1, 0⟩
  macAddress := mac

/-- The first `msg_size` bytes of `buffer`, which the handshake loop pushes. -/
def announcement (message : StartDevice) : Option (List UInt8) :=
  let bufferSpan : List UInt8 := List.replicate 64 0
  (StartDevice.write bufferSpan message).map fun r =>
    -- the remaining span is shorter by what was written
    let msgSize := bufferSpan.length - r.2.length
    (r.1 ++ r.2).take msgSize

/-- The loop pushes the bytes of the message. -/
theorem announcement_eq (message : StartDevice) : announcement message = some message.toBytes := by
  have hlen : 64 - ((List.replicate 64 (0 : UInt8)).drop StartDevice.size).length =
      message.toBytes.length := by
    rw [StartDevice.length_toBytes]
    rfl
  simp only [announcement, StartDevice.write_of_le message (by decide :
    StartDevice.size ≤ (List.replicate 64 (0 : UInt8)).length), Option.map_some,
    List.length_replicate]
  rw [hlen, List.take_left]

/-- Whether a read ends the handshake: something was read, and it starts with the id of
`START_HOST`. -/
def endsHandshake (rBuffer : List UInt8) : Bool :=
  match rBuffer with
  | [] => false
  | id :: _ => id = MessageId.startHost

/-- Where `usb_main` is, and how much of the stream from the host has been read. -/
inductive UsbMain
  /-- In the handshake loop, before `push_to_uart_with_synchro`. -/
  | pushing (taken : ℕ)
  /-- In the handshake loop, before `usb_serial_jtag_read_bytes`. -/
  | reading (taken : ℕ)
  /-- The read that started at `first` has ended the loop, and the task runs on what follows
  `origin`. -/
  | task (first origin : ℕ) (run : JtagRun)

namespace UsbMain

/-- The calls of `esp_now_send`. -/
def sent : UsbMain → List (MacAddress × List UInt8)
  | task _ _ run => run.task.done.sent
  | _ => []

/-- The message is pushed. -/
def push : UsbMain → Option UsbMain
  | pushing taken => some (reading taken)
  | _ => none

/-- The driver returns the next `count` of the bytes that the host has sent: to the loop, which asks
for 256, or to the task, which is created with a buffer that holds `contents`. -/
def read (env : FirmwareEnv) (contents : List.Vector UInt8 512) (bytes : List UInt8)
    (count : ℕ) : UsbMain → Option UsbMain
  | pushing _ => none
  | reading taken =>
      if count ≤ 256 ∧ taken + count ≤ bytes.length then
        -- whatever was read behind the first byte is not looked at again
        if endsHandshake ((bytes.drop taken).take count) then
          some (task taken (taken + count) (.start contents))
        else some (pushing (taken + count))
      else none
  | task first origin run => (run.step env (bytes.drop origin) count).map (task first origin)

/-- Before the handshake. -/
def start : UsbMain := pushing 0

/-- A read ends the handshake iff it takes something and what is there begins with the id. -/
theorem endsHandshake_take (bytes : List UInt8) (count : ℕ) :
    endsHandshake (bytes.take count) = true ↔
      0 < count ∧ bytes.head? = some MessageId.startHost := by
  cases count with
  | zero => simp [endsHandshake]
  | succ count =>
      cases bytes with
      | nil => simp [endsHandshake]
      | cons id bytes => simp [endsHandshake]

/-- What a read of the handshake loop leads to. -/
theorem read_reading {env : FirmwareEnv} {contents : List.Vector UInt8 512} {bytes : List UInt8}
    {taken count : ℕ} {t : UsbMain} (ht : read env contents bytes count (reading taken) = some t) :
    taken + count ≤ bytes.length ∧
      ((0 < count ∧ (bytes.drop taken).head? = some MessageId.startHost ∧
          t = task taken (taken + count) (.start contents)) ∨
        (¬ (0 < count ∧ (bytes.drop taken).head? = some MessageId.startHost) ∧
          t = pushing (taken + count))) := by
  rw [read] at ht
  split at ht
  · next hcan =>
    refine ⟨hcan.2, ?_⟩
    split at ht
    · next hends =>
      obtain ⟨hpos, hhead⟩ := (endsHandshake_take _ _).mp hends
      exact Or.inl ⟨hpos, hhead, (Option.some.inj ht).symm⟩
    · next hends =>
      exact Or.inr ⟨fun h => hends ((endsHandshake_take _ _).mpr h), (Option.some.inj ht).symm⟩
  · cases ht

/-! ## The hand-over -/

/-- What happens on the device. -/
inductive Event
  | push
  | read (count : ℕ)
  deriving DecidableEq

/-- The device after an event, where the host sends `bytes`. -/
def step (env : FirmwareEnv) (contents : List.Vector UInt8 512) (bytes : List UInt8)
    (s : UsbMain) : Event → Option UsbMain
  | .push => s.push
  | .read count => s.read env contents bytes count

/-- What the host sends from its answer on. -/
def answerStream (o : ByteOrder) (packets : List PacketToSend) : List UInt8 :=
  startHost ++ stream (PacketToSend.serialize o) packets

/-- Once the handshake is complete, the task runs on what follows `START_HOST` and has sent exactly
the packets whose bytes it has read. -/
def HandedOver (env : FirmwareEnv) (o : ByteOrder) (packets : List PacketToSend) : UsbMain → Prop
  | task _ origin run => origin = 1 ∧ run.Parsed env o packets
  | _ => True

/-- A read of the handshake loop takes at most one byte. -/
def OneByte : UsbMain → Event → Prop
  | reading _, .read count => count ≤ 1
  | _, _ => True

/-- Until the handshake is complete nothing has been read. -/
def Inv (o : ByteOrder) (packets : List PacketToSend) : UsbMain → Prop
  | pushing taken => taken = 0
  | reading taken => taken = 0
  | task _ origin run => origin = 1 ∧ run.Inv o packets

variable {env : FirmwareEnv} {contents : List.Vector UInt8 512} {o : ByteOrder}
  {packets : List PacketToSend}

variable (env) in
/-- The first byte is `START_HOST`, so the first read that returns anything ends the loop. -/
theorem read_answerStream {count : ℕ} {t : UsbMain}
    (ht : read env contents (answerStream o packets) count (reading 0) = some t) :
    (count = 0 ∧ t = pushing 0) ∨ (0 < count ∧ t = task 0 count (.start contents)) := by
  obtain ⟨-, ⟨hpos, -, rfl⟩ | ⟨hnot, rfl⟩⟩ := read_reading ht
  · exact Or.inr ⟨hpos, by rw [Nat.zero_add]⟩
  · have hzero : count = 0 := by
      by_contra hpos
      exact hnot ⟨Nat.pos_of_ne_zero hpos, rfl⟩
    exact Or.inl ⟨hzero, by rw [hzero]⟩

/-- Steps that meet `OneByte` keep the invariant. -/
theorem inv_step (hp : ∀ packet ∈ packets, JtagTask.Sendable packet) (s : UsbMain) (e : Event)
    (t : UsbMain) (h : Inv o packets s) (hone : OneByte s e)
    (ht : step env contents (answerStream o packets) s e = some t) : Inv o packets t := by
  cases e with
  | push =>
      cases s with
      | pushing taken => obtain rfl := Option.some.inj ht; exact h
      | reading taken => cases ht
      | task first origin run => cases ht
  | read count =>
      cases s with
      | pushing taken => cases ht
      | reading taken =>
          obtain rfl : taken = 0 := h
          rcases read_answerStream env ht with ⟨-, rfl⟩ | ⟨hpos, rfl⟩
          · rfl
          · exact ⟨Nat.le_antisymm hone hpos, JtagRun.inv_start o contents packets⟩
      | task first origin run =>
          obtain ⟨rfl, hinv⟩ := h
          obtain ⟨run', hrun, rfl⟩ := Option.map_eq_some_iff.mp ht
          exact ⟨rfl, JtagRun.inv_step hp run count run' hinv hrun⟩

/-- In every run on `START_HOST` and the packets after it, the task begins with the first of them
and loses none iff no read of the handshake loop takes more than one byte. -/
theorem handover_iff (env : FirmwareEnv) (contents : List.Vector UInt8 512) (o : ByteOrder)
    (packets : List PacketToSend) (hp : ∀ packet ∈ packets, JtagTask.Sendable packet)
    (es : List Event) :
    Always (step env contents (answerStream o packets)) (HandedOver env o packets) start es ↔
      EachStep (step env contents (answerStream o packets)) OneByte start es := by
  have hstart : Inv o packets start := rfl
  refine always_iff_eachStep (Inv o packets) (inv_step hp) ?_ ?_ hstart es
  · intro s h
    cases s with
    | pushing taken => trivial
    | reading taken => trivial
    | task first origin run => exact ⟨h.1, h.2.parsed hp⟩
  · intro s e t h ht hover
    cases s with
    | pushing taken => trivial
    | task first origin run => trivial
    | reading taken =>
        obtain rfl : taken = 0 := h
        cases e with
        | push => trivial
        | read count =>
            rcases read_answerStream env ht with ⟨rfl, -⟩ | ⟨-, rfl⟩
            · exact Nat.zero_le 1
            · exact hover.1.le

/-- The answer is read on its own, and the packet behind it is sent. -/
theorem handover_iff_packet :
    let env : FirmwareEnv := ⟨.little, fun _ => true⟩
    let packets : List PacketToSend := [{ destinationMac := .replicate 6 255, data := [7] }]
    let bytes := answerStream .little packets
    (run (step env (.replicate _ 0) bytes) start [.push, .read 1, .read 12]).map sent =
        some [(.replicate 6 255, [7])] ∧
      (Always (step env (.replicate _ 0) bytes) (HandedOver env .little packets) start
          [.push, .read 1, .read 12] ↔
        EachStep (step env (.replicate _ 0) bytes) OneByte start [.push, .read 1, .read 12]) :=
  ⟨by decide +kernel, handover_iff ⟨.little, fun _ => true⟩ (.replicate _ 0) .little _
    (fun _ hpacket => List.mem_singleton.mp hpacket ▸ ⟨rfl, by decide⟩) [.push, .read 1, .read 12]⟩

/-- A packet that arrives together with `START_HOST`: the task begins behind it. -/
theorem handover_fails :
    let env : FirmwareEnv := ⟨.little, fun _ => true⟩
    let packets : List PacketToSend := [{ destinationMac := .replicate 6 255, data := [7] }]
    ¬ Always (step env (.replicate _ 0) (answerStream .little packets))
      (HandedOver env .little packets) start [.push, .read 13] := by
  intro env packets h
  have hrun : run (step env (.replicate _ 0) (answerStream .little packets)) start
      [.push, .read 13] = some (task 0 13 (.start (.replicate _ 0))) := by
    rfl
  exact absurd (Always.last h hrun).1 (by decide)

end UsbMain
