import EspNowOnLinux.Daemon.MessageLength
import EspNowOnLinux.Firmware.UsbMain

/-!
# The line to the host, shared by the tasks

`push_to_uart_with_synchro`, `write_log_to_uart` and `log_to_uart`, called by any number of tasks. A
call takes `jtag_tx_semaphore` or gives up, writes, and gives the semaphore back; one
`usb_serial_jtag_write_bytes` appends all of its bytes or, when it times out, none of them, and its
result is not looked at.

## Main results

* `exclusive_step`: only the task that has taken the semaphore is between its writes;
* `framed_iff`: whenever the semaphore is free the line carries complete messages iff no call gives
  it back after some of its writes have timed out and others have not. Only `log_to_uart`, which
  writes its message in three pieces, can do so.
-/

open Bytes Framing Messages StateMachine

/-! ## Calls -/

/-- The characters of a string literal. -/
def ascii (s : String) : List UInt8 := s.toList.map fun c => UInt8.ofNat c.toNat

/-- What `vsnprintf` makes of the arguments of `log_to_uart`. -/
def FirmwareLog.text : FirmwareLog → List UInt8
  | noSpaceToStoreReceivedPacket => ascii "No space to store received packet"
  | failedToSendPacket => ascii "Failed to send packet"
  | unknownMessageId id =>
      ascii "Unknown message id: " ++
        (Nat.toDigits 10 id.toNat).map fun c => UInt8.ofNat c.toNat
  | failedToHandlePacket => ascii "Failed to handle packet"

/-- `buffer` of `log_to_uart`, on a stack that holds `stack`, after `vsnprintf`. -/
def logBuffer (stack : List.Vector UInt8 256) (text : List UInt8) : List UInt8 :=
  overwrite stack.toList 0 (text.take 255 ++ [0])

@[simp]
theorem length_logBuffer (stack : List.Vector UInt8 256) (text : List UInt8) :
    (logBuffer stack text).length = 256 := by
  rw [logBuffer, length_overwrite, stack.toList_length]

/-- A call of one of the two functions that write to the line. -/
inductive UartCall
  /-- The handshake loop of `usb_main` pushes a `start_device`. -/
  | startDevice (enVersion : UInt32) (mac : MacAddress)
  /-- `ping_task` pushes a `ping`. -/
  | ping
  /-- The transmit loop of `usb_main` pushes a slot with this many bytes of payload: those of the
  array and, where it is shorter, of the memory behind it. `total_size` does not overflow. -/
  | receivedPacket (mac : MacAddress) (payload : { data : List UInt8 // 11 + data.length < 2 ^ 32 })
  /-- `log_to_uart`, on a stack that holds `stack`. -/
  | log (stack : List.Vector UInt8 256) (message : FirmwareLog)

namespace UartCall

/-- The arguments of the calls of `usb_serial_jtag_write_bytes`, in order. -/
def writes (o : ByteOrder) : UartCall → List (List UInt8)
  | startDevice enVersion mac => [(startMessage enVersion mac).toBytes]
  | ping => [Messages.ping]
  | receivedPacket mac payload =>
      let size := storeUInt32 o (hostToNetwork o (UInt32.ofNat payload.val.length))
      [packetBytes MessageId.receivedPacket mac size payload.val]
  | log stack message =>
      let buffer := logBuffer stack message.text
      let sizeNetwork := hostToNetwork o (UInt32.ofNat buffer.length)
      [[MessageId.logInfoUart], storeUInt32 o sizeNetwork, buffer]

/-- The message that the writes of a call make up. -/
def message : UartCall → DeviceMessage
  | startDevice enVersion mac => .startDevice (startMessage enVersion mac)
  | ping => .ping
  | receivedPacket mac payload => .receivedPacket mac payload.val
  | log stack message => .logInfoUart (logBuffer stack message.text)

/-- A call whose writes all go through writes its message. -/
theorem flatten_writes (o : ByteOrder) (c : UartCall) :
    (c.writes o).flatten = c.message.encode := by
  cases c with
  | startDevice enVersion mac => exact List.append_nil _
  | ping => rfl
  | receivedPacket mac payload =>
      show packetBytes _ _ (storeUInt32 o (hostToNetwork o _)) payload.val ++ [] = _
      rw [storeUInt32_hostToNetwork, packetBytes]
      simp [message, DeviceMessage.encode, lengthField]
  | log stack message =>
      show [MessageId.logInfoUart] ++ (storeUInt32 o (hostToNetwork o _) ++ (_ ++ [])) = _
      rw [storeUInt32_hostToNetwork]
      simp [UartCall.message, DeviceMessage.encode, lengthField]

end UartCall

/-! ## Complete messages -/

/-- The messages that the firmware sends: announcements with the right header, pings, log messages
of 256 bytes and packets from the radio, however long. -/
def FromFirmware : DeviceMessage → Prop
  | .startDevice message =>
      message.id = MessageId.startDevice ∧ message.header.toList = deviceHeader
  | .logInfo _ => False
  | .logInfoUart payload => payload.length = 256
  | .ping => True
  | .receivedPacket _ payload => payload.length < 2 ^ 32

/-- The bytes are a concatenation of complete messages. -/
def Framed (bytes : List UInt8) : Prop :=
  ∃ ms : List DeviceMessage, (∀ m ∈ ms, FromFirmware m) ∧ bytes = stream DeviceMessage.encode ms

theorem UartCall.fromFirmware_message (c : UartCall) : FromFirmware c.message := by
  cases c with
  | startDevice enVersion mac => exact ⟨rfl, rfl⟩
  | ping => trivial
  | receivedPacket mac payload =>
      have hsize : 11 + payload.val.length < 2 ^ 32 := payload.property
      show payload.val.length < 2 ^ 32
      omega
  | log stack message => exact length_logBuffer stack message.text

/-- What the firmware sends says how long it is. -/
theorem FromFirmware.sized {m : DeviceMessage} (h : FromFirmware m) : EspnowUartDevice.Sized m := by
  cases m with
  | startDevice message => exact h.1
  | logInfo text => exact h.elim
  | logInfoUart payload =>
      have hlen : payload.length = 256 := h
      show payload.length < 2 ^ 32
      omega
  | ping => trivial
  | receivedPacket mac payload => exact h

/-- Complete messages are cut as they are. -/
theorem cut_stream {ms : List DeviceMessage} (hms : ∀ m ∈ ms, FromFirmware m) :
    Cut EspnowUartDevice.messageLength? (stream DeviceMessage.encode ms)
      (ms.map DeviceMessage.encode) [] where
  flatten_append := by rw [List.append_nil, stream, List.flatMap_def]
  complete bytes hbytes := by
    obtain ⟨m, hm, rfl⟩ := List.mem_map.mp hbytes
    exact EspnowUartDevice.messageLength?_encode (hms m hm).sized
  rest_eq := rfl

/-- Complete messages in front of some bytes can be taken away. -/
theorem Framed.of_append {bytes more : List UInt8} (h : Framed bytes)
    (hall : Framed (bytes ++ more)) : Framed more := by
  obtain ⟨ms, hms, rfl⟩ := h
  obtain ⟨ns, hns, hbytes⟩ := hall
  obtain ⟨ms', rest, hcut⟩ :=
    EspnowUartDevice.selfDelimiting_messageLength?.exists_cut ([] ++ more)
  -- the messages of the whole begin with those in front
  obtain ⟨hmessages, rfl⟩ := ((cut_stream hms).append hcut).unique
    EspnowUartDevice.selfDelimiting_messageLength? (hbytes ▸ cut_stream hns)
  obtain ⟨front, back, rfl, hfront, hback⟩ := List.map_eq_append_iff.mp hmessages.symm
  refine ⟨back, fun m hm => hns m (List.mem_append_right _ hm), ?_⟩
  have hflatten := hcut.flatten_append
  rw [List.nil_append, List.append_nil, ← hback] at hflatten
  rw [← hflatten, stream, List.flatMap_def]

/-- Complete messages are followed by complete messages. -/
theorem Framed.append {bytes more : List UInt8} (h : Framed bytes) (hmore : Framed more) :
    Framed (bytes ++ more) := by
  obtain ⟨ms, hms, rfl⟩ := h
  obtain ⟨ns, hns, rfl⟩ := hmore
  exact ⟨ms ++ ns, fun m hm => (List.mem_append.mp hm).elim (hms m) (hns m),
    (stream_append ms ns).symm⟩

theorem framed_nil : Framed [] := ⟨[], fun _ hm => absurd hm List.not_mem_nil, rfl⟩

theorem UartCall.framed (c : UartCall) : Framed c.message.encode := by
  refine ⟨[c.message], fun m hm => ?_, (List.append_nil _).symm⟩
  rw [List.mem_singleton.mp hm]
  exact c.fromFirmware_message

/-- Framed bytes start with a complete message, if they start at all. -/
theorem Framed.exists_message {id : UInt8} {tail : List UInt8} (h : Framed (id :: tail)) :
    ∃ m rest, FromFirmware m ∧ id :: tail = m.encode ++ rest := by
  obtain ⟨ms, hms, hbytes⟩ := h
  cases ms with
  | nil => cases hbytes
  | cons m ms => exact ⟨m, stream DeviceMessage.encode ms, hms m List.mem_cons_self, hbytes⟩

/-- What framed bytes start with: an announcement with the right header, a log message of 256 bytes,
a ping or a packet. -/
theorem Framed.cases {id : UInt8} {tail : List UInt8} (h : Framed (id :: tail)) :
    (id = MessageId.startDevice ∧ tail.head? = some 101) ∨
      (id = MessageId.logInfoUart ∧ 260 ≤ tail.length) ∨
      id = MessageId.ping ∨ id = MessageId.receivedPacket := by
  obtain ⟨m, rest, hm, hbytes⟩ := h.exists_message
  cases m with
  | startDevice message =>
      obtain ⟨hid, hheader⟩ := hm
      obtain ⟨rfl, rfl⟩ := List.cons.inj hbytes
      refine Or.inl ⟨hid, ?_⟩
      show (message.header.toList ++ _ ++ rest).head? = some 101
      rw [hheader]
      rfl
  | logInfo text => exact hm.elim
  | logInfoUart payload =>
      have hlen : payload.length = 256 := hm
      obtain ⟨rfl, rfl⟩ := List.cons.inj hbytes
      refine Or.inr (Or.inl ⟨rfl, ?_⟩)
      simp only [List.append_eq, List.length_append, length_lengthField]
      omega
  | ping => exact Or.inr (Or.inr (Or.inl (List.cons.inj hbytes).1))
  | receivedPacket mac payload => exact Or.inr (Or.inr (Or.inr (List.cons.inj hbytes).1))

/-! ## What a call has written -/

/-- The bytes of the writes that have gone through. -/
def written : List (List UInt8) → List Bool → List UInt8
  | data :: writes, result :: results => (if result then data else []) ++ written writes results
  | _, _ => []

theorem written_concat {writes : List (List UInt8)} {results : List Bool} {data : List UInt8}
    (h : writes[results.length]? = some data) (result : Bool) :
    written writes (results ++ [result]) =
      written writes results ++ if result then data else [] := by
  induction results generalizing writes with
  | nil =>
      cases writes with
      | nil => cases h
      | cons first writes =>
          obtain rfl := Option.some.inj h
          cases writes <;> exact List.append_nil _
  | cons first results ih =>
      cases writes with
      | nil => cases h
      | cons data' writes => simp only [List.cons_append, written, ih h, List.append_assoc]

/-- With every write gone through, all bytes have been written. -/
theorem written_of_all_true {writes : List (List UInt8)} {results : List Bool}
    (hlen : results.length = writes.length) (hall : ∀ result ∈ results, result = true) :
    written writes results = writes.flatten := by
  induction results generalizing writes with
  | nil =>
      rw [List.eq_nil_of_length_eq_zero hlen.symm]
      rfl
  | cons result results ih =>
      cases writes with
      | nil => cases hlen
      | cons data writes =>
          rw [written, if_pos (hall result List.mem_cons_self),
            ih (Nat.succ.inj hlen) fun r hr => hall r (List.mem_cons_of_mem _ hr),
            List.flatten_cons]

/-- With no write gone through, nothing has been written. -/
theorem written_of_all_false {writes : List (List UInt8)} {results : List Bool}
    (hall : ∀ result ∈ results, result = false) : written writes results = [] := by
  induction results generalizing writes with
  | nil => cases writes <;> rfl
  | cons result results ih =>
      cases writes with
      | nil => rfl
      | cons data writes =>
          rw [written, hall result List.mem_cons_self,
            ih fun r hr => hall r (List.mem_cons_of_mem _ hr)]
          rfl

/-- The text of a log message begins with none of the ids that the firmware sends. -/
theorem exists_logBuffer (stack : List.Vector UInt8 256) (message : FirmwareLog) :
    ∃ first rest, logBuffer stack message.text = first :: rest ∧
      (first = 78 ∨ first = 70 ∨ first = 85) := by
  obtain ⟨first, rest, htext, hfirst⟩ : ∃ first rest, message.text = first :: rest ∧
      (first = 78 ∨ first = 70 ∨ first = 85) := by
    cases message with
    | noSpaceToStoreReceivedPacket => exact ⟨78, _, rfl, Or.inl rfl⟩
    | failedToSendPacket => exact ⟨70, _, rfl, Or.inr (Or.inl rfl)⟩
    | unknownMessageId id => exact ⟨85, _, rfl, Or.inr (Or.inr rfl)⟩
    | failedToHandlePacket => exact ⟨70, _, rfl, Or.inr (Or.inl rfl)⟩
  have hfits : 0 + ((first :: rest).take 255 ++ [0]).length ≤ stack.toList.length := by
    rw [stack.toList_length, List.length_append, List.length_take, List.length_singleton]
    omega
  refine ⟨first, (rest.take 254 ++ [0]) ++
    stack.toList.drop (0 + ((first :: rest).take 255 ++ [0]).length), ?_, hfirst⟩
  rw [logBuffer, htext, overwrite_of_fits hfits, List.take_zero, List.nil_append,
    List.take_succ_cons, List.cons_append, List.cons_append]

/-- A single write goes through or does not. -/
theorem allOrNothing_of_length_eq_one {results : List Bool} (hlen : results.length = 1) :
    (∀ result ∈ results, result = true) ∨ ∀ result ∈ results, result = false := by
  obtain ⟨result, rfl⟩ := List.length_eq_one_iff.mp hlen
  cases result with
  | true => exact Or.inl fun r hr => List.mem_singleton.mp hr
  | false => exact Or.inr fun r hr => List.mem_singleton.mp hr

/-- The size field of a log message. -/
theorem storeUInt32_logSize (o : ByteOrder) (stack : List.Vector UInt8 256) (text : List UInt8) :
    storeUInt32 o (hostToNetwork o (UInt32.ofNat (logBuffer stack text).length)) =
      [0, 0, 1, 0] := by
  rw [storeUInt32_hostToNetwork, length_logBuffer]
  decide

/-- A log message of which some pieces have been written and others have not is not framed. -/
theorem not_framed_log {o : ByteOrder} {stack : List.Vector UInt8 256} {message : FirmwareLog}
    {a b c : Bool} (hmixed : ¬ (a = b ∧ b = c)) :
    ¬ Framed (written ((UartCall.log stack message).writes o) [a, b, c]) := by
  obtain ⟨first, rest, hbuffer, hfirst⟩ := exists_logBuffer stack message
  have hlength : (first :: rest).length = 256 := by rw [← hbuffer, length_logBuffer]
  intro h
  simp only [UartCall.writes, written, storeUInt32_logSize] at h
  rw [hbuffer] at h
  -- `i` wants 260 bytes behind it, the size field is no announcement, and the text has no known id
  cases a with
  | true =>
      rcases Framed.cases h with ⟨hid, -⟩ | ⟨-, htail⟩ | hid | hid
      · exact absurd hid (by decide)
      · cases b with
        | true =>
            cases c with
            | true => exact hmixed ⟨rfl, rfl⟩
            | false => exact absurd (show 260 ≤ 4 from htail) (by decide)
        | false =>
            cases c with
            | true =>
                rw [List.append_nil] at htail
                exact absurd (hlength ▸ htail : 260 ≤ 256) (by decide)
            | false => exact absurd (show 260 ≤ 0 from htail) (by decide)
      · exact absurd hid (by decide)
      · exact absurd hid (by decide)
  | false =>
      cases b with
      | true =>
          rcases Framed.cases h with ⟨-, htail⟩ | ⟨hid, -⟩ | hid | hid
          · exact absurd htail (by simp)
          · exact absurd hid (by decide)
          · exact absurd hid (by decide)
          · exact absurd hid (by decide)
      | false =>
          cases c with
          | true =>
              have hid := Framed.cases h
              rcases hfirst with rfl | rfl | rfl <;>
                rcases hid with ⟨hid, -⟩ | ⟨hid, -⟩ | hid | hid <;> exact absurd hid (by decide)
          | false => exact hmixed ⟨rfl, rfl⟩

/-- A call that has written complete messages has written everything or nothing. -/
theorem allOrNothing_of_framed {o : ByteOrder} {c : UartCall} {results : List Bool}
    (hlen : results.length = (c.writes o).length) (h : Framed (written (c.writes o) results)) :
    (∀ result ∈ results, result = true) ∨ ∀ result ∈ results, result = false := by
  cases c with
  | startDevice enVersion mac => exact allOrNothing_of_length_eq_one hlen
  | ping => exact allOrNothing_of_length_eq_one hlen
  | receivedPacket mac payload => exact allOrNothing_of_length_eq_one hlen
  | log stack message =>
      obtain ⟨a, b, c, rfl⟩ := List.length_eq_three.mp hlen
      have hsame : a = b ∧ b = c := by
        by_contra hmixed
        exact not_framed_log hmixed h
      obtain ⟨rfl, rfl⟩ := hsame
      cases a with
      | true => exact Or.inl (by simp)
      | false => exact Or.inr (by simp)

/-! ## The tasks -/

/-- Where a task is. -/
inductive TaskStage
  /-- In none of the functions. -/
  | idle
  /-- In `xSemaphoreTake`. -/
  | taking (call : UartCall)
  /-- It has taken the semaphore, and the first writes have gone through or not. -/
  | writing (call : UartCall) (results : List Bool)

/-- The line and the tasks that share it. -/
structure UartLine (τ : Type*) where
  /-- Whether `jtag_tx_semaphore` can be taken. -/
  semaphoreFree : Bool
  tasks : τ → TaskStage
  /-- The bytes that have been written. -/
  wire : List UInt8

namespace UartLine

variable {τ : Type*} [DecidableEq τ]

/-- No task has written anything. -/
def start : UartLine τ := ⟨true, fun _ => .idle, []⟩

/-- What a task does next. -/
inductive Event (τ : Type*)
  /-- It calls one of the functions. -/
  | call (task : τ) (call : UartCall)
  /-- It takes the semaphore. -/
  | take (task : τ)
  /-- `xSemaphoreTake` gives up, and the function returns. -/
  | takeFailed (task : τ)
  /-- The next `usb_serial_jtag_write_bytes`, which writes everything or nothing. -/
  | write (task : τ) (result : Bool)
  /-- It gives the semaphore back, and the function returns. -/
  | give (task : τ)

def setTask (s : UartLine τ) (task : τ) (stage : TaskStage) : UartLine τ :=
  { s with tasks := Function.update s.tasks task stage }

/-- The line after an event; `none` is an event that cannot happen. -/
def step (o : ByteOrder) (s : UartLine τ) : Event τ → Option (UartLine τ)
  | .call task call =>
    match s.tasks task with
    | .idle => some (s.setTask task (.taking call))
    | _ => none
  | .take task =>
    match s.tasks task with
    | .taking call =>
        if s.semaphoreFree then
          some { s.setTask task (.writing call []) with semaphoreFree := false }
        else none
    | _ => none
  | .takeFailed task =>
    match s.tasks task with
    | .taking _ => some (s.setTask task .idle)
    | _ => none
  | .write task result =>
    match s.tasks task with
    | .writing call results =>
        match (call.writes o)[results.length]? with
        -- what the write returns is not looked at
        | some data =>
            some { s.setTask task (.writing call (results ++ [result])) with
              wire := if result then s.wire ++ data else s.wire }
        | none => none
    | _ => none
  | .give task =>
    match s.tasks task with
    | .writing call results =>
        if results.length = (call.writes o).length then
          some { s.setTask task .idle with semaphoreFree := true }
        else none
    | _ => none

/-- With the semaphore free, the line carries complete messages, and the daemon takes it apart into
just these. -/
def FramedWhenFree (s : UartLine τ) : Prop :=
  s.semaphoreFree = true → ∃ ms : List DeviceMessage, (∀ m ∈ ms, FromFirmware m) ∧
    s.wire = stream DeviceMessage.encode ms ∧
    Cut EspnowUartDevice.messageLength? s.wire (ms.map DeviceMessage.encode) []

omit [DecidableEq τ] in
theorem framedWhenFree_iff (s : UartLine τ) :
    FramedWhenFree s ↔ (s.semaphoreFree = true → Framed s.wire) := by
  refine imp_congr_right fun _ => ⟨?_, ?_⟩
  · rintro ⟨ms, hms, hwire, -⟩
    exact ⟨ms, hms, hwire⟩
  · rintro ⟨ms, hms, hwire⟩
    exact ⟨ms, hms, hwire, hwire ▸ cut_stream hms⟩

/-- The call that gives the semaphore back has written everything or nothing. -/
def AllOrNothing (s : UartLine τ) : Event τ → Prop
  | .give task =>
    match s.tasks task with
    | .writing _ results => (∀ result ∈ results, result = true) ∨ ∀ result ∈ results, result = false
    | _ => True
  | _ => True

/-! ## The semaphore -/

/-- The task has taken the semaphore and not given it back. -/
def Writing (s : UartLine τ) (task : τ) : Prop :=
  ∃ call results, s.tasks task = .writing call results

@[simp]
theorem wire_setTask (s : UartLine τ) (task : τ) (stage : TaskStage) :
    (s.setTask task stage).wire = s.wire := rfl

theorem tasks_setTask_eq {s : UartLine τ} {task other : τ} {stage stage' : TaskStage}
    (h : (s.setTask task stage).tasks other = stage') :
    (other = task ∧ stage = stage') ∨ (other ≠ task ∧ s.tasks other = stage') := by
  have hupdate : Function.update s.tasks task stage other = stage' := h
  by_cases hother : other = task
  · subst hother
    exact Or.inl ⟨rfl, by rw [← hupdate, Function.update_self]⟩
  · exact Or.inr ⟨hother, by rw [← hupdate, Function.update_of_ne hother]⟩

/-- What a step does: a task moves outside of the semaphore, takes it, writes, or gives it back. -/
theorem step_cases {o : ByteOrder} {s t : UartLine τ} {e : Event τ} (ht : step o s e = some t) :
    (∃ task stage, (∀ call results, stage ≠ .writing call results) ∧ t = s.setTask task stage ∧
        ¬ Writing s task ∧ ∀ task', e ≠ .give task') ∨
      (∃ task call, e = .take task ∧ s.semaphoreFree = true ∧
        t = { s.setTask task (.writing call []) with semaphoreFree := false }) ∨
      (∃ task result call results data, e = .write task result ∧
        s.tasks task = .writing call results ∧ (call.writes o)[results.length]? = some data ∧
        t = { s.setTask task (.writing call (results ++ [result])) with
          wire := s.wire ++ if result then data else [] }) ∨
      ∃ task call results, e = .give task ∧ s.tasks task = .writing call results ∧
        results.length = (call.writes o).length ∧
        t = { s.setTask task .idle with semaphoreFree := true } := by
  cases e with
  | call task call =>
      simp only [step] at ht
      split at ht
      · next htask =>
        refine Or.inl ⟨task, .taking call, nofun, (Option.some.inj ht).symm, ?_, nofun⟩
        rintro ⟨call', results, h⟩
        rw [htask] at h
        cases h
      · cases ht
  | take task =>
      simp only [step] at ht
      split at ht
      · next call _ =>
        split at ht
        · next hfree =>
          exact Or.inr (Or.inl ⟨task, call, rfl, hfree, (Option.some.inj ht).symm⟩)
        · cases ht
      · cases ht
  | takeFailed task =>
      simp only [step] at ht
      split at ht
      · next htask =>
        refine Or.inl ⟨task, .idle, nofun, (Option.some.inj ht).symm, ?_, nofun⟩
        rintro ⟨call', results, h⟩
        rw [htask] at h
        cases h
      · cases ht
  | write task result =>
      simp only [step] at ht
      split at ht
      · next call results htask =>
        split at ht
        · next data hdata =>
          refine Or.inr (Or.inr (Or.inl ⟨task, result, call, results, data, rfl, htask, hdata, ?_⟩))
          rw [← Option.some.inj ht]
          cases result with
          | true => rfl
          | false => rw [if_neg (by decide), if_neg (by decide), List.append_nil]
        · cases ht
      · cases ht
  | give task =>
      simp only [step] at ht
      split at ht
      · next call results htask =>
        split at ht
        · next hlen =>
          exact Or.inr (Or.inr (Or.inr ⟨task, call, results, rfl, htask, hlen,
            (Option.some.inj ht).symm⟩))
        · cases ht
      · cases ht

/-- At most one task has the semaphore, and none while it is free. -/
structure Exclusive (s : UartLine τ) : Prop where
  free : s.semaphoreFree = true → ∀ task, ¬ Writing s task
  unique : ∀ {task other}, Writing s task → Writing s other → other = task

/-- Only the task that has taken the semaphore is between its writes. -/
theorem exclusive_step {o : ByteOrder} {s t : UartLine τ} {e : Event τ} (h : Exclusive s)
    (ht : step o s e = some t) : Exclusive t := by
  rcases step_cases ht with ⟨task, stage, hstage, rfl, -⟩ | ⟨task, call, -, hfree, rfl⟩ |
    ⟨task, result, call, results, data, -, htask, -, rfl⟩ | ⟨task, call, results, -, htask, -, rfl⟩
  -- outside of the semaphore no task starts to write
  · have hback : ∀ other, Writing (s.setTask task stage) other → Writing s other := by
      rintro other ⟨call, results, hother⟩
      rcases tasks_setTask_eq hother with ⟨-, hwriting⟩ | ⟨-, hwriting⟩
      · exact absurd hwriting (hstage call results)
      · exact ⟨call, results, hwriting⟩
    exact ⟨fun hfree other hw => h.free hfree other (hback other hw),
      fun hw hw' => h.unique (hback _ hw) (hback _ hw')⟩
  -- it was free, so the task that takes it is the only one
  · have honly : ∀ other, Writing (s.setTask task (.writing call [])) other → other = task := by
      rintro other ⟨call', results', hother⟩
      rcases tasks_setTask_eq hother with ⟨hsame, -⟩ | ⟨-, hwriting⟩
      · exact hsame
      · exact absurd ⟨call', results', hwriting⟩ (h.free hfree other)
    exact ⟨nofun, fun hw hw' => (honly _ hw').trans (honly _ hw).symm⟩
  · have hwriting : Writing s task := ⟨call, results, htask⟩
    have hback : ∀ other, Writing (s.setTask task (.writing call (results ++ [result]))) other →
        Writing s other := by
      rintro other ⟨call', results', hother⟩
      rcases tasks_setTask_eq hother with ⟨rfl, -⟩ | ⟨-, hother⟩
      · exact hwriting
      · exact ⟨call', results', hother⟩
    exact ⟨fun hfree _ _ => h.free hfree task hwriting,
      fun hw hw' => h.unique (hback _ hw) (hback _ hw')⟩
  -- whoever gives it back was the only one
  · have hnone : ∀ other, ¬ Writing (s.setTask task .idle) other := by
      rintro other ⟨call', results', hother⟩
      rcases tasks_setTask_eq hother with ⟨-, hwriting⟩ | ⟨hne, hwriting⟩
      · cases hwriting
      · exact hne (h.unique ⟨call, results, htask⟩ ⟨call', results', hwriting⟩)
    exact ⟨fun _ => hnone, fun hw => absurd hw (hnone _)⟩

/-- Whoever has the semaphore has added, to complete messages, the writes that have gone through. -/
structure Inv (o : ByteOrder) (s : UartLine τ) : Prop extends Exclusive s where
  framed : s.semaphoreFree = true → Framed s.wire
  unfinished : ∀ {task call results}, s.tasks task = .writing call results →
    ∃ base, Framed base ∧ s.wire = base ++ written (call.writes o) results

omit [DecidableEq τ] in
theorem inv_start (o : ByteOrder) : Inv o (start : UartLine τ) where
  free _ _ := nofun
  unique := nofun
  framed _ := framed_nil
  unfinished := nofun

/-- What the writer leaves behind when everything or nothing has gone through. -/
theorem framed_written {o : ByteOrder} {base : List UInt8} {c : UartCall} {results : List Bool}
    (hbase : Framed base) (hlen : results.length = (c.writes o).length)
    (hall : (∀ result ∈ results, result = true) ∨ ∀ result ∈ results, result = false) :
    Framed (base ++ written (c.writes o) results) := by
  rcases hall with htrue | hfalse
  · rw [written_of_all_true hlen htrue, c.flatten_writes]
    exact hbase.append c.framed
  · rw [written_of_all_false hfalse, List.append_nil]
    exact hbase

/-- The invariant is kept unless a call gives the semaphore back with only some of its message
written. -/
theorem inv_step {o : ByteOrder} {s t : UartLine τ} {e : Event τ} (h : Inv o s)
    (hC : AllOrNothing s e) (ht : step o s e = some t) : Inv o t := by
  have hexclusive : Exclusive t := exclusive_step h.toExclusive ht
  rcases step_cases ht with ⟨task, stage, hstage, rfl, -⟩ | ⟨task, call, -, hfree, rfl⟩ |
    ⟨task, result, call, results, data, -, htask, hdata, rfl⟩ |
    ⟨task, call, results, rfl, htask, hlen, rfl⟩
  · refine ⟨hexclusive, h.framed, fun hother => ?_⟩
    rcases tasks_setTask_eq hother with ⟨-, hwriting⟩ | ⟨-, hwriting⟩
    · exact absurd hwriting (hstage _ _)
    · exact h.unfinished hwriting
  · refine ⟨hexclusive, nofun, fun {other _ _} hother => ?_⟩
    rcases tasks_setTask_eq hother with ⟨-, hwriting⟩ | ⟨-, hwriting⟩
    -- it has just taken the semaphore and written nothing yet
    · cases hwriting
      refine ⟨s.wire, h.framed hfree, ?_⟩
      rw [written_of_all_false (fun _ hr => absurd hr List.not_mem_nil), List.append_nil,
        wire_setTask]
    · exact absurd ⟨_, _, hwriting⟩ (h.free hfree other)
  · refine ⟨hexclusive, fun hfree => absurd ⟨call, results, htask⟩ (h.free hfree task),
      fun hother => ?_⟩
    rcases tasks_setTask_eq hother with ⟨-, hwriting⟩ | ⟨hne, hwriting⟩
    · cases hwriting
      obtain ⟨base, hbase, hwire⟩ := h.unfinished htask
      refine ⟨base, hbase, ?_⟩
      rw [written_concat hdata, ← List.append_assoc, ← hwire]
    · exact absurd (h.unique ⟨_, _, htask⟩ ⟨_, _, hwriting⟩) hne
  -- only here the line has to be framed again
  · refine ⟨hexclusive, fun _ => ?_, fun hother => ?_⟩
    · obtain ⟨base, hbase, hwire⟩ := h.unfinished htask
      rw [AllOrNothing, htask] at hC
      rw [wire_setTask, hwire]
      exact framed_written hbase hlen hC
    · rcases tasks_setTask_eq hother with ⟨-, hwriting⟩ | ⟨hne, hwriting⟩
      · cases hwriting
      · exact absurd (h.unique ⟨_, _, htask⟩ ⟨_, _, hwriting⟩) hne

/-- A call that leaves complete messages behind has written everything or nothing. -/
theorem allOrNothing_of_step {o : ByteOrder} {s t : UartLine τ} {e : Event τ} (h : Inv o s)
    (ht : step o s e = some t) (hP : FramedWhenFree t) : AllOrNothing s e := by
  cases e with
  | give task =>
      rcases step_cases ht with ⟨_, _, -, -, -, hne⟩ | ⟨_, _, he, -⟩ |
        ⟨_, _, _, _, _, he, -⟩ | ⟨task', call, results, he, htask, hlen, rfl⟩
      · exact absurd rfl (hne task)
      · cases he
      · cases he
      · cases he
        obtain ⟨base, hbase, hwire⟩ := h.unfinished htask
        have hframed : Framed (base ++ written (call.writes o) results) := by
          have hall := (framedWhenFree_iff _).mp hP rfl
          rwa [wire_setTask, hwire] at hall
        rw [AllOrNothing, htask]
        exact allOrNothing_of_framed hlen (hbase.of_append hframed)
  | call => trivial
  | take => trivial
  | takeFailed => trivial
  | write => trivial

/-- In every interleaving of the calls of any number of tasks, the line carries complete messages
whenever the semaphore is free iff each call that gives the semaphore back has written everything or
nothing; and at no moment are two tasks between their writes. -/
theorem framed_iff (o : ByteOrder) (es : List (Event τ)) :
    (Always (step o) FramedWhenFree (start : UartLine τ) es ↔
      EachStep (step o) AllOrNothing start es) ∧
    Always (step o) Exclusive (start : UartLine τ) es := by
  refine ⟨always_iff_eachStep (Inv o) (fun _ _ _ h hC ht => inv_step h hC ht) (fun s h => ?_)
    (fun _ _ _ h ht hP => allOrNothing_of_step h ht hP) (inv_start o) es, ?_⟩
  · exact (framedWhenFree_iff s).mpr h.framed
  · exact always_of_invariant (fun _ _ _ h ht => exclusive_step h ht) (fun _ h => h)
      (inv_start o).toExclusive es

/-- The first write of a log message goes through and the other two time out: the daemon is left
with an `i` in front of whatever comes next. -/
theorem framed_fails :
    let log : UartCall := .log (.replicate 256 0) .failedToHandlePacket
    let es : List (Event Unit) := [.call () log, .take (), .write () true, .write () false,
      .write () false, .give ()]
    (run (step .little) start es).map (fun s => (s.semaphoreFree, s.wire)) = some (true, [105]) ∧
      ¬ Always (step .little) FramedWhenFree start es := by
  intro log es
  have hrun : (run (step .little) start es).map (fun s => (s.semaphoreFree, s.wire)) =
      some (true, [105]) := by decide +kernel
  refine ⟨hrun, fun h => ?_⟩
  obtain ⟨t, hmap, hlast⟩ := h.exists_last hrun
  obtain ⟨hfree, hwire⟩ := Prod.mk.inj hmap
  have hframed : Framed t.wire := (framedWhenFree_iff t).mp hlast hfree
  rw [hwire] at hframed
  rcases hframed.cases with ⟨hid, -⟩ | ⟨-, htail⟩ | hid | hid
  · exact absurd hid (by decide)
  · exact absurd htail (by decide)
  · exact absurd hid (by decide)
  · exact absurd hid (by decide)

end UartLine
