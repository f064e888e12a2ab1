import EspNowOnLinux.Daemon.EspnowUartDevice

/-!
# The device manager

`device_manager`, what it takes from the system to open a device, and what can happen to a device it
manages. An exception that no one catches is `none`: it ends the daemon.

## Main results

* `DeviceManager.addUartDevice_cases`: a device is added at the end, or nothing changes;
* `EspnowUartDevice.announces_step`: whatever happens to a device, it is announced to the
  subscribers of `new_device_event` at most once.
-/

open Bytes Framing Messages

/-! ## Opening a device -/

/-- What the system makes of an attempt to open a device: first the serial port, then the TAP
device. -/
inductive Opening
  /-- The serial port cannot be opened, and `asio::system_error` has this code. -/
  | serialPortError (code : ℕ)
  /-- `open_tun_device` throws `std::runtime_error`. -/
  | tunError
  /-- Both are open. The members without an initialiser are whatever the memory held. -/
  | opened (contents : List.Vector UInt8 (1024 * 4)) (deviceDetails : DeviceDetails)
      (tunFdBuffer : List.Vector UInt8 512)

/-- `ENOENT`. -/
def enoent : ℕ := 2

/-- `espnow_uart_device::opening_device_error`. -/
inductive OpeningDeviceError
  | ok
  | deviceFileDoesNotExist
  | deviceAlreadyOpened
  | unknownError
  deriving DecidableEq

/-- A device and the file it was opened with, `device_file_`. -/
structure ManagedDevice where
  device : EspnowUartDevice
  deviceFile : String

/-- `espnow_uart_device::open`. Only the serial port's exceptions are caught. -/
def openUartDevice (opening : Opening) (deviceFile : String) (espnowIdx : UInt32) :
    Option (Except OpeningDeviceError ManagedDevice) :=
  match opening with
  | .serialPortError code =>
      some (.error (if code = enoent then .deviceFileDoesNotExist else .unknownError))
  | .tunError => none
  | .opened contents deviceDetails tunFdBuffer =>
      let espnowId := "espnow" ++ toString espnowIdx.toNat
      let device := EspnowUartDevice.new (SerialPortSocket.new contents) espnowId deviceDetails
        tunFdBuffer
      some (.ok ⟨device, deviceFile⟩)

/-! ## The manager -/

/-- `adding_device_error_code`. -/
inductive AddingDeviceErrorCode
  | ok
  | deviceAlreadyExists
  | deviceFileDoesNotExist
  deriving DecidableEq

/-- `device_manager`. -/
structure DeviceManager where
  espnowDevices : List ManagedDevice

namespace DeviceManager

/-- The manager before the first request. -/
def new : DeviceManager := ⟨[]⟩

/-- `add_uart_device`. Every error of `open` is reported as the one code. -/
def addUartDevice (m : DeviceManager) (opening : Opening) (deviceFile : String) :
    Option (DeviceManager × Except AddingDeviceErrorCode ManagedDevice) :=
  (openUartDevice opening deviceFile (UInt32.ofNat m.espnowDevices.length)).map fun
    | .error _ => (m, .error .deviceFileDoesNotExist)
    | .ok device => (⟨m.espnowDevices ++ [device]⟩, .ok device)

/-- `get_device_by_id`. -/
def getDeviceById (m : DeviceManager) (deviceId : String) : Option ManagedDevice :=
  m.espnowDevices.find? fun d => d.device.espnowId = deviceId

/-- A call that returns has added a device at the end, or changed nothing. -/
theorem addUartDevice_cases {m m' : DeviceManager} {opening : Opening} {deviceFile : String}
    {result : Except AddingDeviceErrorCode ManagedDevice}
    (h : m.addUartDevice opening deviceFile = some (m', result)) :
    (m' = m ∧ result = .error .deviceFileDoesNotExist) ∨
      ∃ device, m'.espnowDevices = m.espnowDevices ++ [device] ∧ result = .ok device ∧
        device.deviceFile = deviceFile := by
  obtain ⟨outcome, hopen, hresult⟩ := Option.map_eq_some_iff.mp h
  cases opening with
  | serialPortError code =>
      -- whatever the code, the manager reports that the file does not exist
      cases hopen
      cases hresult
      exact Or.inl ⟨rfl, rfl⟩
  | tunError => cases hopen
  | opened contents deviceDetails tunFdBuffer =>
      cases hopen
      cases hresult
      exact Or.inr ⟨_, rfl, rfl, rfl⟩

end DeviceManager

/-! ## What happens to a device -/

namespace EspnowUartDevice

/-- The completions that a device waits for. -/
inductive Event
  /-- The outstanding serial read returns bytes. -/
  | serialRead (bytes : List UInt8)
  /-- The outstanding TAP read returns a frame. -/
  | tunRead (frame : PacketBuffer 512)
  /-- The serial write that was started first completes. -/
  | serialWritten
  /-- The TAP write that was started first completes. -/
  | tunWritten

/-- The device after a completion; `none` is one that cannot happen or undefined behaviour. A read
that leaves the bounds of `packet_buffer` or of its span is. -/
def step (env : HostEnv) (d : EspnowUartDevice) : Event → Option EspnowUartDevice
  | .serialRead bytes =>
      match d.serialPort.readRequest with
      | some size =>
          if bytes.length ≤ size then (readHandleInBounds env d bytes).map Prod.fst else none
      | none => none
  | .tunRead frame => if d.tunReading then tunReadHandle env d false frame else none
  | .serialWritten => d.serialPort.writeCompleted.map fun port => { d with serialPort := port }
  | .tunWritten => d.tunWriteCompleted

/-- The device `d'` that `d` has become is the same device, and it has been announced once more than
`d` or not at all; it has been announced only if `d` had not been asked to start. -/
structure Announces (d d' : EspnowUartDevice) : Prop where
  espnowId_eq : d'.espnowId = d.espnowId
  published : (d'.published = d.published ∧ d'.requestedStart = d.requestedStart) ∨
    (d.requestedStart = false ∧ d'.requestedStart = true ∧
      d'.published = d.published ++ [d.espnowId])

variable {env : HostEnv} {d d' d'' : EspnowUartDevice}

theorem Announces.refl (d : EspnowUartDevice) : Announces d d := ⟨rfl, Or.inl ⟨rfl, rfl⟩⟩

/-- A second announcement would need a device that has not been asked to start. -/
theorem Announces.trans (h : Announces d d') (h' : Announces d' d'') : Announces d d'' := by
  refine ⟨h'.espnowId_eq.trans h.espnowId_eq, ?_⟩
  rcases h.published with ⟨hp, hs⟩ | ⟨hno, hyes, hp⟩
  · rcases h'.published with ⟨hp', hs'⟩ | ⟨hno', hyes', hp'⟩
    · exact Or.inl ⟨hp'.trans hp, hs'.trans hs⟩
    · exact Or.inr ⟨hs ▸ hno', hyes', by rw [hp', hp, h.espnowId_eq]⟩
  · rcases h'.published with ⟨hp', hs'⟩ | ⟨hno', -, -⟩
    · exact Or.inr ⟨hno, hs'.trans hyes, hp'.trans hp⟩
    · rw [hyes] at hno'
      cases hno'

/-- One message announces the device at most once. -/
theorem announces_handleSerialPacket {data : List UInt8} {r : Reply EspnowUartDevice UInt8}
    (h : handleSerialPacket env d data = some r) : Announces d r.state := by
  rcases handleSerialPacket_cases h with hsame | ⟨hno, hanswer⟩ | ⟨mac, payload, hpacket⟩
  · rw [hsame]
    exact Announces.refl d
  · simp only [answerStartDevice, Option.bind_eq_bind, Option.bind_eq_some_iff] at hanswer
    obtain ⟨port, -, ⟨rest, message⟩, -, hstate⟩ := hanswer
    rw [← Option.some.inj hstate]
    exact ⟨rfl, Or.inr ⟨hno, rfl, rfl⟩⟩
  · rw [hpacket]
    exact ⟨rfl, Or.inl ⟨rfl, rfl⟩⟩

/-- So does one read, however many messages it completes. -/
theorem announces_readHandle {bytes : List UInt8} {spans : List (List UInt8)}
    (h : readHandle env d false bytes = some (d', spans)) : Announces d d' := by
  rw [readHandle, if_neg Bool.false_ne_true] at h
  obtain ⟨t, ht, hresult⟩ := Option.map_eq_some_iff.mp h
  have hloop : Announces d t.1 := ReceivingBuffer.consumeLoop_invariant
    (fun s data r hs hr => hs.trans (announces_handleSerialPacket hr)) (fun _ _ hs => hs)
    (⟨rfl, Or.inl ⟨rfl, rfl⟩⟩ : Announces d d.readCompleted) ht
  obtain rfl : t.1.rearm t.2.1.moveDataToFront = d' := (Prod.mk.inj hresult).1
  exact ⟨hloop.espnowId_eq, hloop.published⟩

/-- Whatever happens to a device, it stays the same device and is announced at most once, with the
first `START_DEVICE`. -/
theorem announces_step {e : Event} (h : step env d e = some d') : Announces d d' := by
  cases e with
  | serialRead bytes =>
      simp only [step] at h
      split at h
      · split at h
        · obtain ⟨⟨t, spans⟩, ht, rfl⟩ := Option.map_eq_some_iff.mp h
          exact announces_readHandle (readHandleInBounds_eq_some.mp ht).1
        · cases h
      · cases h
  | tunRead frame =>
      simp only [step] at h
      split at h
      · rcases tunReadHandle_cases h with ⟨tunFdBuffer, rfl⟩ | ⟨_, _, _, _, -, rfl⟩
        · exact ⟨rfl, Or.inl ⟨rfl, rfl⟩⟩
        · exact ⟨rfl, Or.inl ⟨rfl, rfl⟩⟩
      · cases h
  | serialWritten =>
      obtain ⟨port, -, rfl⟩ := Option.map_eq_some_iff.mp h
      exact ⟨rfl, Or.inl ⟨rfl, rfl⟩⟩
  | tunWritten =>
      obtain ⟨q, -, rfl⟩ := tunWriteCompleted_cases h
      exact ⟨rfl, Or.inl ⟨rfl, rfl⟩⟩

end EspnowUartDevice
