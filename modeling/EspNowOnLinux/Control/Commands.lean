import EspNowOnLinux.Control.ControlSession

/-!
# The command line client

`espnowcontrol`: a command checks its arguments, sends one request to the daemon and shows what the
first read returns. A connection is what becomes of its operations; what is received is the envelope
that `ParseFromArray` makes of it, whether or not it succeeds.

## Main results

* `main_eq`: what the program writes, and its exit status, once it has a response: the status does
  not tell what the daemon has answered.
-/

open ControlMessages

namespace EspnowControl

/-- The lines on the two streams of the program. -/
structure Console where
  /-- `stdout`. -/
  out : List (List UInt8) := []
  /-- `std::cerr`. -/
  err : List (List UInt8) := []

/-- The bytes of a text. -/
def text (s : String) : List UInt8 := s.toUTF8.toList

/-- `ConnectionSocket`: how its operations end, with the message of the exception if one fails. -/
structure ConnectionSocket where
  sendMessage : ControlEnvelope → Except String Unit
  /-- `receive_message`, and the envelope that is made of what it returns. -/
  receiveMessage : Except String ControlEnvelope

/-- `ICmdCommand`, with `handle` in two parts. -/
structure ICmdCommand where
  getName : String
  getDescription : String
  /-- The request that the arguments stand for, or how the command is used. -/
  request : List String → Except String ControlEnvelope
  /-- What is written when the response has been received. -/
  report : ControlEnvelope → Console

/-- A command with one argument. -/
def oneArgument (usage : String) (request : String → ControlEnvelope) :
    List String → Except String ControlEnvelope
  | [arg] => .ok (request arg)
  | _ => .error usage

/-! ## The commands -/

/-- The last part of `AddUartDeviceCommand::handle`. A response to another request is passed over in
silence. -/
def reportAdded (response : ControlEnvelope) : Console :=
  match response.action with
  | some (.addUartDeviceResponse .success deviceId) =>
      { out := [text ("Added device with ID: " ++ deviceId)] }
  | some (.addUartDeviceResponse .deviceFileDoesNotExist _) =>
      { err := [text "Device file does not exist"] }
  | some (.addUartDeviceResponse .deviceAlreadyExists _) =>
      { err := [text "Device already exists"] }
  | some (.addUartDeviceResponse .unknownError _) => { err := [text "Unknown error"] }
  | _ => {}

/-- `AddUartDeviceCommand`. -/
def addUartDeviceCommand : ICmdCommand where
  getName := "add_uart_device"
  getDescription := "add_uart_device <device_file> - adds a new uart device"
  request := oneArgument "Usage: add_uart_device <device_file>"
    fun deviceFile => ⟨0, some (.addUartDeviceRequest deviceFile)⟩
  report := reportAdded

/-- The last part of `GetStatisticsCommand::handle`. -/
def reportStatistics (response : ControlEnvelope) : Console :=
  match response.action with
  | some (.getStatisticsResponse response) =>
      match response.status with
      | .success =>
          { out := [text "Device statistics:",
              text ("  Broadcast sent: " ++ toString response.broadcastSent),
              text ("  Broadcast received: " ++ toString response.broadcastReceived)] }
      | .deviceNotFound => { err := [text "Device not found"] }
      | .unknownError => { err := [text "Unknown error"] }
  | _ => {}

/-- `GetStatisticsCommand`. -/
def getStatisticsCommand : ICmdCommand where
  getName := "get_statistics"
  getDescription := "get_statistics <device_name> - gets statistics for a device"
  request := oneArgument "Usage: get_statistics <device_name>"
    fun deviceId => ⟨0, some (.getStatisticsRequest deviceId)⟩
  report := reportStatistics

/-- A hexadecimal digit. -/
def hexDigit (n : ℕ) : UInt8 := UInt8.ofNat (if n < 10 then 48 + n else 87 + n)

/-- `{:02x}`. -/
def hexByte (b : UInt8) : List UInt8 := [hexDigit (b.toNat / 16), hexDigit (b.toNat % 16)]

/-- The lines for one device. -/
def deviceLines (device : BasicDeviceInfo) : List (List UInt8) :=
  let version := match device.version with
    | .v1 => "0"
    | .v2 => "1"
  let firmware := toString device.fwVersion.major ++ "." ++ toString device.fwVersion.minor ++
    "." ++ toString device.fwVersion.patch
  [text (device.deviceId ++ ":"),
    text "\tdevice name: " ++ device.deviceName,
    text ("\tespnow version: " ++ version),
    -- a colon after each byte but the last
    text "\tmac address: " ++ ((device.macAddress.map hexByte).intersperse (text ":")).flatten,
    text ("\tfw version: " ++ firmware),
    text "\tconnection type: UART",
    text ("\tdevice file: " ++ device.deviceFile)]

/-- The last part of `GetDevicesListCommand::handle`. Where there is no list of devices, the one
that is read is empty. -/
def reportDevices (response : ControlEnvelope) : Console :=
  match response.action with
  | some (.getListOfDevicesResponse devices) => { out := devices.flatMap deviceLines }
  | _ => {}

/-- `GetDevicesListCommand`, which does not look at its arguments. -/
def getDevicesListCommand : ICmdCommand where
  getName := "devices"
  getDescription := "devices - get list of devices"
  request _ := .ok ⟨1, some .getListOfDevicesRequest⟩
  report := reportDevices

/-! ## The program -/

/-- The commands, in the order in which they are looked through. -/
def commands : List ICmdCommand :=
  [getDevicesListCommand, addUartDeviceCommand, getStatisticsCommand]

/-- `find_command`. -/
def findCommand (arg : String) (commands : List ICmdCommand) : Option ICmdCommand :=
  commands.find? fun cmd => cmd.getName = arg

/-- `ICmdCommand::handle`: whether the arguments were right, and what has been written. -/
def ICmdCommand.handle (cmd : ICmdCommand) (socket : ConnectionSocket) (args : List String) :
    Except String (Bool × Console) :=
  match cmd.request args with
  | .error usage => .ok (false, { err := [text usage] })
  | .ok request => do
      socket.sendMessage request
      let response ← socket.receiveMessage
      .ok (true, cmd.report response)

/-- `main`: the lines that are written and the exit status. The connection may fail to be made;
`none` is a read of the first argument where there is none. -/
def main (socket : Except String ConnectionSocket) (argv : List String) : Option (Console × ℤ) :=
  match argv.drop 1 with
  | [] => none
  | arg :: args =>
      match findCommand arg commands with
      | none =>
          let available := commands.map fun cmd => text ("\t" ++ cmd.getDescription)
          some ({ err := text "Command not found" :: text "Available commands:" :: available }, -1)
      | some command =>
          match socket.bind fun socket => command.handle socket args with
          | .ok (true, console) => some (console, 0)
          | .ok (false, console) =>
              some ({ console with err := console.err ++ [text "Failed to handle command"] }, -1)
          -- an exception is written, and the status is that of a success
          | .error what => some ({ err := [text ("Exception: " ++ what)] }, 0)

/-- A command that has sent its request and received a response. -/
theorem main_eq {program arg : String} {args : List String} {command : ICmdCommand}
    {request : ControlEnvelope} (hcommand : findCommand arg commands = some command)
    (hrequest : command.request args = .ok request) (response : ControlEnvelope) :
    main (.ok ⟨fun _ => .ok (), .ok response⟩) (program :: arg :: args) =
      some (command.report response, 0) := by
  simp only [main, List.drop_succ_cons, List.drop_zero, hcommand, Except.bind, ICmdCommand.handle,
    hrequest]
  rfl

end EspnowControl
