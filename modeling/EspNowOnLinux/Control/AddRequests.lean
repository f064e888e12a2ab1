import EspNowOnLinux.Control.ControlServer

/-!
# Requests to add a device

What becomes of an `add_uart_device_request`: the outcome of each system call that opening a device
takes, through the exceptions of `open_tun_device` and of the serial port and the error codes of
`espnow_uart_device::open` and `device_manager::add_uart_device`, to the status that the client is
sent; and the devices that the daemon has after any number of requests.

## Main results

* `DeviceManager.answersAdd_iff`: a request is answered, with the right status where it fails, iff
  the device can be opened or its file does not exist. Any other error of the serial port is
  reported as a file that does not exist, and an error of the TAP device ends the daemon;
* `ControlServer.deviceFiles_step`: which files the managed devices have after a step;
* `ControlServer.onePerFile_iff`: the managed devices have different files throughout a run iff no
  device is opened with the file of a managed one. Nothing refuses such a request.
-/

open ControlMessages StateMachine

/-! ## Opening a device, call by call -/

/-- What the system makes of the calls of `open_tun_device`, with `strerror(errno)` where one
fails. -/
inductive TapAnswer
  | opened
  /-- `open` on `/dev/net/tun` fails. -/
  | openFails (error : String)
  /-- `ioctl` with `TUNSETIFF` fails. -/
  | ioctlFails (error : String)
  deriving DecidableEq

/-- `open_tun_device`: it returns, or throws `std::runtime_error` with this text. -/
def openTunDevice (answer : TapAnswer) (interfaceName : String) : Except String Unit :=
  match answer with
  | .opened => .ok ()
  | .openFails error => .error ("Failed to open /dev/net/tun: " ++ error)
  | .ioctlFails error =>
      .error ("Failed to ioctl TUNSETIFF on tap device " ++ interfaceName ++ ": " ++ error)

/-- What the system makes of the calls that open a device. The TAP device is not asked for where the
serial port cannot be opened. -/
structure SystemAnswers where
  /-- The code of the `asio::system_error` that opening the serial port throws, if it does. -/
  serialPort : Option ℕ
  tap : TapAnswer
  /-- What memory held where the device is constructed. -/
  contents : List.Vector UInt8 (1024 * 4)
  deviceDetails : DeviceDetails
  tunFdBuffer : List.Vector UInt8 512

namespace SystemAnswers

/-- What `espnow_uart_device::open` is left with, for the device that the manager asks it for. -/
def opening (a : SystemAnswers) (m : DeviceManager) : Opening :=
  match a.serialPort with
  | some code => .serialPortError code
  | none =>
    let espnowId := "espnow" ++ toString (UInt32.ofNat m.espnowDevices.length).toNat
    match openTunDevice a.tap espnowId with
    | .error _ => .tunError
    | .ok () => .opened a.contents a.deviceDetails a.tunFdBuffer

/-- The status that a failed request should be answered with. -/
def status (a : SystemAnswers) : AddUartDeviceStatus :=
  if a.serialPort = some enoent then .deviceFileDoesNotExist else .unknownError

/-- The device can be opened, or its file does not exist. -/
def Handled (a : SystemAnswers) : Prop :=
  a.serialPort = some enoent ∨ (a.serialPort = none ∧ a.tap = .opened)

instance (a : SystemAnswers) : Decidable a.Handled := inferInstanceAs (Decidable (_ ∨ _))

variable {a : SystemAnswers} {m : DeviceManager}

theorem opening_serialPortError {code : ℕ} (h : a.serialPort = some code) :
    a.opening m = .serialPortError code := by
  rw [opening, h]

theorem opening_opened (h : a.serialPort = none) (htap : a.tap = .opened) :
    a.opening m = .opened a.contents a.deviceDetails a.tunFdBuffer := by
  rw [opening, h, htap]
  rfl

theorem opening_tunError (h : a.serialPort = none) (htap : a.tap ≠ .opened) :
    a.opening m = .tunError := by
  rw [opening, h]
  cases hanswer : a.tap with
  | opened => exact absurd hanswer htap
  | openFails error => rfl
  | ioctlFails error => rfl

end SystemAnswers

namespace DeviceManager

variable {m : DeviceManager} {a : SystemAnswers} {deviceFile : String}

/-- The call returns; where it fails, the devices are the same as before and the session answers the
request with its number and the right status. -/
def AnswersAdd (m : DeviceManager) (a : SystemAnswers) (deviceFile : String)
    (sequenceNumber : UInt32) (uptime : UInt64) : Prop :=
  ∃ (m' : DeviceManager) (result : Except AddingDeviceErrorCode ManagedDevice),
    m.addUartDevice (a.opening m) deviceFile = some (m', result) ∧
    ∀ code, result = .error code → m' = m ∧
      ControlSession.handleRead m (a.opening m) uptime
          ⟨sequenceNumber, some (.addUartDeviceRequest deviceFile)⟩ =
        some (m, some ⟨sequenceNumber, some (.addUartDeviceResponse a.status "")⟩)

/-- Whatever the code, the client is told that the file does not exist. -/
theorem handleRead_serialPortError (m : DeviceManager) (code : ℕ) (deviceFile : String)
    (sequenceNumber : UInt32) (uptime : UInt64) :
    ControlSession.handleRead m (.serialPortError code) uptime
        ⟨sequenceNumber, some (.addUartDeviceRequest deviceFile)⟩ =
      some (m, some ⟨sequenceNumber,
        some (.addUartDeviceResponse .deviceFileDoesNotExist "")⟩) := rfl

/-- A request whose device can be opened, or whose file does not exist. -/
theorem answersAdd_of_handled (m : DeviceManager) (deviceFile : String) (sequenceNumber : UInt32)
    (uptime : UInt64) (h : a.Handled) : m.AnswersAdd a deviceFile sequenceNumber uptime := by
  rcases h with henoent | ⟨hserial, htap⟩
  · have hstatus : a.status = .deviceFileDoesNotExist := if_pos henoent
    refine ⟨m, .error .deviceFileDoesNotExist, ?_, fun code _ => ⟨rfl, ?_⟩⟩
    · rw [SystemAnswers.opening_serialPortError henoent]
      rfl
    · rw [SystemAnswers.opening_serialPortError henoent, hstatus]
      exact handleRead_serialPortError m enoent deviceFile sequenceNumber uptime
  -- a device that can be opened is no failure, so nothing is asked of the answer
  · rw [AnswersAdd, SystemAnswers.opening_opened hserial htap]
    refine ⟨_, _, rfl, fun code hcode => ?_⟩
    cases hcode

/-- An error of the TAP device is an exception that leaves `add_uart_device`. -/
theorem not_answersAdd_of_tap {sequenceNumber : UInt32} {uptime : UInt64}
    (hserial : a.serialPort = none) (htap : a.tap ≠ .opened) :
    ¬ m.AnswersAdd a deviceFile sequenceNumber uptime := by
  rintro ⟨m', result, hadd, -⟩
  rw [SystemAnswers.opening_tunError hserial htap] at hadd
  cases hadd

/-- An error of the serial port other than `ENOENT` is reported as that one. -/
theorem not_answersAdd_of_code {sequenceNumber : UInt32} {uptime : UInt64} {code : ℕ}
    (hserial : a.serialPort = some code) (hcode : code ≠ enoent) :
    ¬ m.AnswersAdd a deviceFile sequenceNumber uptime := by
  rintro ⟨m', result, hadd, hanswer⟩
  have hstatus : a.status = .unknownError :=
    if_neg fun h => hcode (Option.some.inj (hserial.symm.trans h))
  rw [SystemAnswers.opening_serialPortError hserial, hstatus] at hanswer
  rw [SystemAnswers.opening_serialPortError hserial] at hadd
  obtain ⟨-, rfl⟩ := Prod.mk.inj (Option.some.inj hadd)
  -- the answer that is given is not the one that is asked for
  have hread := (hanswer _ rfl).2
  rw [handleRead_serialPortError] at hread
  cases hread

/-- In every state of the manager, for every file and every outcome of opening it: the request is
handled as it should be iff the device can be opened or its file does not exist. -/
theorem answersAdd_iff (m : DeviceManager) (a : SystemAnswers) (deviceFile : String)
    (sequenceNumber : UInt32) (uptime : UInt64) :
    m.AnswersAdd a deviceFile sequenceNumber uptime ↔ a.Handled := by
  constructor
  · intro h
    cases hserial : a.serialPort with
    | some code =>
        by_cases hcode : code = enoent
        · exact Or.inl (hcode ▸ hserial)
        · exact absurd h (not_answersAdd_of_code hserial hcode)
    | none =>
        by_cases htap : a.tap = .opened
        · exact Or.inr ⟨hserial, htap⟩
        · exact absurd h (not_answersAdd_of_tap hserial htap)
  · intro h
    exact answersAdd_of_handled m deviceFile sequenceNumber uptime h

/-- Two requests on a daemon without devices. One is for a file that may not be opened, `EACCES`,
and is told that it does not exist; the other finds no `/dev/net/tun`, and ends the daemon. -/
theorem answersAdd_fails :
    let denied : SystemAnswers := ⟨some 13, .opened, .replicate _ 0, ⟨[], .replicate _ 0, .v1,
      ⟨0, 0, 0⟩⟩, .replicate _ 0⟩
    let withoutTap : SystemAnswers :=
      { denied with serialPort := none, tap := .openFails "No such file or directory" }
    let request : ControlEnvelope := ⟨1, some (.addUartDeviceRequest "/dev/ttyACM0")⟩
    ControlSession.handleRead new (denied.opening new) 0 request =
        some (new, some ⟨1, some (.addUartDeviceResponse .deviceFileDoesNotExist "")⟩) ∧
      run (ControlServer.step ⟨.little, fun _ => []⟩) .start
        [.accepted 0 false, .read 0 (withoutTap.opening new) 0 request] = none ∧
      ¬ new.AnswersAdd denied "/dev/ttyACM0" 1 0 ∧
      ¬ new.AnswersAdd withoutTap "/dev/ttyACM0" 1 0 := by
  intro denied withoutTap request
  refine ⟨rfl, rfl, ?_, ?_⟩
  · exact not_answersAdd_of_code rfl (by decide)
  · exact not_answersAdd_of_tap rfl (by decide)

end DeviceManager

/-! ## One device for each file -/

/-- `device_file_` of the managed devices. -/
def DeviceManager.deviceFiles (m : DeviceManager) : List String :=
  m.espnowDevices.map ManagedDevice.deviceFile

namespace ControlServer

/-- No two managed devices were opened with the same file. -/
def OnePerFile (s : ControlServer) : Prop := s.deviceManager.deviceFiles.Nodup

/-- The file of the device that an envelope opens, if it does. -/
def openedFile? (opening : Opening) (envelope : ControlEnvelope) : Option String :=
  match envelope.action with
  | some (.addUartDeviceRequest deviceFile) =>
      match opening with
      | .opened .. => some deviceFile
      | _ => none
  | _ => none

/-- The file of the device that an event opens, if it does. -/
def Event.openedFile? : Event → Option String
  | .read _ opening _ envelope => ControlServer.openedFile? opening envelope
  | _ => none

/-- A device is opened only where an envelope is handled. -/
theorem openedFile?_of_quiet {e : Event} (h : e.Quiet) : e.openedFile? = none := by
  cases e with
  | read session opening uptime envelope => exact h.elim
  | accepted session ec => rfl
  | readFailed session => rfl
  | written session => rfl
  | device device event => rfl

/-- The event opens no device with the file of a managed one. -/
def OpensNewFile (s : ControlServer) (e : Event) : Prop :=
  ∀ deviceFile, e.openedFile? = some deviceFile → deviceFile ∉ s.deviceManager.deviceFiles

variable {env : HostEnv} {s t : ControlServer} {e : Event}

/-- A request that opens a device adds its file; any other envelope leaves the files alone. -/
theorem deviceFiles_handleRead {m m' : DeviceManager} {opening : Opening} {uptime : UInt64}
    {envelope : ControlEnvelope} {response : Option ControlEnvelope}
    (h : ControlSession.handleRead m opening uptime envelope = some (m', response)) :
    m'.deviceFiles = m.deviceFiles ++ (openedFile? opening envelope).toList := by
  rcases ControlSession.handleRead_cases h with ⟨deviceFile, result, haction, hadd⟩ | ⟨hother, rfl⟩
  · rw [openedFile?, haction]
    cases opening with
    | serialPortError code =>
        cases hadd
        exact (List.append_nil _).symm
    | tunError => cases hadd
    | opened contents deviceDetails tunFdBuffer =>
        cases hadd
        rw [DeviceManager.deviceFiles, List.map_append]
        rfl
  · have hnone : openedFile? opening envelope = none := by
      rw [openedFile?]
      split
      · next deviceFile haction => exact absurd haction (hother deviceFile)
      · rfl
    rw [hnone]
    exact (List.append_nil _).symm

/-- Whatever happens to a device, its file stays the same. -/
theorem deviceFiles_set {m : DeviceManager} {device : ℕ} {d : ManagedDevice}
    (hd : m.espnowDevices[device]? = some d) (d' : EspnowUartDevice) :
    (⟨m.espnowDevices.set device { d with device := d' }⟩ : DeviceManager).deviceFiles =
      m.deviceFiles := by
  obtain ⟨hlt, rfl⟩ := List.getElem?_eq_some_iff.mp hd
  -- the entry that is replaced has the same file as before
  apply List.ext_getElem
  · simp only [DeviceManager.deviceFiles, List.length_map, List.length_set]
  · intro i hi hi'
    simp only [DeviceManager.deviceFiles, List.getElem_map, List.getElem_set]
    by_cases heq : device = i
    · subst heq
      rw [if_pos rfl]
    · rw [if_neg heq]

/-- What a step does to the files. -/
theorem deviceFiles_step (h : step env s e = some t) :
    t.deviceManager.deviceFiles = s.deviceManager.deviceFiles ++ e.openedFile?.toList := by
  rcases step_cases h with
    ⟨session, opening, uptime, envelope, c, m, response, rfl, -, hread, rfl⟩ |
    ⟨device, event, d, d', rfl, hd, hmanager⟩ | ⟨hquiet, hmanager, -⟩
  · exact deviceFiles_handleRead hread
  · rw [hmanager, deviceFiles_set hd]
    exact (List.append_nil _).symm
  · rw [hmanager, openedFile?_of_quiet hquiet]
    exact (List.append_nil _).symm

/-- A step keeps the files different iff it opens no device with a file that is there already. -/
theorem onePerFile_step_iff (h : s.OnePerFile) (ht : step env s e = some t) :
    t.OnePerFile ↔ OpensNewFile s e := by
  rw [OnePerFile, deviceFiles_step ht, OpensNewFile]
  cases e.openedFile? with
  | none =>
      rw [Option.toList_none, List.append_nil]
      exact ⟨fun _ _ hfile => absurd hfile (Option.some_ne_none _).symm, fun _ => h⟩
  | some deviceFile =>
      rw [Option.toList_some, ← List.concat_eq_append, List.nodup_concat]
      constructor
      · rintro ⟨hnew, -⟩ file hfile
        exact Option.some.inj hfile ▸ hnew
      · intro hnew
        exact ⟨hnew deviceFile rfl, h⟩

/-- In every interleaving of clients that connect, send requests with any outcome and disconnect,
and of events of the devices: the managed devices have different files throughout iff no request
opens a device with the file of a managed one. -/
theorem onePerFile_iff (env : HostEnv) (es : List Event) :
    Always (step env) OnePerFile start es ↔ EachStep (step env) OpensNewFile start es := by
  have hstart : OnePerFile start := List.nodup_nil
  exact always_iff_eachStep OnePerFile (fun _ _ _ h hC ht => (onePerFile_step_iff h ht).mpr hC)
    (fun _ h => h) (fun _ _ _ h ht hP => (onePerFile_step_iff h ht).mp hP) hstart es

/-- Two clients ask for the same file, and the system opens it twice. -/
theorem onePerFile_fails :
    let env : HostEnv := ⟨.little, fun _ => []⟩
    let opening : Opening := .opened (.replicate _ 0) ⟨[], .replicate _ 0, .v1, ⟨0, 0, 0⟩⟩
      (.replicate _ 0)
    let request : ControlEnvelope := ⟨0, some (.addUartDeviceRequest "/dev/ttyACM0")⟩
    let es : List Event := [.accepted 0 false, .accepted 1 false, .read 0 opening 0 request,
      .read 1 opening 0 request]
    (run (step env) start es).map (fun s => s.deviceManager.deviceFiles) =
        some ["/dev/ttyACM0", "/dev/ttyACM0"] ∧
      ¬ Always (step env) OnePerFile start es := by
  intro env opening request es
  have hrun : (run (step env) start es).map (fun s => s.deviceManager.deviceFiles) =
      some ["/dev/ttyACM0", "/dev/ttyACM0"] := by rfl
  refine ⟨hrun, fun h => ?_⟩
  obtain ⟨t, hfiles, hnodup⟩ := h.exists_last hrun
  rw [OnePerFile, hfiles] at hnodup
  exact absurd hnodup (by decide)

end ControlServer
