import EspNowOnLinux.Daemon.EspnowUartDevice

/-!
# The name that a device announces

What `handle_serial_packet` keeps of the first `START_DEVICE`. The name is an array of ten
characters without a guaranteed terminator, and it is assigned to a `std::string` as a C string.

## Main result

* `recordsFaithfully_iff`: a message is recorded faithfully iff its name has a NUL or the version
  behind it is `0`. A name of ten characters is recorded with the bytes that lie behind it.
-/

open Bytes Messages

namespace EspnowUartDevice

/-- The message with this name, version and address; the id and the header are those of the type. -/
def announcement (deviceName : List.Vector UInt8 10) (version : EspnowVersion)
    (fwVersion : FirmwareVersion) (macAddress : MacAddress) : StartDevice :=
  { deviceName, version, fwVersion, macAddress }

/-- The details are those of the message: the name up to the first NUL, or all of it, and the other
fields as they are. -/
structure Recorded (details : DeviceDetails) (message : StartDevice) : Prop where
  deviceName_eq : details.deviceName = cString message.deviceName.toList
  macAddress_eq : details.macAddress = message.macAddress
  espnowVersion_eq : details.espnowVersion = message.version
  firmwareVersion_eq : details.firmwareVersion = message.fwVersion

/-- The message is written to the front of a buffer, and the device that is given the buffer records
it. -/
def RecordsFaithfully (env : HostEnv) (d : EspnowUartDevice) (buffer : List UInt8)
    (message : StartDevice) : Prop :=
  ∃ (bytes rest : List UInt8) (r : Framing.Reply EspnowUartDevice UInt8),
    StartDevice.write buffer message = some (bytes, rest) ∧
      handleSerialPacket env d (bytes ++ rest) = some r ∧ Recorded r.state.deviceDetails message

/-- The C string that starts with the name is the name iff it ends with it or before. -/
theorem cString_name_iff (name : List UInt8) (b : UInt8) (rest : List UInt8) :
    cString (name ++ b :: rest) = cString name ↔ 0 ∈ name ∨ b = 0 := by
  by_cases hname : 0 ∈ name
  · rw [cString_append_of_mem hname]
    exact iff_of_true rfl (Or.inl hname)
  · rw [cString_append_of_notMem hname, cString_of_notMem hname, List.append_right_eq_self,
      or_iff_right hname]
    by_cases hb : b = 0
    · subst hb
      exact iff_of_true rfl rfl
    · have hone : cString ([b] ++ rest) = [b] ++ cString rest :=
        cString_append_of_notMem (fun hmem => hb (List.mem_singleton.mp hmem).symm) rest
      rw [← List.singleton_append, hone]
      exact iff_of_false (List.cons_ne_nil _ _) hb

/-- The details that are kept are faithful iff the name is. -/
theorem recorded_detailsOf_iff (env : HostEnv) (espnowId : String) (message : StartDevice) :
    Recorded (detailsOf env espnowId message) message ↔
      0 ∈ message.deviceName.toList ∨ message.version = 0 := by
  have hname : (detailsOf env espnowId message).deviceName = cString message.deviceName.toList ↔
      0 ∈ message.deviceName.toList ∨ message.version = 0 := by
    rw [detailsOf]
    simp only [List.append_assoc, List.singleton_append]
    exact cString_name_iff _ _ _
  exact ⟨fun h => hname.mp h.deviceName_eq, fun h => ⟨hname.mpr h, rfl, rfl, rfl⟩⟩

/-- The first message that is handled is the one that is recorded. -/
theorem recordsFaithfully_detailsOf (env : HostEnv) {d : EspnowUartDevice} {buffer : List UInt8}
    (hstart : d.requestedStart = false) (hbuffer : StartDevice.size ≤ buffer.length)
    {message : StartDevice} (hid : message.id = MessageId.startDevice)
    (hheader : message.header.toList = deviceHeader) :
    RecordsFaithfully env d buffer message ↔
      Recorded (detailsOf env d.espnowId message) message := by
  have hwrite := StartDevice.write_of_le message hbuffer
  have hhandled := handleSerialPacket_startDevice env d (buffer.drop StartDevice.size) hid
  have hdetails : (receiveStartDevice env d message).deviceDetails =
      detailsOf env d.espnowId message := by
    rw [receiveStartDevice, if_pos ⟨hheader, hstart⟩]
  constructor
  · rintro ⟨bytes, rest, r, hbytes, hr, hrecorded⟩
    rw [hwrite, Option.some.injEq, Prod.mk.injEq] at hbytes
    obtain ⟨rfl, rfl⟩ := hbytes
    obtain rfl := Option.some.inj (hhandled.symm.trans hr)
    exact hdetails ▸ hrecorded
  · intro hrecorded
    exact ⟨_, _, _, hwrite, hhandled, hdetails.symm ▸ hrecorded⟩

/-- On a device that has not started, a message that is written by `buffer_utils<start_device>` and
handled is recorded faithfully iff its name has a NUL or its version, the byte behind the name, is
`0`. So a name is recorded faithfully whatever the other fields are iff it has a NUL. -/
theorem recordsFaithfully_iff (env : HostEnv) {d : EspnowUartDevice} {buffer : List UInt8}
    (hstart : d.requestedStart = false) (hbuffer : StartDevice.size ≤ buffer.length)
    (deviceName : List.Vector UInt8 10) :
    (∀ version fwVersion macAddress,
      RecordsFaithfully env d buffer (announcement deviceName version fwVersion macAddress) ↔
        0 ∈ deviceName.toList ∨ version = 0) ∧
    ((∀ version fwVersion macAddress,
      RecordsFaithfully env d buffer (announcement deviceName version fwVersion macAddress)) ↔
        0 ∈ deviceName.toList) := by
  have hiff : ∀ version fwVersion macAddress,
      RecordsFaithfully env d buffer (announcement deviceName version fwVersion macAddress) ↔
        0 ∈ deviceName.toList ∨ version = 0 := by
    intro version fwVersion macAddress
    rw [recordsFaithfully_detailsOf env hstart hbuffer rfl rfl]
    exact recorded_detailsOf_iff env _ _
  refine ⟨hiff, fun hall => ?_, fun hname version fwVersion macAddress => ?_⟩
  · have hone := (hiff 1 ⟨0, 0, 0⟩ (.replicate 6 0)).mp (hall _ _ _)
    exact hone.resolve_right (by decide)
  · exact (hiff version fwVersion macAddress).mpr (Or.inl hname)

/-- A name that is filled up with NUL. -/
theorem recordsFaithfully_iff_esp :
    let d : EspnowUartDevice := .new (.new (.replicate _ 0)) "espnow0"
      ⟨[], .replicate 6 0, 0, ⟨0, 0, 0⟩⟩ (.replicate _ 0)
    RecordsFaithfully ⟨.little, fun _ => []⟩ d (.replicate 64 0)
      (announcement ⟨[69, 83, 80, 51, 50, 45, 67, 51, 0, 0], rfl⟩ 2 ⟨0, 1, 0⟩
        (.replicate 6 7)) := by
  intro d
  exact ((recordsFaithfully_iff ⟨.little, fun _ => []⟩ (d := d) rfl (by decide) _).1 _ _ _).mpr
    (Or.inl (by decide))

/-- A name of ten characters is recorded with the version behind it. -/
theorem recordsFaithfully_fails :
    let d : EspnowUartDevice := .new (.new (.replicate _ 0)) "espnow0"
      ⟨[], .replicate 6 0, 0, ⟨0, 0, 0⟩⟩ (.replicate _ 0)
    let message := announcement (.replicate 10 65) 2 ⟨0, 1, 0⟩ (.replicate 6 7)
    (detailsOf ⟨.little, fun _ => []⟩ "espnow0" message).deviceName = List.replicate 10 65 ++ [2] ∧
      ¬ RecordsFaithfully ⟨.little, fun _ => []⟩ d (.replicate 64 0) message := by
  intro d message
  refine ⟨by decide, fun h => ?_⟩
  rw [recordsFaithfully_detailsOf _ rfl (by decide) rfl rfl, recorded_detailsOf_iff] at h
  exact absurd h (by decide)

end EspnowUartDevice
