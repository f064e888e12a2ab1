import EspNowOnLinux.Messages.Packets

/-!
# The announcement of a device

`start_device` and its field-by-field codec `buffer_utils<start_device>`. The codec is the
composition of the codecs of the fields, so a message is written as its `toBytes` over the front of
a span (`write_of_le`) and read back from there, whatever the output object held (`read_toBytes`).
Together with `exists_toBytes` this makes the codec a bijection (`codec_bijective`).
-/

open Bytes

namespace Messages

/-- `start_device::espnow_version`, an `enum class : uint8_t` that is read without a check. -/
abbrev EspnowVersion := UInt8

namespace EspnowVersion

def v1 : EspnowVersion := 1

def v2 : EspnowVersion := 2

end EspnowVersion

/-- `start_device::firmware_version`. -/
structure FirmwareVersion where
  major : UInt8
  minor : UInt8
  patch : UInt8
  deriving DecidableEq

namespace FirmwareVersion

/-- `buffer_utils<start_device::firmware_version>::read`. -/
def read (buffer : List UInt8) (value : FirmwareVersion) :
    Option (List UInt8 × FirmwareVersion) :=
  if 3 ≤ buffer.length then do
    let (buffer, major) ← BufferUtils.readUInt8 buffer value.major
    let (buffer, minor) ← BufferUtils.readUInt8 buffer value.minor
    let (buffer, patch) ← BufferUtils.readUInt8 buffer value.patch
    some (buffer, ⟨major, minor, patch⟩)
  else none

/-- `buffer_utils<start_device::firmware_version>::write`. -/
def write (buffer : List UInt8) (value : FirmwareVersion) : Option (List UInt8 × List UInt8) :=
  if 3 ≤ buffer.length then do
    let (major, buffer) ← BufferUtils.writeUInt8 buffer value.major
    let (minor, buffer) ← BufferUtils.writeUInt8 buffer value.minor
    let (patch, buffer) ← BufferUtils.writeUInt8 buffer value.patch
    some (major ++ minor ++ patch, buffer)
  else none

/-- The bytes of a version. -/
def toBytes (value : FirmwareVersion) : List UInt8 := [value.major, value.minor, value.patch]

/-- A version is read back, whatever the variable held. -/
theorem read_toBytes (value prior : FirmwareVersion) (rest : List UInt8) :
    read (value.toBytes ++ rest) prior = some (rest, value) := by
  simp [read, toBytes]

/-- A version is written over the first three bytes. -/
theorem write_of_le (value : FirmwareVersion) {buffer : List UInt8} (h : 3 ≤ buffer.length) :
    write buffer value = some (value.toBytes, buffer.drop 3) := by
  simp (disch := first | omega | (simp only [List.length_drop]; omega)) only [write, if_pos h,
    BufferUtils.writeUInt8_of_le, List.drop_drop, Option.bind_eq_bind, Option.bind_some]
  rfl

end FirmwareVersion

/-- `"espnowonlinux"`. -/
def deviceHeader : List UInt8 := [101, 115, 112, 110, 111, 119, 111, 110, 108, 105, 110, 117, 120]

theorem length_deviceHeader : deviceHeader.length = 13 := rfl

/-- `start_device`, with the values that its members have unless they are given others. -/
structure StartDevice where
  id : MessageId := MessageId.startDevice
  header : List.Vector UInt8 13 := ⟨deviceHeader, length_deviceHeader⟩
  /-- The name, padded with NUL; a name of ten characters has none. -/
  deviceName : List.Vector UInt8 10 := .replicate 10 0
  version : EspnowVersion := EspnowVersion.v1
  fwVersion : FirmwareVersion := ⟨0, 0, 0⟩
  macAddress : MacAddress := .replicate 6 0
  deriving DecidableEq

namespace StartDevice

/-- `start_device::SIZE`. -/
def size : ℕ := 1 + 13 + 10 + 1 + 3 + 6

/-- `buffer_utils<start_device>::read`. -/
def read (buffer : List UInt8) (value : StartDevice) : Option (List UInt8 × StartDevice) :=
  if size ≤ buffer.length then do
    let (buffer, id) ← BufferUtils.readUInt8 buffer value.id
    let (buffer, header) ← BufferUtils.readArray 13 buffer value.header
    let (buffer, deviceName) ← BufferUtils.readArray 10 buffer value.deviceName
    let (buffer, version) ← BufferUtils.readUInt8 buffer value.version
    let (buffer, fwVersion) ← FirmwareVersion.read buffer value.fwVersion
    let (buffer, macAddress) ← BufferUtils.readArray 6 buffer value.macAddress
    some (buffer, { id, header, deviceName, version, fwVersion, macAddress })
  else none

/-- `buffer_utils<start_device>::write`. -/
def write (buffer : List UInt8) (value : StartDevice) : Option (List UInt8 × List UInt8) :=
  if size ≤ buffer.length then do
    let (id, buffer) ← BufferUtils.writeUInt8 buffer value.id
    let (header, buffer) ← BufferUtils.writeArray 13 buffer value.header
    let (deviceName, buffer) ← BufferUtils.writeArray 10 buffer value.deviceName
    let (version, buffer) ← BufferUtils.writeUInt8 buffer value.version
    let (fwVersion, buffer) ← FirmwareVersion.write buffer value.fwVersion
    let (macAddress, buffer) ← BufferUtils.writeArray 6 buffer value.macAddress
    some (id ++ header ++ deviceName ++ version ++ fwVersion ++ macAddress, buffer)
  else none

/-- The bytes of a message. -/
def toBytes (value : StartDevice) : List UInt8 :=
  [value.id] ++ (value.header.toList ++ (value.deviceName.toList ++ ([value.version] ++
    (value.fwVersion.toBytes ++ value.macAddress.toList))))

@[simp]
theorem length_toBytes (value : StartDevice) : value.toBytes.length = size := by
  simp [toBytes, FirmwareVersion.toBytes, size]

/-- Any bytes of the right number are those of a message. -/
theorem exists_toBytes {bytes : List UInt8} (h : bytes.length = size) :
    ∃ value : StartDevice, value.toBytes = bytes := by
  have hlen : bytes.length = 34 := h
  match bytes, hlen with
  | id :: tail, hlen =>
    rw [List.length_cons] at hlen
    have hten : (tail.drop 23).length = 10 := by rw [List.length_drop]; omega
    obtain ⟨version, major, minor, patch, mac, hrest⟩ : ∃ version major minor patch mac,
        tail.drop 23 = version :: major :: minor :: patch :: mac := by
      match tail.drop 23, hten with
      | version :: major :: minor :: patch :: mac, _ =>
          exact ⟨version, major, minor, patch, mac, rfl⟩
    have hmac : mac.length = 6 := by
      rw [hrest] at hten
      simpa using hten
    refine ⟨{
      id, version, fwVersion := ⟨major, minor, patch⟩
      header := ⟨tail.take 13, by rw [List.length_take]; omega⟩
      deviceName := ⟨(tail.drop 13).take 10, by rw [List.length_take, List.length_drop]; omega⟩
      macAddress := ⟨mac, hmac⟩ }, ?_⟩
    show id :: (tail.take 13 ++ ((tail.drop 13).take 10 ++
      version :: major :: minor :: patch :: mac)) = id :: tail
    rw [← hrest, ← List.drop_drop (i := 10) (j := 13), List.take_append_drop,
      List.take_append_drop]

/-- A message is read back, whatever the output object held and whatever follows the message. -/
theorem read_toBytes (value prior : StartDevice) (rest : List UInt8) :
    read (value.toBytes ++ rest) prior = some (rest, value) := by
  have hsize : size ≤ (value.toBytes ++ rest).length := by
    rw [List.length_append, length_toBytes]; omega
  rw [read, if_pos hsize, toBytes]
  simp only [List.append_assoc, List.cons_append, List.nil_append, BufferUtils.readUInt8_cons,
    BufferUtils.readArray_append, FirmwareVersion.read_toBytes, Option.bind_eq_bind,
    Option.bind_some]

/-- A message is written over the front of a span that has room for it. -/
theorem write_of_le (value : StartDevice) {buffer : List UInt8} (h : size ≤ buffer.length) :
    write buffer value = some (value.toBytes, buffer.drop size) := by
  have hlen : 34 ≤ buffer.length := h
  rw [write, if_pos h, toBytes]
  simp (disch := first | omega | (simp only [List.length_drop]; omega)) only
    [BufferUtils.writeUInt8_of_le, BufferUtils.writeArray_of_le, FirmwareVersion.write_of_le,
      List.drop_drop, Option.bind_eq_bind, Option.bind_some, List.append_assoc]
  rfl

/-- What was read is what the bytes at the front of the buffer are written from. -/
theorem read_of_le (prior : StartDevice) {buffer : List UInt8} (h : size ≤ buffer.length) :
    ∃ value : StartDevice, read buffer prior = some (buffer.drop size, value) ∧
      value.toBytes = buffer.take size := by
  have hlen : (buffer.take size).length = size := by rw [List.length_take]; omega
  obtain ⟨value, hvalue⟩ := exists_toBytes hlen
  refine ⟨value, ?_, hvalue⟩
  have hread := read_toBytes value prior (buffer.drop size)
  rwa [hvalue, List.take_append_drop] at hread

/-- The codec is a bijection between messages and 34 bytes. Writing a message changes the first 34
bytes of the buffer and nothing behind them, and reading the buffer restores the message, whatever
the output object held; the two return the same remaining span. Writing what was read from a buffer
reproduces its first 34 bytes. -/
theorem codec_bijective :
    (∀ (value prior : StartDevice) (buffer : List UInt8), size ≤ buffer.length →
      ∃ bytes : List UInt8, bytes.length = size ∧
        write buffer value = some (bytes, buffer.drop size) ∧
        read (bytes ++ buffer.drop size) prior = some (buffer.drop size, value)) ∧
    ∀ (prior : StartDevice) (buffer buffer' : List UInt8), size ≤ buffer.length →
      size ≤ buffer'.length → ∃ value : StartDevice,
        read buffer prior = some (buffer.drop size, value) ∧
        write buffer' value = some (buffer.take size, buffer'.drop size) := by
  constructor
  · intro value prior buffer h
    exact ⟨value.toBytes, length_toBytes value, write_of_le value h,
      read_toBytes value prior (buffer.drop size)⟩
  · intro prior buffer buffer' h h'
    obtain ⟨value, hread, hbytes⟩ := read_of_le prior h
    refine ⟨value, hread, ?_⟩
    rw [write_of_le value h', hbytes]

/-- The message of a device with a name of ten characters, written to the front of 40 bytes. -/
theorem codec_bijective_message :
    let value : StartDevice :=
      { deviceName := .replicate 10 65, version := .v2, fwVersion := ⟨0, 1, 0⟩ }
    ∃ bytes : List UInt8, bytes.length = size ∧
      write (.replicate 40 255) value = some (bytes, .replicate 6 255) ∧
      read (bytes ++ .replicate 6 255) {} = some (.replicate 6 255, value) :=
  codec_bijective.1 _ {} (.replicate 40 255) (by decide)

end StartDevice

end Messages
