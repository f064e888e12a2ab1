import EspNowOnLinux.Control.ControlServer
import Mathlib.Algebra.Group.Nat.Defs

/-!
# Device ids

The ids that `device_manager` gives to its devices, `"espnow"` and the number of devices before it,
and what `get_device_by_id` makes of them. Statistics are asked for by these ids, and the TAP
interfaces are named after them.

## Main results

* `deviceId_injective`: different numbers make different ids;
* `DeviceManager.numbered_foldl`: after any calls of `add_uart_device` the devices are numbered from
  `0` in the order in which they were added;
* `DeviceManager.deviceIds`: therefore ids are unique and looking a device up by its id finds it,
  and no later call changes this;
* `ControlServer.numbered_always`: so it is for the daemon, whatever its clients and devices do.
-/

open ControlMessages StateMachine

/-- `"espnow" + std::to_string(espnow_idx)`. -/
def deviceId (k : ℕ) : String := "espnow" ++ toString k

theorem deviceId_injective : Function.Injective deviceId := by
  intro i j h
  have hchars := congrArg String.toList h
  simp only [deviceId, String.toList_append] at hchars
  have hdigits : Nat.toDigits 10 i = Nat.toDigits 10 j := by
    simpa only [Nat.toString_eq_repr, Nat.toList_repr] using List.append_cancel_left hchars
  -- the digits can be read back
  calc i = Nat.ofDigitChars 10 (Nat.toDigits 10 i) 0 :=
        (Nat.ofDigitChars_toDigits (by decide) (by decide)).symm
    _ = Nat.ofDigitChars 10 (Nat.toDigits 10 j) 0 := by rw [hdigits]
    _ = j := Nat.ofDigitChars_toDigits (by decide) (by decide)

namespace DeviceManager

/-- The ids of the managed devices. -/
def espnowIds (m : DeviceManager) : List String :=
  m.espnowDevices.map fun d => d.device.espnowId

/-- The devices are numbered from `0` in their order. -/
def Numbered (m : DeviceManager) : Prop :=
  m.espnowIds = (List.range m.espnowDevices.length).map deviceId

variable {m m' : DeviceManager}

theorem numbered_new : new.Numbered := rfl

/-! ## Looking up a numbered device -/

/-- The id of the device at an index. -/
theorem Numbered.espnowId_eq (h : m.Numbered) {k : ℕ} {d : ManagedDevice}
    (hd : m.espnowDevices[k]? = some d) : d.device.espnowId = deviceId k := by
  obtain ⟨hlt, -⟩ := List.getElem?_eq_some_iff.mp hd
  have hid : m.espnowIds[k]? = some d.device.espnowId := by
    rw [espnowIds, List.getElem?_map, hd, Option.map_some]
  rw [h, List.getElem?_map, List.getElem?_range hlt, Option.map_some] at hid
  exact (Option.some.inj hid).symm

theorem Numbered.nodup (h : m.Numbered) : m.espnowIds.Nodup := by
  rw [h]
  exact List.nodup_range.map deviceId_injective

/-- No device is found by the id of none. -/
theorem getDeviceById_eq_none {id : String} (h : id ∉ m.espnowIds) : m.getDeviceById id = none := by
  rw [getDeviceById, List.find?_eq_none]
  intro d hd hid
  exact h (List.mem_map.mpr ⟨d, hd, of_decide_eq_true hid⟩)

/-- A device is found by its id. -/
theorem Numbered.getDeviceById (h : m.Numbered) {k : ℕ} {d : ManagedDevice}
    (hd : m.espnowDevices[k]? = some d) : m.getDeviceById d.device.espnowId = some d := by
  obtain ⟨hlt, rfl⟩ := List.getElem?_eq_some_iff.mp hd
  rw [DeviceManager.getDeviceById, List.find?_eq_some_iff_getElem]
  refine ⟨decide_eq_true rfl, k, hlt, rfl, fun j hj => ?_⟩
  -- the devices in front of it have smaller numbers
  have hne : m.espnowDevices[j].device.espnowId ≠ m.espnowDevices[k].device.espnowId := by
    rw [h.espnowId_eq (List.getElem?_eq_getElem (hj.trans hlt)), h.espnowId_eq hd]
    exact fun heq => hj.ne (deviceId_injective heq)
  simpa using hne

/-! ## Adding devices -/

/-- A call of `add_uart_device`, with what the system makes of it. -/
structure AddCall where
  opening : Opening
  deviceFile : String

/-- The manager after a call. A call that throws has changed nothing. -/
def afterAdd (m : DeviceManager) (call : AddCall) : DeviceManager :=
  ((m.addUartDevice call.opening call.deviceFile).map Prod.fst).getD m

/-- A call adds a device with the next number at the end, or changes nothing. -/
theorem afterAdd_cases (m : DeviceManager) (call : AddCall) :
    m.afterAdd call = m ∨
      ∃ d, (m.afterAdd call).espnowDevices = m.espnowDevices ++ [d] ∧
        d.device.espnowId = deviceId (UInt32.ofNat m.espnowDevices.length).toNat := by
  obtain ⟨opening, deviceFile⟩ := call
  cases opening with
  | serialPortError code => exact Or.inl rfl
  | tunError => exact Or.inl rfl
  | opened contents deviceDetails tunFdBuffer => exact Or.inr ⟨_, rfl, rfl⟩

/-- Devices are only ever added at the end. -/
theorem prefix_afterAdd (m : DeviceManager) (call : AddCall) :
    m.espnowDevices <+: (m.afterAdd call).espnowDevices := by
  rcases m.afterAdd_cases call with hsame | ⟨d, hadd, -⟩
  · rw [hsame]
  · rw [hadd]
    exact List.prefix_append _ _

/-- As long as the index fits in 32 bits, a call keeps the numbering. -/
theorem Numbered.afterAdd (h : m.Numbered) (call : AddCall)
    (hle : (m.afterAdd call).espnowDevices.length ≤ 2 ^ 32) : (m.afterAdd call).Numbered := by
  rcases m.afterAdd_cases call with hsame | ⟨d, hadd, hid⟩
  · rw [hsame]
    exact h
  · rw [hadd, List.length_append, List.length_singleton] at hle
    -- the cast of the index to `uint32_t` loses nothing
    have hindex : (UInt32.ofNat m.espnowDevices.length).toNat = m.espnowDevices.length :=
      UInt32.toNat_ofNat_of_lt' (by show _ < 2 ^ 32; omega)
    rw [hindex] at hid
    rw [Numbered, espnowIds, hadd, List.map_append, List.length_append, List.length_singleton,
      List.range_succ, List.map_append, List.map_singleton, List.map_singleton, hid]
    exact congrArg (· ++ [deviceId m.espnowDevices.length]) h

/-- Calls leave the devices that are there where they are. -/
theorem prefix_foldl (calls : List AddCall) (m : DeviceManager) :
    m.espnowDevices <+: (calls.foldl DeviceManager.afterAdd m).espnowDevices := by
  induction calls generalizing m with
  | nil => exact List.prefix_rfl
  | cons call calls ih => exact (m.prefix_afterAdd call).trans (ih _)

/-- After any calls the devices are numbered. -/
theorem numbered_foldl (calls : List AddCall) (h : m.Numbered)
    (hle : (calls.foldl DeviceManager.afterAdd m).espnowDevices.length ≤ 2 ^ 32) :
    (calls.foldl DeviceManager.afterAdd m).Numbered := by
  induction calls generalizing m with
  | nil => exact h
  | cons call calls ih =>
      -- the manager after this call has no more devices than at the end
      have hlength := (prefix_foldl calls (m.afterAdd call)).length_le
      exact ih (h.afterAdd call (hlength.trans hle)) hle

/-- For every sequence of calls, whichever of them fail, that leaves no more devices than a
`uint32_t` can number: the device at index `k` has the id `"espnow"` and `k`, ids are different, the
id of a device finds that device and any other string finds none, and whatever is called later, the
device stays at its index. -/
theorem deviceIds (calls later : List AddCall)
    (h : (calls.foldl afterAdd new).espnowDevices.length ≤ 2 ^ 32) :
    let m := calls.foldl afterAdd new
    (∀ (k : ℕ) d, m.espnowDevices[k]? = some d →
      d.device.espnowId = "espnow" ++ toString k ∧
      m.getDeviceById d.device.espnowId = some d ∧
      (later.foldl afterAdd m).espnowDevices[k]? = some d) ∧
    m.espnowIds.Nodup ∧
    ∀ id, id ∉ m.espnowIds → m.getDeviceById id = none := by
  intro m
  have hnumbered : m.Numbered := numbered_foldl calls numbered_new h
  refine ⟨fun k d hd => ⟨hnumbered.espnowId_eq hd, hnumbered.getDeviceById hd, ?_⟩,
    hnumbered.nodup, fun id hid => getDeviceById_eq_none hid⟩
  -- later devices come behind it
  obtain ⟨hlt, -⟩ := List.getElem?_eq_some_iff.mp hd
  obtain ⟨added, hadded⟩ := prefix_foldl later m
  rw [← hadded, List.getElem?_append_left hlt, hd]

/-- Two devices are added, with a failure and an exception in between. -/
theorem deviceIds_two :
    let opening : Opening := .opened (.replicate _ 0) ⟨[], .replicate _ 0, .v1, ⟨0, 0, 0⟩⟩
      (.replicate _ 0)
    let calls : List AddCall := [⟨opening, "/dev/ttyACM0"⟩, ⟨.serialPortError 2, "/dev/ttyACM1"⟩,
      ⟨.tunError, "/dev/ttyACM2"⟩, ⟨opening, "/dev/ttyACM3"⟩]
    let m := calls.foldl afterAdd new
    m.espnowIds = [deviceId 0, deviceId 1] ∧ m.espnowIds.Nodup ∧
      m.getDeviceById (deviceId 2) = none := by
  intro opening calls m
  have hids : m.espnowIds = [deviceId 0, deviceId 1] := by rfl
  have hlength : m.espnowDevices.length = 2 := by rfl
  have hother : deviceId 2 ∉ m.espnowIds := by
    rw [hids, List.mem_pair]
    rintro (heq | heq)
    · exact absurd (deviceId_injective heq) (by decide)
    · exact absurd (deviceId_injective heq) (by decide)
  obtain ⟨-, hnodup, hnone⟩ := deviceIds calls [] (by rw [hlength]; decide)
  exact ⟨hids, hnodup, hnone _ hother⟩

end DeviceManager

/-! ## The daemon -/

namespace ControlServer

open DeviceManager

variable {env : HostEnv} {s t : ControlServer} {e : Event}

/-- An envelope is a call of `add_uart_device` or changes nothing. -/
theorem afterAdd_of_handleRead {m m' : DeviceManager} {opening : Opening} {uptime : UInt64}
    {envelope : ControlEnvelope} {response : Option ControlEnvelope}
    (h : ControlSession.handleRead m opening uptime envelope = some (m', response)) :
    m' = m ∨ ∃ call, m' = m.afterAdd call := by
  rcases ControlSession.handleRead_cases h with ⟨deviceFile, result, -, hadd⟩ | ⟨-, hsame⟩
  · refine Or.inr ⟨⟨opening, deviceFile⟩, ?_⟩
    rw [afterAdd, hadd]
    rfl
  · exact Or.inl hsame

/-- What happens to a device does not change its id. -/
theorem espnowIds_set {m : DeviceManager} {device : ℕ} {d : ManagedDevice} {d' : EspnowUartDevice}
    (hd : m.espnowDevices[device]? = some d) (hid : d'.espnowId = d.device.espnowId) :
    (⟨m.espnowDevices.set device { d with device := d' }⟩ : DeviceManager).espnowIds =
      m.espnowIds := by
  obtain ⟨hlt, -⟩ := List.getElem?_eq_some_iff.mp hd
  rw [espnowIds, List.map_set, espnowIds]
  apply List.ext_getElem?
  intro i
  by_cases heq : device = i
  · subst heq
    rw [List.getElem?_set_self (by rwa [List.length_map]), List.getElem?_map, hd, Option.map_some]
    exact congrArg some hid
  · rw [List.getElem?_set_ne heq]

/-- What a step does to the devices: one is added, or all of them keep their ids. -/
theorem espnowIds_step (h : step env s e = some t) :
    (∃ call, t.deviceManager = s.deviceManager.afterAdd call) ∨
      t.deviceManager.espnowIds = s.deviceManager.espnowIds := by
  rcases step_cases h with
    ⟨session, opening, uptime, envelope, c, m, response, rfl, -, hread, rfl⟩ |
    ⟨device, event, -, -, rfl, -, -⟩ | ⟨-, hmanager, -⟩
  · rcases afterAdd_of_handleRead hread with hsame | hadd
    · exact Or.inr (congrArg espnowIds hsame)
    · exact Or.inl hadd
  · obtain ⟨d, hd, h⟩ := Option.bind_eq_some_iff.mp h
    obtain ⟨d', hstep, rfl⟩ := Option.map_eq_some_iff.mp h
    exact Or.inr (espnowIds_set hd (EspnowUartDevice.announces_step hstep).espnowId_eq)
  · exact Or.inr (congrArg espnowIds hmanager)

/-- In every run of the daemon, as long as its devices can be numbered they are. -/
theorem numbered_always (env : HostEnv) (es : List Event) :
    Always (step env) (fun s => s.deviceManager.espnowDevices.length ≤ 2 ^ 32 →
      s.deviceManager.Numbered) start es := by
  refine always_of_invariant (fun s e t hs ht hle => ?_) (fun _ h => h) (fun _ => numbered_new) es
  rcases espnowIds_step ht with ⟨call, hadd⟩ | hids
  · rw [hadd] at hle ⊢
    exact (hs ((prefix_afterAdd _ call).length_le.trans hle)).afterAdd call hle
  · have hlength : t.deviceManager.espnowDevices.length = s.deviceManager.espnowDevices.length := by
      simpa only [espnowIds, List.length_map] using congrArg List.length hids
    rw [hlength] at hle
    rw [Numbered, hids, hlength]
    exact hs hle

end ControlServer
