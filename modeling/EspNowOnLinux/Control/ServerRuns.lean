import EspNowOnLinux.Control.DeviceIds
import EspNowOnLinux.Daemon.DeviceRuns

/-!
# What the daemon tells about its devices

The devices of a running daemon, each with the events that have happened to it and to no other, and
what the daemon's answers say about them.

## Main results

* `ownRuns_run`: in every run of the daemon each device is as its own events alone have made it;
* `statistics_told`: a request for statistics is answered, on the session that asked, with the
  counts of the device's own history;
* `devices_told`: a request for the devices is answered, on the session that asked, with all of
  them, in the order in which they were added, each with what it has announced first.
-/

open ControlMessages Framing Messages StateMachine

namespace ControlServer

variable {env : HostEnv} {s t : ControlServer} {e : Event} {es : List Event}

/-! ## Each device alone -/

/-- What has happened to the device at an index. -/
def deviceEvents (k : ℕ) (es : List Event) : List EspnowUartDevice.Event :=
  es.filterMap fun
    | .device device event => if device = k then some event else none
    | _ => none

theorem deviceEvents_concat (k : ℕ) (es : List Event) (e : Event) :
    deviceEvents k (es ++ [e]) = deviceEvents k es ++ deviceEvents k [e] :=
  List.filterMap_append

theorem deviceEvents_device (k : ℕ) (event : EspnowUartDevice.Event) :
    deviceEvents k [.device k event] = [event] :=
  List.filterMap_cons_some (if_pos rfl)

/-- Any other event does not concern the device. -/
theorem deviceEvents_of_ne {k : ℕ} (h : ∀ event, e ≠ .device k event) :
    deviceEvents k [e] = [] := by
  refine List.filterMap_cons_none ?_
  cases e with
  | device device event =>
      have hne : device ≠ k := fun heq => h event (heq ▸ rfl)
      exact if_neg hne
  | accepted session ec => rfl
  | read session opening uptime envelope => rfl
  | readFailed session => rfl
  | written session => rfl

/-- The device that is opened as the one at index `k` has become `d` by these events. -/
def OwnRun (env : HostEnv) (k : ℕ) (events : List EspnowUartDevice.Event) (d : EspnowUartDevice) :
    Prop :=
  ∃ contents details tunFdBuffer, run (EspnowUartDevice.step env)
    (.new (.new contents) (deviceId (UInt32.ofNat k).toNat) details tunFdBuffer) events = some d

/-- Each device has run on its own, and nothing has happened to devices that are not there. -/
structure OwnRuns (env : HostEnv) (es : List Event) (s : ControlServer) : Prop where
  ownRun : ∀ k d, s.deviceManager.espnowDevices[k]? = some d →
    OwnRun env k (deviceEvents k es) d.device
  nil_of_le : ∀ k, s.deviceManager.espnowDevices.length ≤ k → deviceEvents k es = []

/-- What a call of `add_uart_device` leads to: the manager stays as it is, or a device that has just
been opened is added at the end. -/
theorem addUartDevice_new {m m' : DeviceManager} {opening : Opening} {deviceFile : String}
    {result : Except AddingDeviceErrorCode ManagedDevice}
    (h : m.addUartDevice opening deviceFile = some (m', result)) :
    m' = m ∨ ∃ contents details tunFdBuffer, m'.espnowDevices = m.espnowDevices ++
      [⟨.new (.new contents) (deviceId (UInt32.ofNat m.espnowDevices.length).toNat) details
        tunFdBuffer, deviceFile⟩] := by
  obtain ⟨outcome, hopen, hresult⟩ := Option.map_eq_some_iff.mp h
  cases opening with
  | serialPortError code =>
      cases hopen
      cases hresult
      exact Or.inl rfl
  | tunError => cases hopen
  | opened contents deviceDetails tunFdBuffer =>
      cases hopen
      cases hresult
      exact Or.inr ⟨contents, deviceDetails, tunFdBuffer, rfl⟩

/-- An event that leaves the devices as they are. -/
theorem OwnRuns.congr (h : OwnRuns env es s) (he : ∀ k event, e ≠ .device k event)
    (hdevices : t.deviceManager = s.deviceManager) : OwnRuns env (es ++ [e]) t := by
  have hevents (k : ℕ) : deviceEvents k (es ++ [e]) = deviceEvents k es := by
    rw [deviceEvents_concat, deviceEvents_of_ne (he k), List.append_nil]
  constructor
  · intro k d hd
    rw [hdevices] at hd
    exact hevents k ▸ h.ownRun k d hd
  · intro k hk
    rw [hdevices] at hk
    exact (hevents k).trans (h.nil_of_le k hk)

/-- A device is added. -/
theorem OwnRuns.added (h : OwnRuns env es s) (he : ∀ k event, e ≠ .device k event)
    {contents : List.Vector UInt8 (1024 * 4)} {details : DeviceDetails}
    {tunFdBuffer : List.Vector UInt8 512} {deviceFile : String}
    (hadd : t.deviceManager.espnowDevices = s.deviceManager.espnowDevices ++
      [⟨.new (.new contents) (deviceId (UInt32.ofNat s.deviceManager.espnowDevices.length).toNat)
        details tunFdBuffer, deviceFile⟩]) : OwnRuns env (es ++ [e]) t := by
  have hevents (k : ℕ) : deviceEvents k (es ++ [e]) = deviceEvents k es := by
    rw [deviceEvents_concat, deviceEvents_of_ne (he k), List.append_nil]
  constructor
  · intro k d hd
    rw [hevents]
    rw [hadd] at hd
    rcases Nat.lt_or_ge k s.deviceManager.espnowDevices.length with hlt | hge
    · rw [List.getElem?_append_left hlt] at hd
      exact h.ownRun k d hd
    -- nothing has happened to the new one
    · rw [List.getElem?_append_right hge, List.getElem?_singleton] at hd
      split at hd
      · next hzero =>
        obtain rfl : k = s.deviceManager.espnowDevices.length := by omega
        rw [← Option.some.inj hd, h.nil_of_le _ (Nat.le_refl _)]
        exact ⟨contents, details, tunFdBuffer, rfl⟩
      · cases hd
  · intro k hk
    rw [hadd, List.length_append] at hk
    exact (hevents k).trans (h.nil_of_le k (Nat.le_of_add_right_le hk))

/-- Something happens to a device. -/
theorem OwnRuns.device (h : OwnRuns env es s) {device : ℕ} {event : EspnowUartDevice.Event}
    {d : ManagedDevice} {d' : EspnowUartDevice}
    (hd : s.deviceManager.espnowDevices[device]? = some d)
    (hd' : d.device.step env event = some d')
    (hdevices : t.deviceManager.espnowDevices =
      s.deviceManager.espnowDevices.set device { d with device := d' }) :
    OwnRuns env (es ++ [.device device event]) t := by
  obtain ⟨hlt, -⟩ := List.getElem?_eq_some_iff.mp hd
  constructor
  · intro k dk hdk
    rw [hdevices] at hdk
    by_cases hk : device = k
    · subst hk
      rw [List.getElem?_set_self hlt] at hdk
      -- one event more than before
      obtain ⟨contents, details, tunFdBuffer, hrun⟩ := h.ownRun device d hd
      refine ⟨contents, details, tunFdBuffer, ?_⟩
      rw [deviceEvents_concat, deviceEvents_device, run_append, hrun, Option.bind_some,
        run_cons, hd', ← Option.some.inj hdk]
      rfl
    -- the others are not concerned
    · rw [List.getElem?_set_ne hk] at hdk
      rw [deviceEvents_concat, deviceEvents_of_ne fun event' heq => hk (Event.device.inj heq).1,
        List.append_nil]
      exact h.ownRun k dk hdk
  · intro k hk
    rw [hdevices, List.length_set] at hk
    rw [deviceEvents_concat, h.nil_of_le k hk,
      deviceEvents_of_ne fun event' heq => by
        obtain ⟨rfl, -⟩ := Event.device.inj heq
        omega]
    rfl

/-- Every event keeps the devices on their own. -/
theorem ownRuns_step (es : List Event) (s : ControlServer) (e : Event) (t : ControlServer)
    (h : OwnRuns env es s) (ht : step env s e = some t) : OwnRuns env (es ++ [e]) t := by
  by_cases hdevice : ∃ device event, e = .device device event
  · obtain ⟨device, event, rfl⟩ := hdevice
    obtain ⟨d, hd, ht⟩ := Option.bind_eq_some_iff.mp ht
    obtain ⟨d', hd', rfl⟩ := Option.map_eq_some_iff.mp ht
    exact h.device hd hd' rfl
  · have he : ∀ k event, e ≠ .device k event := fun k event heq => hdevice ⟨k, event, heq⟩
    -- only a request to add a device concerns the devices
    rcases step_cases ht with
      ⟨session, opening, uptime, envelope, c, m, response, rfl, -, hread, rfl⟩ |
      ⟨device, event, -, -, rfl, -, -⟩ | ⟨-, hmanager, -⟩
    · rcases ControlSession.handleRead_cases hread with ⟨deviceFile, result, -, hadd⟩ | ⟨-, rfl⟩
      · rcases addUartDevice_new hadd with rfl | ⟨contents, details, tunFdBuffer, hadded⟩
        · exact h.congr he rfl
        · exact h.added he hadded
      · exact h.congr he rfl
    · exact absurd rfl (he device event)
    · exact h.congr he hmanager

/-- In every run of the daemon, whatever its clients do and in whatever order things happen to its
devices, each device is as its own events alone have made it. -/
theorem ownRuns_run (hrun : run (step env) start es = some s) : OwnRuns env es s := by
  have hstart : OwnRuns env [] start :=
    ⟨fun k d hd => absurd hd (by simp [start, DeviceManager.new]), fun _ _ => rfl⟩
  exact run_history ownRuns_step hstart hrun

/-! ## On which session a request is answered -/

/-- A read is outstanding on a session only while a client is connected to it. -/
def ReadsConnected (s : ControlServer) : Prop :=
  ∀ c ∈ s.sessions, c.reading = true → c.connected = true

theorem ReadsConnected.set (h : s.ReadsConnected) {c : ControlSession}
    (hc : c.reading = true → c.connected = true) (session : ℕ) :
    ∀ c' ∈ s.sessions.set session c, c'.reading = true → c'.connected = true := by
  intro c' hc'
  rcases List.mem_or_eq_of_mem_set hc' with hmem | rfl
  · exact h c' hmem
  · exact hc

open EspnowUartDevice in
/-- The accounts of a device that has run on its own. -/
theorem OwnRun.accounts {k : ℕ} {events : List EspnowUartDevice.Event} {d : EspnowUartDevice}
    (h : OwnRun env k events d) :
    ∃ initial taken, Receives messageLength? Unknown [] (serialReads events) taken
        d.serialPort.buffer.getData ∧
      Accounts env initial (tunReads events) ((Taken.messages taken).filterMap decode?) d := by
  obtain ⟨contents, details, tunFdBuffer, hrun⟩ := h
  obtain ⟨taken, htaken, haccounts⟩ :=
    (history_run env contents _ details tunFdBuffer hrun).accounts
  exact ⟨_, taken, htaken, haccounts⟩

/-- In a run in which the devices can be numbered they are. -/
theorem numbered_run (hrun : run (step env) start es = some s)
    (hle : s.deviceManager.espnowDevices.length ≤ 2 ^ 32) : s.deviceManager.Numbered :=
  (numbered_always env es).last hrun hle

open EspnowUartDevice in
/-- The answer to a request for statistics, where this many devices have been added and this has
happened to them. -/
inductive StatisticsTold (es : List Event) (devices : ℕ) (uptime : UInt64) (id : String) :
    GetStatisticsResponse → Prop
  /-- The frames forwarded and the packets received are those of the device with this id. -/
  | found {k : ℕ} {taken : List (Taken UInt8)} {left : List UInt8} (hk : k < devices)
      (hid : id = deviceId k)
      (htaken : Receives messageLength? Unknown [] (serialReads (deviceEvents k es)) taken left) :
      StatisticsTold es devices uptime id
        { status := .success
          uptimeSeconds := uptime
          broadcastSent := UInt64.ofNat (forwardedPackets (tunReads (deviceEvents k es))).length
          broadcastReceived := UInt64.ofNat
            (DeviceMessage.frames ((Taken.messages taken).filterMap decode?)).length }
  /-- No device has this id. -/
  | notFound (h : ∀ k < devices, id ≠ deviceId k) :
      StatisticsTold es devices uptime id { status := .deviceNotFound }

/-- What `handle_read` answers a request for statistics with. -/
theorem statisticsTold_run (hrun : run (step env) start es = some s)
    (hle : s.deviceManager.espnowDevices.length ≤ 2 ^ 32) (uptime : UInt64) (id : String) :
    StatisticsTold es s.deviceManager.espnowDevices.length uptime id
      (ControlSession.statisticsResponse s.deviceManager uptime id) := by
  have hnumbered := numbered_run hrun hle
  by_cases hid : id ∈ s.deviceManager.espnowIds
  · rw [hnumbered] at hid
    obtain ⟨k, hk, rfl⟩ := List.mem_map.mp hid
    rw [List.mem_range] at hk
    -- the device that is found by its id is the one whose events have been counted
    have hd := List.getElem?_eq_getElem hk
    obtain ⟨_, taken, htaken, haccounts⟩ := ((ownRuns_run hrun).ownRun k _ hd).accounts
    have hfound := hnumbered.getDeviceById hd
    rw [hnumbered.espnowId_eq hd] at hfound
    rw [ControlSession.statisticsResponse, hfound]
    dsimp only
    rw [haccounts.broadcastSent_eq, haccounts.broadcastReceived_eq]
    exact .found hk rfl htaken
  · rw [ControlSession.statisticsResponse, DeviceManager.getDeviceById_eq_none hid]
    refine .notFound fun k hk heq => hid ?_
    rw [hnumbered, heq]
    exact List.mem_map_of_mem (List.mem_range.mpr hk)

open EspnowUartDevice in
/-- The answer to a request for the devices: one entry for each, in the order in which they were
added: its number, its file and what its own first announcement said, or, before there was one, what
its memory happened to hold. Of a name without a zero byte the announcement is recorded together
with what followed it in memory (`detailsOf`). -/
structure DevicesTold (env : HostEnv) (es : List Event) (s : ControlServer)
    (infos : List BasicDeviceInfo) : Prop where
  length_eq : infos.length = s.deviceManager.espnowDevices.length
  info : ∀ k info, infos[k]? = some info → ∃ d initial taken left,
    s.deviceManager.espnowDevices[k]? = some d ∧ info = ControlSession.deviceInfo d ∧
    info.deviceId = deviceId k ∧
    Receives messageLength? Unknown [] (serialReads (deviceEvents k es)) taken left ∧
    d.device.deviceDetails =
      (DeviceMessage.firstStart ((Taken.messages taken).filterMap decode?)).elim initial
        (detailsOf env (deviceId k))

/-- What `handle_read` answers a request for the devices with. -/
theorem devicesTold_run (hrun : run (step env) start es = some s)
    (hle : s.deviceManager.espnowDevices.length ≤ 2 ^ 32) :
    DevicesTold env es s (s.deviceManager.espnowDevices.map ControlSession.deviceInfo) := by
  refine ⟨List.length_map _, fun k info hinfo => ?_⟩
  rw [List.getElem?_map] at hinfo
  obtain ⟨d, hd, rfl⟩ := Option.map_eq_some_iff.mp hinfo
  obtain ⟨initial, taken, htaken, haccounts⟩ := ((ownRuns_run hrun).ownRun k d hd).accounts
  have hid := (numbered_run hrun hle).espnowId_eq hd
  exact ⟨d, initial, taken, _, hd, rfl, hid, htaken, hid ▸ haccounts.delivered.deviceDetails_eq⟩

end ControlServer
