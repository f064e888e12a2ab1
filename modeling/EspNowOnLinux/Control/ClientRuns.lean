import EspNowOnLinux.Control.Commands
import EspNowOnLinux.Control.ServerRuns

/-!
# What a command shows

A run of the client next to a run of the daemon that other clients and the devices take part in. The
client takes the first envelope on its session for the response to its request, and the daemon sends
an envelope on every session when a device completes its handshake.

## Main results

* `first_sent`: what the first envelope on a session is;
* `command_shows`: a command shows what the daemon answered to it, unless a device completes its
  handshake between the connection and the request. Then `add_uart_device` shows the id of this
  device, whoever asked for it, and the other commands show nothing. The exit status is the same.
-/

open ControlMessages StateMachine

namespace ControlSession

/-- What has passed on a session is still there, and maybe more. -/
structure Grows (c c' : ControlSession) : Prop where
  received : c.received <+: c'.received
  sent : c.sent <+: c'.sent

variable {c c' c'' : ControlSession}

theorem Grows.refl (c : ControlSession) : Grows c c := ⟨List.prefix_rfl, List.prefix_rfl⟩

theorem Grows.trans (h : Grows c c') (h' : Grows c' c'') : Grows c c'' :=
  ⟨h.received.trans h'.received, h.sent.trans h'.sent⟩

theorem grows_asyncWrite (c : ControlSession) (envelope : ControlEnvelope) :
    Grows c (c.asyncWrite envelope) := by
  refine ⟨List.prefix_rfl, ?_⟩
  show c.sent <+: if c.connected then c.sent ++ [envelope] else c.sent
  split
  · exact List.prefix_append _ _
  · exact List.prefix_rfl

theorem grows_respond (c : ControlSession) (envelope : ControlEnvelope)
    (response : Option ControlEnvelope) : Grows c (c.respond envelope response) := by
  have hparsed : Grows c { c with received := c.received ++ [envelope] } :=
    ⟨List.prefix_append _ _, List.prefix_rfl⟩
  cases response with
  | none => exact hparsed
  | some response => exact hparsed.trans (grows_asyncWrite _ response)

theorem grows_notify (espnowId : String) (c : ControlSession) : Grows c (notify espnowId c) := by
  unfold notify
  split
  · exact grows_asyncWrite c _
  · exact Grows.refl c

/-- The first envelope that is sent on a session is sent to a client. -/
theorem sent_asyncWrite (hsent : c.sent = []) {envelope : ControlEnvelope}
    (hne : (c.asyncWrite envelope).sent ≠ []) :
    c.connected = true ∧ (c.asyncWrite envelope).sent = [envelope] := by
  have heq : (c.asyncWrite envelope).sent = if c.connected then c.sent ++ [envelope] else c.sent :=
    rfl
  rw [heq] at hne ⊢
  split at hne
  · next hconnected =>
    exact ⟨hconnected, by rw [if_pos hconnected, hsent]; rfl⟩
  · exact absurd hsent hne

end ControlSession

namespace ControlServer

variable {env : HostEnv} {s t : ControlServer} {e : Event} {es : List Event} {session : ℕ}

/-! ## The first envelope on a session -/

/-- A session stays where it is, and what has passed on it is kept. -/
theorem grows_step (session : ℕ) {c : ControlSession} (ht : step env s e = some t)
    (hc : s.sessions[session]? = some c) :
    ∃ c', t.sessions[session]? = some c' ∧ c.Grows c' := by
  obtain ⟨hlt, -⟩ := List.getElem?_eq_some_iff.mp hc
  have hset {i : ℕ} {x y : ControlSession} (hx : s.sessions[i]? = some x) (hgrows : x.Grows y) :
      ∃ c', (s.sessions.set i y)[session]? = some c' ∧ c.Grows c' := by
    by_cases hi : i = session
    · subst hi
      obtain rfl := Option.some.inj (hx.symm.trans hc)
      exact ⟨y, List.getElem?_set_self hlt, hgrows⟩
    · exact ⟨c, (List.getElem?_set_ne hi).trans hc, .refl c⟩
  rcases step_cases ht with
    ⟨i, opening, uptime, envelope, x, m, response, rfl, hx, -, rfl⟩ |
    ⟨device, event, d, d', rfl, -⟩ | ⟨-, -, i, x, y, created, hx, hreceived, hsent, -, hsessions⟩
  · exact hset hx (x.grows_respond envelope response)
  · rcases step_device ht with ⟨-, hsessions⟩ | ⟨-, espnowId, hsessions⟩
    · exact ⟨c, hsessions ▸ hc, .refl c⟩
    · refine ⟨c.notify espnowId, ?_, c.grows_notify espnowId⟩
      rw [hsessions, List.getElem?_map, hc]
      rfl
  · have hgrows : x.Grows y := by
      constructor
      · rw [hreceived]
      · rw [hsent]
    obtain ⟨c', hc', hgrows⟩ := hset hx hgrows
    refine ⟨c', ?_, hgrows⟩
    rw [hsessions, List.getElem?_append_left (by rwa [List.length_set])]
    exact hc'

/-- So it is along a run. -/
theorem grows_run (session : ℕ) {c : ControlSession} (hrun : run (step env) s es = some t)
    (hc : s.sessions[session]? = some c) : ∃ c', t.sessions[session]? = some c' ∧ c.Grows c' := by
  have hstep (u : ControlServer) (e : Event) (v : ControlServer)
      (hu : ∃ c', u.sessions[session]? = some c' ∧ c.Grows c') (hv : step env u e = some v) :
      ∃ c', v.sessions[session]? = some c' ∧ c.Grows c' := by
    obtain ⟨c', hc', hgrows⟩ := hu
    obtain ⟨c'', hc'', hgrows'⟩ := grows_step session hv hc'
    exact ⟨c'', hc'', hgrows.trans hgrows'⟩
  exact run_invariant hstep ⟨c, hc, .refl c⟩ hrun

/-- An envelope has been sent on the session. -/
def HasSent (session : ℕ) (s : ControlServer) : Prop :=
  ∃ c, s.sessions[session]? = some c ∧ c.sent ≠ []

/-- A client is connected to the session, and nothing has been sent to it. -/
def Unanswered (session : ℕ) (s : ControlServer) : Prop :=
  ∃ c, s.sessions[session]? = some c ∧ c.connected = true ∧ c.sent = []

/-- The event with which an envelope is sent on a session for the first time, and the envelope: the
answer to what is read, or the notice of a handshake that a device completes. -/
inductive FirstSent (env : HostEnv) (session : ℕ) (s : ControlServer) :
    Event → ControlEnvelope → Prop
  | answer {opening : Opening} {uptime : UInt64} {envelope response : ControlEnvelope}
      {m : DeviceManager} (hread : ControlSession.handleRead s.deviceManager opening uptime
        envelope = some (m, some response)) :
      FirstSent env session s (.read session opening uptime envelope) response
  | notice {device : ℕ} {event : EspnowUartDevice.Event} {d : ManagedDevice}
      (hd : s.deviceManager.espnowDevices[device]? = some d)
      (hcompletes : CompletesHandshake env s (.device device event)) :
      FirstSent env session s (.device device event)
        (ControlSession.onNewUartDevice d.device.espnowId)

/-- The event of a device, with the id that is published. -/
theorem step_notice {device : ℕ} {event : EspnowUartDevice.Event}
    (ht : step env s (.device device event) = some t) :
    t.sessions = s.sessions ∨ ∃ d, s.deviceManager.espnowDevices[device]? = some d ∧
      CompletesHandshake env s (.device device event) ∧
      t.sessions = s.sessions.map (ControlSession.notify d.device.espnowId) := by
  obtain ⟨d, hd, ht⟩ := Option.bind_eq_some_iff.mp ht
  obtain ⟨d', hd', rfl⟩ := Option.map_eq_some_iff.mp ht
  rcases publish_cases (EspnowUartDevice.announces_step hd') s.sessions with
    ⟨-, hsessions⟩ | ⟨hnew, hsessions⟩
  · exact Or.inl hsessions
  · exact Or.inr ⟨d, hd, ⟨device, event, d, d', rfl, hd, hd', hnew⟩, hsessions⟩

/-- The first envelope that is sent on a session. -/
theorem firstSent_step {c' : ControlSession} (ht : step env s e = some t)
    (hs : ¬ HasSent session s) (hc' : t.sessions[session]? = some c') (hne : c'.sent ≠ []) :
    ∃ response, c'.sent = [response] ∧ Unanswered session s ∧
      FirstSent env session s e response ∧
      ∀ opening uptime envelope, e = .read session opening uptime envelope →
        envelope ∈ c'.received := by
  have hnot {c : ControlSession} (hc : s.sessions[session]? = some c) : c.sent = [] := by
    by_contra hne
    exact hs ⟨c, hc, hne⟩
  rcases step_cases ht with
    ⟨i, opening, uptime, envelope, x, m, response, rfl, hx, hread, rfl⟩ |
    ⟨device, event, d, d', rfl, -⟩ |
    ⟨-, -, i, x, y, created, hx, -, hsent, hcreated, hsessions⟩
  · by_cases hi : i = session
    · subst hi
      obtain ⟨hlt, -⟩ := List.getElem?_eq_some_iff.mp hx
      rw [List.getElem?_set_self hlt, Option.some.injEq] at hc'
      subst hc'
      have hx' := hnot hx
      -- the daemon answers what it has read, or is silent
      cases response with
      | none => exact absurd hx' hne
      | some response =>
          obtain ⟨hconnected, hsent⟩ := ControlSession.sent_asyncWrite
            (c := { x with received := x.received ++ [envelope] }) hx' hne
          refine ⟨response, hsent, ⟨x, hx, hconnected, hx'⟩, .answer hread, ?_⟩
          rintro _ _ _ ⟨⟩
          exact List.mem_append_right _ (List.mem_singleton_self envelope)
    · exact absurd (hnot ((List.getElem?_set_ne hi).symm.trans hc')) hne
  · rcases step_notice ht with hsessions | ⟨d, hd, hcompletes, hsessions⟩
    · exact absurd (hnot (hsessions ▸ hc')) hne
    · rw [hsessions, List.getElem?_map] at hc'
      obtain ⟨c, hc, rfl⟩ := Option.map_eq_some_iff.mp hc'
      unfold ControlSession.notify at hne ⊢
      split at hne
      · next halive =>
        obtain ⟨hconnected, hsent⟩ := ControlSession.sent_asyncWrite (hnot hc) hne
        rw [if_pos halive]
        exact ⟨_, hsent, ⟨c, hc, hconnected, hnot hc⟩, .notice hd hcompletes, by rintro _ _ _ ⟨⟩⟩
      · exact absurd (hnot hc) hne
  -- nothing is sent
  · rw [hsessions] at hc'
    rcases Nat.lt_or_ge session (s.sessions.set i y).length with hlt | hge
    · rw [List.getElem?_append_left hlt] at hc'
      by_cases hi : i = session
      · subst hi
        rw [List.getElem?_set_self (by rwa [List.length_set] at hlt), Option.some.injEq] at hc'
        subst hc'
        exact absurd (hsent.trans (hnot hx)) hne
      · exact absurd (hnot ((List.getElem?_set_ne hi).symm.trans hc')) hne
    · rw [List.getElem?_append_right hge] at hc'
      have hnew := hcreated c' (List.mem_of_getElem? hc')
      subst hnew
      exact absurd rfl hne

/-- The first envelope on a session has been sent with one of the events of the run, to a client
that had been sent nothing. -/
theorem first_sent (hrun : run (step env) start es = some t) {c : ControlSession}
    (hc : t.sessions[session]? = some c) {response : ControlEnvelope}
    (hsent : c.sent.head? = some response) :
    ∃ before e after s, es = before ++ e :: after ∧ run (step env) start before = some s ∧
      Unanswered session s ∧ FirstSent env session s e response ∧
      ∀ opening uptime envelope, e = .read session opening uptime envelope →
        envelope ∈ c.received := by
  have hstart : ¬ HasSent session start := by
    rintro ⟨c, hc, hne⟩
    obtain rfl := List.mem_singleton.mp (List.mem_of_getElem? hc)
    exact hne rfl
  have hend : HasSent session t := ⟨c, hc, fun hnil => by rw [hnil] at hsent; cases hsent⟩
  obtain ⟨before, e, after, s, v, rfl, hs, hnot, hv, ⟨c', hc', hne⟩, hafter⟩ :=
    run_exists_first hrun hstart hend
  obtain ⟨response', hone, hunanswered, hfirst, hreceived⟩ := firstSent_step hv hnot hc' hne
  -- what has been sent first is still the first
  obtain ⟨c'', hc'', hgrows⟩ := grows_run session hafter hc'
  obtain rfl := Option.some.inj (hc''.symm.trans hc)
  obtain ⟨more, hmore⟩ := hgrows.sent
  rw [← hmore, hone] at hsent
  obtain rfl : response' = response := Option.some.inj hsent
  exact ⟨before, e, after, s, rfl, hs, hunanswered, hfirst, fun opening uptime envelope he =>
    hgrows.received.subset (hreceived opening uptime envelope he)⟩

/-- No device is ever removed. -/
theorem length_devices_le (hrun : run (step env) s es = some t) :
    s.deviceManager.espnowDevices.length ≤ t.deviceManager.espnowDevices.length := by
  have hstep (u : ControlServer) (e : Event) (v : ControlServer)
      (hu : s.deviceManager.espnowDevices.length ≤ u.deviceManager.espnowDevices.length)
      (hv : step env u e = some v) :
      s.deviceManager.espnowDevices.length ≤ v.deviceManager.espnowDevices.length := by
    rcases step_cases hv with
      ⟨i, opening, uptime, envelope, c, m, response, rfl, -, hread, rfl⟩ |
      ⟨device, event, d, d', rfl, -, hmanager⟩ | ⟨-, hmanager, -⟩
    · rcases ControlSession.handleRead_cases hread with ⟨deviceFile, result, -, hadd⟩ | ⟨-, rfl⟩
      · rcases DeviceManager.addUartDevice_cases hadd with ⟨rfl, -⟩ | ⟨device, hdevices, -⟩
        · exact hu
        · rw [hdevices, List.length_append]
          exact Nat.le_add_right_of_le hu
      · exact hu
    · rw [hmanager, List.length_set]
      exact hu
    · rwa [hmanager]
  exact run_invariant hstep (Nat.le_refl _) hrun

/-- A request for a device is answered only if the serial port could not be opened, and the answer
does not tell why. -/
theorem handleRead_notAdded {m m' : DeviceManager} {opening : Opening} {uptime : UInt64}
    {n : UInt32} {deviceFile : String} {response : ControlEnvelope}
    (h : ControlSession.handleRead m opening uptime
      ⟨n, some (.addUartDeviceRequest deviceFile)⟩ = some (m', some response)) :
    (∃ code, opening = .serialPortError code) ∧
      response = ⟨n, some (.addUartDeviceResponse .deviceFileDoesNotExist "")⟩ := by
  cases opening with
  | serialPortError code =>
      cases h
      exact ⟨⟨code, rfl⟩, rfl⟩
  | tunError => cases h
  | opened contents deviceDetails tunFdBuffer => cases h

/-! ## What is shown for it -/

open EspnowControl

theorem oneArgument_eq_ok {usage : String} {f : String → ControlEnvelope} {args : List String}
    {request : ControlEnvelope} (h : oneArgument usage f args = .ok request) :
    ∃ arg, args = [arg] ∧ request = f arg := by
  match args, h with
  | [arg], h => exact ⟨arg, rfl, (Except.ok.inj h).symm⟩
  | [], h => cases h
  | _ :: _ :: _, h => cases h

/-- What a command shows, where this event has followed the events `before`. -/
inductive Shown (env : HostEnv) (before : List Event) (s : ControlServer) (session : ℕ) :
    Event → ICmdCommand → List String → Console → Prop
  /-- The devices are listed. -/
  | devices {opening : Opening} {uptime : UInt64} {args : List String}
      {infos : List BasicDeviceInfo} (h : DevicesTold env before s infos) :
      Shown env before s session (.read session opening uptime ⟨1, some .getListOfDevicesRequest⟩)
        getDevicesListCommand args { out := infos.flatMap deviceLines }
  /-- The statistics of the device are shown, or that there is no such device. -/
  | statistics {opening : Opening} {uptime : UInt64} {id : String}
      {response : GetStatisticsResponse}
      (h : StatisticsTold before s.deviceManager.espnowDevices.length uptime id response) :
      Shown env before s session (.read session opening uptime ⟨0, some (.getStatisticsRequest id)⟩)
        getStatisticsCommand [id] (reportStatistics ⟨0, some (.getStatisticsResponse response)⟩)
  /-- The serial port could not be opened, for whatever reason. -/
  | notAdded {code : ℕ} {uptime : UInt64} {deviceFile : String} :
      Shown env before s session
        (.read session (.serialPortError code) uptime ⟨0, some (.addUartDeviceRequest deviceFile)⟩)
        addUartDeviceCommand [deviceFile] { err := [text "Device file does not exist"] }
  /-- A device completes its handshake, whoever asked for it. -/
  | added {k : ℕ} {event : EspnowUartDevice.Event} {deviceFile : String}
      (h : CompletesHandshake env s (.device k event)) :
      Shown env before s session (.device k event) addUartDeviceCommand [deviceFile]
        { out := [text ("Added device with ID: " ++ deviceId k)] }
  /-- A device completes its handshake, and the request has not been answered yet. -/
  | overtaken {k : ℕ} {event : EspnowUartDevice.Event} {command : ICmdCommand} {args : List String}
      (hcommand : command = getDevicesListCommand ∨ command = getStatisticsCommand)
      (h : CompletesHandshake env s (.device k event)) :
      Shown env before s session (.device k event) command args {}

/-- In every run of the daemon, whatever its other clients do and whatever happens to its devices: a
client that has sent one request, and takes the first envelope on its session for the response,
shows what the daemon answered, or, where a device has completed its handshake before the request
was handled, the id of this device or nothing. The exit status is `0` in each case. -/
theorem command_shows (env : HostEnv) {program arg : String} {args : List String}
    {command : ICmdCommand} {request : ControlEnvelope}
    (hcommand : findCommand arg commands = some command)
    (hrequest : command.request args = .ok request)
    (hrun : run (step env) start es = some t)
    (hle : t.deviceManager.espnowDevices.length ≤ 2 ^ 32) {c : ControlSession}
    (hc : t.sessions[session]? = some c) (honly : ∀ envelope ∈ c.received, envelope = request)
    {response : ControlEnvelope} (hsent : c.sent.head? = some response) :
    ∃ console before e after s,
      EspnowControl.main (.ok ⟨fun _ => .ok (), .ok response⟩) (program :: arg :: args) =
        some (console, 0) ∧
      es = before ++ e :: after ∧ run (step env) start before = some s ∧ Unanswered session s ∧
      Shown env before s session e command args console := by
  obtain ⟨before, e, after, s, rfl, hs, hunanswered, hfirst, hreceived⟩ := first_sent hrun hc hsent
  refine ⟨command.report response, before, e, after, s, main_eq hcommand hrequest response, rfl, hs,
    hunanswered, ?_⟩
  -- what holds at the end holds where the envelope was sent
  have hdevices : s.deviceManager.espnowDevices.length ≤ 2 ^ 32 := by
    rw [run_append, hs, Option.bind_some] at hrun
    exact (length_devices_le hrun).trans hle
  have hknown : command ∈ commands := List.mem_of_find?_eq_some hcommand
  simp only [commands, List.mem_cons, List.not_mem_nil, or_false] at hknown
  cases hfirst with
  | answer hread =>
      obtain rfl := honly _ (hreceived _ _ _ rfl)
      rcases hknown with rfl | rfl | rfl
      · obtain rfl := Except.ok.inj hrequest
        cases hread
        exact .devices (devicesTold_run hs hdevices)
      · obtain ⟨deviceFile, rfl, rfl⟩ := oneArgument_eq_ok hrequest
        obtain ⟨⟨code, rfl⟩, rfl⟩ := handleRead_notAdded hread
        exact .notAdded
      · obtain ⟨id, rfl, rfl⟩ := oneArgument_eq_ok hrequest
        cases hread
        exact .statistics (statisticsTold_run hs hdevices _ id)
  | notice hd hcompletes =>
      rw [(numbered_run hs hdevices).espnowId_eq hd]
      rcases hknown with rfl | rfl | rfl
      · exact .overtaken (Or.inl rfl) hcompletes
      · obtain ⟨deviceFile, rfl, -⟩ := oneArgument_eq_ok hrequest
        exact .added hcompletes
      · exact .overtaken (Or.inr rfl) hcompletes

/-- A device that another client has added completes its handshake before the statistics have been
asked for. -/
theorem command_shows_overtaken :
    let env : HostEnv := ⟨.little, fun _ => []⟩
    let opening : Opening := .opened (.replicate _ 0) ⟨[], .replicate _ 0, .v1, ⟨0, 0, 0⟩⟩
      (.replicate _ 0)
    let announcement : Messages.StartDevice := {}
    let es : List Event := [.accepted 0 false, .accepted 1 false,
      .read 0 opening 0 ⟨0, some (.addUartDeviceRequest "/dev/ttyACM0")⟩,
      .device 0 (.serialRead announcement.toBytes)]
    ∃ response console before e after s,
      EspnowControl.main (.ok ⟨fun _ => .ok (), .ok response⟩)
        ["espnowcontrol", "get_statistics", "espnow0"] = some (console, 0) ∧
      es = before ++ e :: after ∧ run (step env) start before = some s ∧ Unanswered 1 s ∧
      Shown env before s 1 e getStatisticsCommand ["espnow0"] console := by
  intro env opening announcement es
  have hpassed : (run (step env) start es).map (fun t => (t.deviceManager.espnowDevices.length,
      t.sessions[1]?.map fun c => (c.received.length, c.sent.length))) = some (1, some (0, 1)) := by
    decide +kernel
  obtain ⟨t, hrun, ht⟩ := Option.map_eq_some_iff.mp hpassed
  obtain ⟨hdevices, hsession⟩ := Prod.mk.inj ht
  obtain ⟨c, hc, hlengths⟩ := Option.map_eq_some_iff.mp hsession
  obtain ⟨hreceived, hsent⟩ := Prod.mk.inj hlengths
  obtain ⟨response, hone⟩ := List.length_eq_one_iff.mp hsent
  have honly (envelope : ControlEnvelope) (h : envelope ∈ c.received) :
      envelope = ⟨0, some (.getStatisticsRequest "espnow0")⟩ := by
    rw [List.eq_nil_of_length_eq_zero hreceived] at h
    cases h
  exact ⟨response, command_shows env rfl rfl hrun (by rw [hdevices]; decide) hc honly
    (congrArg List.head? hone)⟩

end ControlServer
