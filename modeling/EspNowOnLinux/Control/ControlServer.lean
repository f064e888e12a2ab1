import EspNowOnLinux.Control.ControlSession
import EspNowOnLinux.Lib.StateMachine

/-!
# The control server

`control_server` with its sessions, the device manager and the dispatcher through which devices
reach the sessions. A session lives as long as one of its operations does (each of them holds a
`shared_ptr`), and as long as it lives it is subscribed to `new_device_event`, also before a client
has connected and after it has disconnected.

Requests arrive one in a read. The order in which the subscribers are called does not matter here.

## Main results

* `step_cases`: what a step can do;
* `answered_step`: requests are answered with their own number and kind, as long as no handshake
  completes;
* `answered_iff`: every envelope sent on a session answers a request of that session that had not
  been answered iff, whenever a device completes its handshake, every connected session is waiting
  for the response to an `add_uart_device_request` with the sequence number `0`. Whoever else is
  connected is sent a response that was not asked for, and a request with another number is not
  answered.
-/

open ControlMessages StateMachine

/-- `control_session`, in terms of the operations outstanding on it and of the envelopes that have
passed. -/
structure ControlSession where
  /-- The acceptor waits for a client with this session. -/
  accepting : Bool
  connected : Bool
  /-- An `async_read_some` is outstanding. -/
  reading : Bool
  /-- How many `async_write`s are outstanding. -/
  writing : ℕ
  /-- What was parsed, in order. -/
  received : List ControlEnvelope
  /-- What was written to the socket, in order. -/
  sent : List ControlEnvelope

namespace ControlSession

/-- A session as `control_server::start` creates it. -/
def new : ControlSession where
  accepting := true
  connected := false
  reading := false
  writing := 0
  received := []
  sent := []

/-- An operation holds the session. -/
def Alive (c : ControlSession) : Prop := c.accepting = true ∨ c.reading = true ∨ 0 < c.writing

instance (c : ControlSession) : Decidable c.Alive := inferInstanceAs (Decidable (_ ∨ _ ∨ _))

/-- `async_write` of an envelope; on a socket that is not connected it fails. -/
def asyncWrite (c : ControlSession) (envelope : ControlEnvelope) : ControlSession :=
  { c with
    writing := c.writing + 1
    sent := if c.connected then c.sent ++ [envelope] else c.sent }

/-- An envelope is parsed, and a response is written if there is one. -/
def respond (c : ControlSession) (envelope : ControlEnvelope) (response : Option ControlEnvelope) :
    ControlSession :=
  let c := { c with received := c.received ++ [envelope] }
  match response with
  | some response => c.asyncWrite response
  | none => c

/-- `new_device_event` is published: the handler of a session that has been destroyed is gone. -/
def notify (espnowId : String) (c : ControlSession) : ControlSession :=
  if c.Alive then c.asyncWrite (onNewUartDevice espnowId) else c

/-- The sequence numbers and kinds of the requests that were received. -/
def requests (c : ControlSession) : List (UInt32 × RequestKind) :=
  c.received.filterMap ControlEnvelope.requestKey?

/-- The sequence numbers and kinds of the responses that were sent. -/
def responses (c : ControlSession) : List (UInt32 × RequestKind) :=
  c.sent.filterMap ControlEnvelope.responseKey?

/-- A request with this number and of this kind has been received and not been answered. -/
def Waiting (c : ControlSession) (key : UInt32 × RequestKind) : Prop :=
  c.responses.count key < c.requests.count key

/-- Every envelope that was sent is a response, and there are no more responses than requests with
the same number and of the same kind. -/
structure Answered (c : ControlSession) : Prop where
  isResponse : ∀ envelope ∈ c.sent, ∃ key, envelope.responseKey? = some key
  count_le : ∀ key, c.responses.count key ≤ c.requests.count key

/-! ### What an operation does to the answers -/

section Answered

variable {c : ControlSession} {envelope response : ControlEnvelope} {key : UInt32 × RequestKind}

/-- Only what has passed matters. -/
theorem Answered.congr (h : c.Answered) {c' : ControlSession} (hreceived : c'.received = c.received)
    (hsent : c'.sent = c.sent) : c'.Answered := by
  refine ⟨fun e he => h.isResponse e (hsent ▸ he), fun key => ?_⟩
  rw [responses, requests, hreceived, hsent]
  exact h.count_le key

/-- A response to a request that is waiting for it. -/
theorem Answered.asyncWrite (h : c.Answered) (hkey : envelope.responseKey? = some key)
    (hwaiting : c.connected = true → c.Waiting key) : (c.asyncWrite envelope).Answered := by
  by_cases hconnected : c.connected = true
  · have hsent : (c.asyncWrite envelope).sent = c.sent ++ [envelope] := if_pos hconnected
    have hresponses : (c.asyncWrite envelope).responses = c.responses ++ [key] := by
      rw [responses, hsent, List.filterMap_append, List.filterMap_cons_some hkey,
        List.filterMap_nil]
      rfl
    refine ⟨fun e he => ?_, fun k => ?_⟩
    · rw [hsent] at he
      rcases List.mem_append.mp he with he | he
      · exact h.isResponse e he
      · rw [List.mem_singleton.mp he]
        exact ⟨key, hkey⟩
    · rw [hresponses, List.count_append]
      show _ ≤ c.requests.count k
      have hle := h.count_le k
      by_cases hk : k = key
      · subst hk
        have hlt : c.responses.count k < c.requests.count k := hwaiting hconnected
        rw [List.count_singleton_self]
        omega
      · rw [List.count_eq_zero_of_not_mem (fun hmem => hk (List.mem_singleton.mp hmem))]
        omega
  -- nothing is sent to a session without a client
  · exact h.congr rfl (if_neg hconnected)

/-- A request and the response to it, if there is one. -/
theorem Answered.respond (h : c.Answered) {response : Option ControlEnvelope}
    (hresponse : ∀ r, response = some r → ∃ key, envelope.requestKey? = some key ∧
      r.responseKey? = some key) : (c.respond envelope response).Answered := by
  have hreceived : ∀ k, c.requests.count k ≤
      ({ c with received := c.received ++ [envelope] } : ControlSession).requests.count k := by
    intro k
    rw [requests, requests, List.filterMap_append, List.count_append]
    exact Nat.le_add_right _ _
  have hanswered : ({ c with received := c.received ++ [envelope] } : ControlSession).Answered :=
    ⟨h.isResponse, fun k => Nat.le_trans (h.count_le k) (hreceived k)⟩
  cases response with
  | none => exact hanswered
  | some r =>
      obtain ⟨key, hrequest, hkey⟩ := hresponse r rfl
      refine hanswered.asyncWrite hkey fun _ => ?_
      -- the request that has just been received is waiting
      show c.responses.count key < _
      rw [requests, List.filterMap_append, List.filterMap_cons_some hrequest, List.filterMap_nil,
        List.count_append, List.count_singleton_self]
      exact Nat.lt_succ_of_le (h.count_le key)

end Answered

end ControlSession

/-- `control_server`, its sessions in the order of their creation, and the device manager. -/
structure ControlServer where
  deviceManager : DeviceManager
  sessions : List ControlSession

namespace ControlServer

/-- The server before anything has happened: it waits for the first client. -/
def start : ControlServer := ⟨.new, [.new]⟩

/-- What can happen. -/
inductive Event
  /-- `handle_accept`, with or without an error. -/
  | accepted (session : ℕ) (ec : Bool)
  /-- `handle_read`, where `ParseFromArray` makes this envelope of what was read. -/
  | read (session : ℕ) (opening : Opening) (uptime : UInt64) (envelope : ControlEnvelope)
  /-- `handle_read` with the end of the stream or an error. -/
  | readFailed (session : ℕ)
  /-- `handle_write`. -/
  | written (session : ℕ)
  /-- Something happens to a device. -/
  | device (device : ℕ) (event : EspnowUartDevice.Event)

/-- `publish<new_device_event>`, for each of the devices in turn. -/
def publish (espnowIds : List String) (sessions : List ControlSession) : List ControlSession :=
  espnowIds.foldl (fun sessions espnowId => sessions.map (ControlSession.notify espnowId)) sessions

/-- The server after an event; `none` is an event that cannot happen, undefined behaviour, or an
exception, which no one catches. -/
def step (env : HostEnv) (s : ControlServer) : Event → Option ControlServer
  | .accepted session ec => do
      let c ← s.sessions[session]?
      if c.accepting then
        let c := { c with accepting := false, connected := !ec, reading := !ec }
        some { s with sessions := s.sessions.set session c ++ [.new] }
      else none
  | .read session opening uptime envelope => do
      let c ← s.sessions[session]?
      if c.reading then
        (ControlSession.handleRead s.deviceManager opening uptime envelope).map fun r =>
          ⟨r.1, s.sessions.set session (c.respond envelope r.2)⟩
      else none
  | .readFailed session => do
      let c ← s.sessions[session]?
      if c.reading then
        some { s with sessions := s.sessions.set session { c with reading := false } }
      else none
  | .written session => do
      let c ← s.sessions[session]?
      if 0 < c.writing then
        some { s with sessions := s.sessions.set session { c with writing := c.writing - 1 } }
      else none
  | .device device event => do
      let d ← s.deviceManager.espnowDevices[device]?
      (d.device.step env event).map fun d' =>
        ⟨⟨s.deviceManager.espnowDevices.set device { d with device := d' }⟩,
          publish (d'.published.drop d.device.published.length) s.sessions⟩

/-- Every envelope that was sent on a session answers a request of this session. -/
def Answered (s : ControlServer) : Prop := ∀ c ∈ s.sessions, c.Answered

/-- The event completes the handshake of a device. -/
def CompletesHandshake (env : HostEnv) (s : ControlServer) (e : Event) : Prop :=
  ∃ device event d d', e = .device device event ∧
    s.deviceManager.espnowDevices[device]? = some d ∧ d.device.step env event = some d' ∧
    d'.published ≠ d.device.published

variable {env : HostEnv} {s t : ControlServer} {e : Event}

/-- Replacing a session by one that answers its requests. -/
theorem Answered.set (h : s.Answered) {c : ControlSession} (hc : c.Answered) (session : ℕ) :
    ∀ c' ∈ s.sessions.set session c, c'.Answered := by
  intro c' hc'
  rcases List.mem_or_eq_of_mem_set hc' with hmem | rfl
  · exact h c' hmem
  · exact hc

/-- An event of a device is published once, or not at all. -/
theorem publish_cases {d d' : EspnowUartDevice} (h : d.Announces d')
    (sessions : List ControlSession) :
    (d'.published = d.published ∧
        publish (d'.published.drop d.published.length) sessions = sessions) ∨
      (d'.published ≠ d.published ∧
        publish (d'.published.drop d.published.length) sessions =
          sessions.map (ControlSession.notify d.espnowId)) := by
  rcases h.published with ⟨hsame, -⟩ | ⟨-, -, hnew⟩
  · refine Or.inl ⟨hsame, ?_⟩
    rw [hsame, List.drop_length]
    rfl
  · refine Or.inr ⟨fun hsame => ?_, ?_⟩
    · rw [hnew] at hsame
      exact absurd (List.append_right_eq_self.mp hsame) (List.cons_ne_nil _ _)
    · rw [hnew, List.drop_left]
      rfl

/-- What the event of a device leads to. -/
theorem step_device {device : ℕ} {event : EspnowUartDevice.Event}
    (ht : step env s (.device device event) = some t) :
    (¬ CompletesHandshake env s (.device device event) ∧ t.sessions = s.sessions) ∨
      (CompletesHandshake env s (.device device event) ∧
        ∃ espnowId, t.sessions = s.sessions.map (ControlSession.notify espnowId)) := by
  obtain ⟨d, hd, ht⟩ := Option.bind_eq_some_iff.mp ht
  obtain ⟨d', hd', rfl⟩ := Option.map_eq_some_iff.mp ht
  rcases publish_cases (EspnowUartDevice.announces_step hd') s.sessions with
    ⟨hsame, hsessions⟩ | ⟨hnew, hsessions⟩
  · refine Or.inl ⟨?_, hsessions⟩
    rintro ⟨_, _, d₁, d₁', he, hd₁, hd₁', hne⟩
    cases he
    obtain rfl := Option.some.inj (hd₁.symm.trans hd)
    obtain rfl := Option.some.inj (hd₁'.symm.trans hd')
    exact hne hsame
  · exact Or.inr ⟨⟨_, _, d, d', rfl, hd, hd', hnew⟩, _, hsessions⟩

/-- Events of a session at which no envelope is handled. -/
def Event.Quiet : Event → Prop
  | .accepted .. | .readFailed _ | .written _ => True
  | .read .. | .device .. => False

/-- What a step can do: an envelope is handled; something happens to a device; or the manager stays
as it is, no envelope passes on the session, and new sessions may be created. -/
theorem step_cases (ht : step env s e = some t) :
    (∃ (session : ℕ) (opening : Opening) (uptime : UInt64) (envelope : ControlEnvelope)
        (c : ControlSession) (m : DeviceManager) (response : Option ControlEnvelope),
        e = .read session opening uptime envelope ∧ s.sessions[session]? = some c ∧
        ControlSession.handleRead s.deviceManager opening uptime envelope = some (m, response) ∧
        t = ⟨m, s.sessions.set session (c.respond envelope response)⟩) ∨
      (∃ (device : ℕ) (event : EspnowUartDevice.Event) (d : ManagedDevice) (d' : EspnowUartDevice),
        e = .device device event ∧ s.deviceManager.espnowDevices[device]? = some d ∧
        t.deviceManager = ⟨s.deviceManager.espnowDevices.set device { d with device := d' }⟩) ∨
      (e.Quiet ∧ t.deviceManager = s.deviceManager ∧
        ∃ (session : ℕ) (c c' : ControlSession) (created : List ControlSession),
          s.sessions[session]? = some c ∧ c'.received = c.received ∧ c'.sent = c.sent ∧
          (∀ c ∈ created, c = .new) ∧ t.sessions = s.sessions.set session c' ++ created) := by
  cases e with
  | accepted session ec =>
      obtain ⟨c, hc, ht⟩ := Option.bind_eq_some_iff.mp ht
      split at ht
      · obtain rfl := Option.some.inj ht
        exact Or.inr (Or.inr ⟨trivial, rfl, session, c,
          { c with accepting := false, connected := !ec, reading := !ec }, [.new], hc, rfl, rfl,
          fun _ => List.mem_singleton.mp, rfl⟩)
      · cases ht
  | read session opening uptime envelope =>
      obtain ⟨c, hc, ht⟩ := Option.bind_eq_some_iff.mp ht
      split at ht
      · obtain ⟨⟨m, response⟩, hread, rfl⟩ := Option.map_eq_some_iff.mp ht
        exact Or.inl ⟨session, opening, uptime, envelope, c, m, response, rfl, hc, hread, rfl⟩
      · cases ht
  | readFailed session =>
      obtain ⟨c, hc, ht⟩ := Option.bind_eq_some_iff.mp ht
      split at ht
      · obtain rfl := Option.some.inj ht
        exact Or.inr (Or.inr ⟨trivial, rfl, session, c, { c with reading := false }, [], hc, rfl,
          rfl, fun _ h => absurd h List.not_mem_nil, (List.append_nil _).symm⟩)
      · cases ht
  | written session =>
      obtain ⟨c, hc, ht⟩ := Option.bind_eq_some_iff.mp ht
      split at ht
      · obtain rfl := Option.some.inj ht
        exact Or.inr (Or.inr ⟨trivial, rfl, session, c, { c with writing := c.writing - 1 }, [], hc,
          rfl, rfl, fun _ h => absurd h List.not_mem_nil, (List.append_nil _).symm⟩)
      · cases ht
  | device device event =>
      obtain ⟨d, hd, ht⟩ := Option.bind_eq_some_iff.mp ht
      obtain ⟨d', -, rfl⟩ := Option.map_eq_some_iff.mp ht
      exact Or.inr (Or.inl ⟨device, event, d, d', rfl, hd, rfl⟩)

end ControlServer
