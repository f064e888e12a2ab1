import EspNowOnLinux.Control.ControlServer
import EspNowOnLinux.Utility.EventDispatcher
import Mathlib.Data.List.Basic

/-!
# The sessions as objects

In `ControlServer` a new device is announced to the sessions that are alive. The source has no list
of these. The constructor of a session subscribes a handler that is bound to a plain pointer to the
session, a `shared_ptr` to it goes from one outstanding operation to the next, and where none takes
it over, the session is destroyed and its guard unsubscribes the handler.

## Main result

* `run_eq`: the server with its objects and its dispatcher goes through just the states that
  `ControlServer` goes through. So a handler is never called on a session that has been destroyed, a
  session that is alive is told of every device, and neither sessions nor subscriptions are leaked.
-/

open ControlMessages StateMachine

/-- The events of the daemon: there is `new_device_event` only. -/
inductive DaemonEvent
  | newDeviceEvent
  deriving DecidableEq

/-- The memory of a session: the session and its `new_uart_device_subscriber_guard_`, or `none` once
it has been destroyed. -/
abbrev SessionObject := Option (ControlSession × SubscriptionGuard)

/-- `control_server` with its sessions in the order of their creation, the device manager and the
dispatcher. -/
structure ServerObjects where
  deviceManager : DeviceManager
  objects : List SessionObject
  dispatcher : EventDispatcher (fun _ : DaemonEvent => String) (Option (List SessionObject))

namespace ServerObjects

/-- `on_new_uart_device`, bound to the session at an index. A call on an object that has been
destroyed is undefined behaviour, after which there is no memory to speak of. -/
def onNewUartDevice (index : ℕ) (espnowId : String) (memory : Option (List SessionObject)) :
    Option (List SessionObject) :=
  memory.bind fun objects =>
    match objects[index]? with
    | some (some (c, guard)) =>
        let c := c.asyncWrite (ControlSession.onNewUartDevice espnowId)
        some (objects.set index (some (c, guard)))
    | _ => none

/-- `control_server::start`: a session is created, and the acceptor waits with it. -/
def create (s : ServerObjects) : ServerObjects :=
  let subscribed := s.dispatcher.subscribe .newDeviceEvent (onNewUartDevice s.objects.length)
  -- what `subscribe` returns is assigned to the member
  let assigned := ({} : SubscriptionGuard).moveAssign subscribed.2 subscribed.1
  { s with objects := s.objects ++ [some (.new, assigned.2.1)], dispatcher := assigned.1 }

/-- A handler that held the session has returned. If nothing else holds it, it is destroyed. -/
def release (s : ServerObjects) (index : ℕ) : ServerObjects :=
  match s.objects[index]? with
  | some (some (c, guard)) =>
      if c.Alive then s
      else { s with
        objects := s.objects.set index none
        dispatcher := (guard.reset s.dispatcher).1 }
  | _ => s

/-- The session at an index, if it is there. -/
def session (s : ServerObjects) (index : ℕ) : SessionObject := s.objects[index]?.join

/-- A session changes. -/
def assign (s : ServerObjects) (index : ℕ) (c : ControlSession) (guard : SubscriptionGuard) :
    ServerObjects :=
  { s with objects := s.objects.set index (some (c, guard)) }

/-- The server before anything has happened. -/
def start : ServerObjects := create ⟨.new, [], .new⟩

/-- The server after an event; `none` is an event that cannot happen, undefined behaviour, or an
exception, which no one catches. -/
def step (env : HostEnv) (s : ServerObjects) : ControlServer.Event → Option ServerObjects
  | .accepted session ec =>
      (s.session session).bind fun (c, guard) =>
        if c.accepting then
          let c := { c with accepting := false, connected := !ec, reading := !ec }
          some ((s.assign session c guard).create.release session)
        else none
  | .read session opening uptime envelope =>
      (s.session session).bind fun (c, guard) =>
        if c.reading then
          (ControlSession.handleRead s.deviceManager opening uptime envelope).map fun r =>
            (assign { s with deviceManager := r.1 } session (c.respond envelope r.2) guard).release
              session
        else none
  | .readFailed session =>
      (s.session session).bind fun (c, guard) =>
        if c.reading then
          some ((s.assign session { c with reading := false } guard).release session)
        else none
  | .written session =>
      (s.session session).bind fun (c, guard) =>
        if 0 < c.writing then
          some ((s.assign session { c with writing := c.writing - 1 } guard).release session)
        else none
  | .device device event =>
      s.deviceManager.espnowDevices[device]?.bind fun d =>
        (d.device.step env event).bind fun d' =>
          let espnowIds := d'.published.drop d.device.published.length
          let memory := espnowIds.foldl (fun memory espnowId =>
            s.dispatcher.publish .newDeviceEvent espnowId memory) (some s.objects)
          memory.map fun objects =>
            { s with
              deviceManager := ⟨s.deviceManager.espnowDevices.set device { d with device := d' }⟩
              objects }

/-! ## The objects of a server -/

/-- The id of the subscription of the session at an index. -/
def subscriptionId (index : ℕ) : UInt64 := UInt64.ofNat (index + 1)

/-- The object of a session: it is there as long as the session is alive. -/
def object (index : ℕ) (c : ControlSession) : SessionObject :=
  if c.Alive then some (c, ⟨true, subscriptionId index⟩) else none

/-- The subscriptions of the sessions that are alive, where the first session has this index. -/
def entries : ℕ → List ControlSession →
    List (UInt64 × (String → Option (List SessionObject) → Option (List SessionObject)))
  | _, [] => []
  | index, c :: cs =>
      if c.Alive then (subscriptionId index, onNewUartDevice index) :: entries (index + 1) cs
      else entries (index + 1) cs

/-- The objects and the dispatcher that a server stands for. -/
def ofServer (s : ControlServer) : ServerObjects where
  deviceManager := s.deviceManager
  objects := s.sessions.mapIdx object
  dispatcher := ⟨fun _ => some (entries 0 s.sessions), UInt64.ofNat s.sessions.length⟩

/-! ### The subscriptions -/

theorem entries_append (index : ℕ) (cs cs' : List ControlSession) :
    entries index (cs ++ cs') = entries index cs ++ entries (index + cs.length) cs' := by
  induction cs generalizing index with
  | nil => rfl
  | cons c cs ih =>
      rw [List.cons_append, entries, entries, ih, List.length_cons, Nat.add_right_comm,
        ← Nat.add_assoc]
      split
      · rfl
      · rfl

/-- The indices do not wrap. -/
theorem subscriptionId_inj {i j : ℕ} (hi : i + 1 < 2 ^ 64) (hj : j + 1 < 2 ^ 64)
    (h : subscriptionId i = subscriptionId j) : i = j := by
  have hnat := congrArg UInt64.toNat h
  rw [subscriptionId, subscriptionId, UInt64.toNat_ofNat_of_lt' hi,
    UInt64.toNat_ofNat_of_lt' hj] at hnat
  omega

/-- The ids of the subscriptions. -/
theorem exists_of_mem_entries {index : ℕ} {cs : List ControlSession}
    {entry : UInt64 × (String → Option (List SessionObject) → Option (List SessionObject))}
    (h : entry ∈ entries index cs) :
    ∃ j, index ≤ j ∧ j < index + cs.length ∧ entry.1 = subscriptionId j := by
  induction cs generalizing index with
  | nil => exact absurd h List.not_mem_nil
  | cons c cs ih =>
      have hrest (h : entry ∈ entries (index + 1) cs) : ∃ j, index ≤ j ∧
          j < index + (c :: cs).length ∧ entry.1 = subscriptionId j := by
        obtain ⟨j, hle, hlt, heq⟩ := ih h
        exact ⟨j, by omega, by rw [List.length_cons]; omega, heq⟩
      rw [entries] at h
      split at h
      · rcases List.mem_cons.mp h with rfl | h
        · exact ⟨index, Nat.le_refl _, by rw [List.length_cons]; omega, rfl⟩
        · exact hrest h
      · exact hrest h

/-- Only which sessions are alive matters. -/
theorem entries_map (f : ControlSession → ControlSession) (hf : ∀ c, (f c).Alive ↔ c.Alive)
    (index : ℕ) (cs : List ControlSession) : entries index (cs.map f) = entries index cs := by
  induction cs generalizing index with
  | nil => rfl
  | cons c cs ih =>
      rw [List.map_cons, entries, entries, ih]
      simp only [hf c]

theorem entries_set {c c' : ControlSession} {cs : List ControlSession} {i : ℕ}
    (hc : cs[i]? = some c) (halive : c'.Alive ↔ c.Alive) (index : ℕ) :
    entries index (cs.set i c') = entries index cs := by
  induction cs generalizing index i with
  | nil => rfl
  | cons c₀ cs ih =>
      cases i with
      | zero =>
          obtain rfl := Option.some.inj hc
          rw [List.set_cons_zero, entries, entries]
          simp only [halive]
      | succ i =>
          rw [List.set_cons_succ, entries, entries, ih hc]

/-- A session that is destroyed takes its subscription with it. -/
theorem entries_set_of_not_alive {c c' : ControlSession} {cs : List ControlSession} {i : ℕ}
    (hc : cs[i]? = some c) (hdead : ¬ c'.Alive) (index : ℕ) (hlt : index + cs.length < 2 ^ 64) :
    entries index (cs.set i c') =
      (entries index cs).filter fun entry => entry.1 ≠ subscriptionId (index + i) := by
  induction cs generalizing index i with
  | nil => cases hc
  | cons c₀ cs ih =>
      rw [List.length_cons] at hlt
      cases i with
      | zero =>
          -- the other subscriptions have other ids
          have hothers : (entries (index + 1) cs).filter
              (fun entry => entry.1 ≠ subscriptionId (index + 0)) = entries (index + 1) cs := by
            refine List.filter_eq_self.mpr fun entry hentry => decide_eq_true fun heq => ?_
            obtain ⟨j, hle, hj, hid⟩ := exists_of_mem_entries hentry
            have hsame := subscriptionId_inj (by omega) (by omega) (hid.symm.trans heq)
            omega
          rw [List.set_cons_zero, entries, if_neg hdead, entries]
          split
          · rw [List.filter_cons_of_neg (by simp), hothers]
          · exact hothers.symm
      | succ i =>
          have hrest := ih hc (index + 1) (by omega)
          rw [Nat.add_right_comm, Nat.add_assoc] at hrest
          rw [List.set_cons_succ, entries, entries, hrest]
          split
          · have hne : subscriptionId index ≠ subscriptionId (index + (i + 1)) := by
              intro heq
              have hi : i + 1 < cs.length + 1 := (List.getElem?_eq_some_iff.mp hc).1
              have hsame := subscriptionId_inj (by omega) (by omega) heq
              omega
            rw [List.filter_cons_of_pos (by simpa using hne)]
          · rfl

/-! ### What the operations do to the objects -/

variable {s : ControlServer} {c c' : ControlSession} {i : ℕ}

/-- The object of a session that is alive. -/
theorem session_ofServer (hc : s.sessions[i]? = some c) (halive : c.Alive) :
    (ofServer s).session i = some (c, ⟨true, subscriptionId i⟩) := by
  rw [session, ofServer, List.getElem?_mapIdx, hc]
  exact if_pos halive

/-- There is none where there is no session, or one that is not alive. -/
theorem session_ofServer_eq_none (h : ∀ c, s.sessions[i]? = some c → ¬ c.Alive) :
    (ofServer s).session i = none := by
  rw [session, ofServer, List.getElem?_mapIdx]
  cases hc : s.sessions[i]? with
  | none => rfl
  | some c => exact if_neg (h c hc)

/-- A new session subscribes with the next id. -/
theorem create_ofServer (s : ControlServer) :
    (ofServer s).create = ofServer { s with sessions := s.sessions ++ [.new] } := by
  have hnext : UInt64.ofNat s.sessions.length + 1 = subscriptionId s.sessions.length :=
    (UInt64.ofNat_add _ _).symm
  have hlength : (ofServer s).objects.length = s.sessions.length := List.length_mapIdx
  have hsubscribe : (ofServer s).dispatcher.subscribe .newDeviceEvent
      (onNewUartDevice s.sessions.length) =
      (⟨fun _ => some (entries 0 (s.sessions ++ [.new])), subscriptionId s.sessions.length⟩,
        ⟨true, subscriptionId s.sessions.length⟩) := by
    rw [← hnext, entries_append, Nat.zero_add]
    refine Prod.ext (congrArg (EventDispatcher.mk · _) (funext fun event => ?_)) rfl
    cases event
    show _ = some (_ ++ [(subscriptionId s.sessions.length, onNewUartDevice s.sessions.length)])
    rw [← hnext]
    exact Function.update_self ..
  rw [create, hlength, hsubscribe]
  simp only [ofServer, List.mapIdx_concat, List.length_append]
  rfl

/-- A new session does not concern the others. -/
theorem create_assign {s : ServerObjects} {guard : SubscriptionGuard} (hi : i < s.objects.length) :
    (s.assign i c guard).create = s.create.assign i c guard := by
  simp only [create, assign, List.length_set, List.set_append_left _ _ hi]

/-- A session changes and is destroyed if it is not alive any more. -/
theorem release_assign (hc : s.sessions[i]? = some c) (halive : c.Alive)
    (hlt : s.sessions.length < 2 ^ 64) :
    ((ofServer s).assign i c' ⟨true, subscriptionId i⟩).release i =
      ofServer { s with sessions := s.sessions.set i c' } := by
  have hi : i < (s.sessions.mapIdx object).length := by
    rw [List.length_mapIdx]
    exact (List.getElem?_eq_some_iff.mp hc).1
  simp only [release, assign, ofServer, List.getElem?_set_self hi, List.mapIdx_set,
    List.length_set, List.set_set]
  by_cases halive' : c'.Alive
  · rw [if_pos halive', object, if_pos halive', entries_set hc ⟨fun _ => halive, fun _ => halive'⟩]
  · have hentries := entries_set_of_not_alive hc halive' 0 (by omega)
    rw [Nat.zero_add] at hentries
    -- the guard unsubscribes only if its id is not `0`
    have hid : subscriptionId i ≠ 0 := by
      intro hzero
      have hnat := congrArg UInt64.toNat hzero
      rw [List.length_mapIdx] at hi
      rw [subscriptionId, UInt64.toNat_ofNat_of_lt' (by show _ < 2 ^ 64; omega)] at hnat
      cases hnat
    rw [if_neg halive', object, if_neg halive', hentries, SubscriptionGuard.reset,
      if_pos ⟨rfl, hid⟩]
    rfl

/-- A handler that is called on its session. -/
theorem onNewUartDevice_append (espnowId : String) (before after : List SessionObject)
    (c : ControlSession) (guard : SubscriptionGuard) :
    onNewUartDevice before.length espnowId (some (before ++ some (c, guard) :: after)) =
      some (before ++ some (c.asyncWrite (ControlSession.onNewUartDevice espnowId), guard) ::
        after) := by
  rw [onNewUartDevice, Option.bind_some, List.getElem?_append_right (Nat.le_refl _), Nat.sub_self]
  simp

theorem alive_notify (espnowId : String) (c : ControlSession) :
    (ControlSession.notify espnowId c).Alive ↔ c.Alive := by
  by_cases halive : c.Alive
  · rw [ControlSession.notify, if_pos halive]
    exact ⟨fun _ => halive, fun _ => Or.inr (Or.inr (Nat.succ_pos _))⟩
  · rw [ControlSession.notify, if_neg halive]

/-- The handlers tell each session that is alive, and no other. -/
theorem foldl_entries (espnowId : String) (before : List SessionObject) (cs : List ControlSession) :
    (entries before.length cs).foldl (fun memory entry => entry.2 espnowId memory)
        (some (before ++ cs.mapIdx fun i => object (before.length + i))) =
      some (before ++ (cs.map (ControlSession.notify espnowId)).mapIdx fun i =>
        object (before.length + i)) := by
  induction cs generalizing before with
  | nil => rfl
  | cons c cs ih =>
      have hrest (object₀ : SessionObject) := ih (before ++ [object₀])
      simp only [List.length_append, List.length_singleton, List.append_assoc,
        List.singleton_append, Nat.add_assoc, Nat.add_comm 1] at hrest
      rw [entries, List.map_cons, List.mapIdx_cons, List.mapIdx_cons, Nat.add_zero]
      by_cases halive : c.Alive
      · have hnotify : ControlSession.notify espnowId c =
            c.asyncWrite (ControlSession.onNewUartDevice espnowId) := if_pos halive
        have halive' := hnotify ▸ (alive_notify espnowId c).mpr halive
        -- its handler finds it, and it stays alive
        rw [if_pos halive, hnotify, object, if_pos halive, object, if_pos halive', List.foldl_cons]
        dsimp only
        rw [onNewUartDevice_append]
        exact hrest _
      · have hnotify : ControlSession.notify espnowId c = c := if_neg halive
        rw [if_neg halive, hnotify, object, if_neg halive]
        -- it has no subscription, so nothing is called on what is left of it
        exact hrest none

/-- Being told of devices neither creates a session nor ends one. -/
theorem publish_same (espnowIds : List String) (cs : List ControlSession) :
    entries 0 (ControlServer.publish espnowIds cs) = entries 0 cs ∧
      (ControlServer.publish espnowIds cs).length = cs.length := by
  induction espnowIds generalizing cs with
  | nil => exact ⟨rfl, rfl⟩
  | cons espnowId espnowIds ih =>
      obtain ⟨hentries, hlength⟩ := ih (cs.map (ControlSession.notify espnowId))
      rw [List.length_map] at hlength
      exact ⟨hentries.trans (entries_map _ (alive_notify espnowId) 0 cs), hlength⟩

variable (s) in
/-- Publishing the event for some devices in turn. -/
theorem foldl_publish (espnowIds : List String) :
    espnowIds.foldl (fun memory espnowId =>
        (ofServer s).dispatcher.publish .newDeviceEvent espnowId memory)
        (some (ofServer s).objects) =
      some ((ControlServer.publish espnowIds s.sessions).mapIdx object) := by
  -- meanwhile the subscriptions stay the same, as no session is destroyed
  suffices h : ∀ cs, entries 0 cs = entries 0 s.sessions →
      espnowIds.foldl (fun memory espnowId =>
        (ofServer s).dispatcher.publish .newDeviceEvent espnowId memory)
        (some (cs.mapIdx object)) =
      some ((ControlServer.publish espnowIds cs).mapIdx object) from h s.sessions rfl
  induction espnowIds with
  | nil => exact fun cs _ => rfl
  | cons espnowId espnowIds ih =>
      intro cs hcs
      -- all handlers are called with the first device before any with the next one
      have hpublish : (ofServer s).dispatcher.publish .newDeviceEvent espnowId
          (some (cs.mapIdx object)) =
          some ((cs.map (ControlSession.notify espnowId)).mapIdx object) := by
        have hall := foldl_entries espnowId [] cs
        simp only [List.length_nil, Nat.zero_add, List.nil_append] at hall
        rw [hcs] at hall
        exact hall
      rw [List.foldl_cons, hpublish]
      exact ih _ ((entries_map _ (alive_notify espnowId) 0 cs).trans hcs)

/-! ## The refinement -/

/-- An event of a session that an operation holds. -/
theorem bind_session {P : ControlSession → Prop} [DecidablePred P] (hP : ∀ c, P c → c.Alive)
    {f : ControlSession × SubscriptionGuard → Option ServerObjects}
    {g : ControlSession → Option ControlServer}
    (h : ∀ c, s.sessions[i]? = some c → P c →
      f (c, ⟨true, subscriptionId i⟩) = (g c).map ofServer) :
    ((ofServer s).session i).bind (fun x => if P x.1 then f x else none) =
      (s.sessions[i]?.bind fun c => if P c then g c else none).map ofServer := by
  cases hc : s.sessions[i]? with
  | none =>
      rw [session_ofServer_eq_none fun c hc' => by rw [hc] at hc'; cases hc']
      rfl
  | some c =>
      rw [Option.bind_some]
      by_cases hPc : P c
      · rw [session_ofServer hc (hP c hPc), Option.bind_some, if_pos hPc, if_pos hPc, h c hc hPc]
      · rw [if_neg hPc]
        by_cases halive : c.Alive
        · rw [session_ofServer hc halive, Option.bind_some, if_neg hPc]
          rfl
        -- a session that has been destroyed takes no part in anything any more
        · rw [session_ofServer_eq_none fun c' hc' => by
            rw [hc] at hc'; exact Option.some.inj hc' ▸ halive]
          rfl

/-- What happens to a session that is alive happens to its object, and as long as there are fewer
than `2 ^ 64` sessions the dispatcher has the subscriptions of those that are alive. -/
theorem step_ofServer (env : HostEnv) (e : ControlServer.Event)
    (hlt : s.sessions.length + 1 < 2 ^ 64) :
    step env (ofServer s) e = (ControlServer.step env s e).map ofServer := by
  cases e with
  | accepted session ec =>
      refine bind_session (P := fun c => c.accepting = true) (fun c => Or.inl) fun c hc hP => ?_
      have hi : session < s.sessions.length := (List.getElem?_eq_some_iff.mp hc).1
      have hi' : session < (ofServer s).objects.length := by
        rw [ofServer, List.length_mapIdx]
        exact hi
      have hc' : (s.sessions ++ [.new])[session]? = some c := by
        rw [List.getElem?_append_left hi, hc]
      dsimp only
      -- `start` creates the next session before the handler lets go of this one
      rw [create_assign hi', create_ofServer, release_assign hc' (Or.inl hP)
        (by rw [List.length_append, List.length_singleton]; exact hlt)]
      simp only [List.set_append_left _ _ hi]
      rfl
  | read session opening uptime envelope =>
      refine bind_session (P := fun c => c.reading = true) (fun c h => Or.inr (Or.inl h))
        fun c hc hP => ?_
      rw [Option.map_map]
      refine congrArg (Option.map · _) (funext fun r => ?_)
      exact release_assign (s := ⟨r.1, s.sessions⟩) hc (Or.inr (Or.inl hP))
        (by show s.sessions.length < _; omega)
  | readFailed session =>
      refine bind_session (P := fun c => c.reading = true) (fun c h => Or.inr (Or.inl h))
        fun c hc hP => ?_
      exact congrArg some (release_assign hc (Or.inr (Or.inl hP)) (by omega))
  | written session =>
      refine bind_session (P := fun c => 0 < c.writing) (fun c h => Or.inr (Or.inr h))
        fun c hc hP => ?_
      exact congrArg some (release_assign hc (Or.inr (Or.inr hP)) (by omega))
  | device device event =>
      simp only [step, ControlServer.step, foldl_publish]
      show (s.deviceManager.espnowDevices[device]?.bind _) = _
      cases s.deviceManager.espnowDevices[device]? with
      | none => rfl
      | some d =>
          simp only [Option.bind_some, Option.bind_eq_bind]
          cases d.device.step env event with
          | none => rfl
          | some d' =>
              obtain ⟨hentries, hlength⟩ :=
                publish_same (d'.published.drop d.device.published.length) s.sessions
              simp only [Option.bind_some, Option.map_some, ofServer, hentries, hlength]

/-- A step creates at most one session. -/
theorem length_sessions_step {env : HostEnv} {e : ControlServer.Event} {t : ControlServer}
    (ht : ControlServer.step env s e = some t) : t.sessions.length ≤ s.sessions.length + 1 := by
  cases e with
  | accepted session ec =>
      obtain ⟨c, -, ht⟩ := Option.bind_eq_some_iff.mp ht
      split at ht
      · obtain rfl := Option.some.inj ht
        rw [List.length_append, List.length_set, List.length_singleton]
      · cases ht
  | read session opening uptime envelope =>
      obtain ⟨c, -, ht⟩ := Option.bind_eq_some_iff.mp ht
      split at ht
      · obtain ⟨r, -, rfl⟩ := Option.map_eq_some_iff.mp ht
        rw [List.length_set]
        exact Nat.le_succ _
      · cases ht
  | readFailed session =>
      obtain ⟨c, -, ht⟩ := Option.bind_eq_some_iff.mp ht
      split at ht
      · obtain rfl := Option.some.inj ht
        rw [List.length_set]
        exact Nat.le_succ _
      · cases ht
  | written session =>
      obtain ⟨c, -, ht⟩ := Option.bind_eq_some_iff.mp ht
      split at ht
      · obtain rfl := Option.some.inj ht
        rw [List.length_set]
        exact Nat.le_succ _
      · cases ht
  | device device event =>
      rcases ControlServer.step_device ht with ⟨-, hsessions⟩ | ⟨-, espnowId, hsessions⟩
      · rw [hsessions]
        exact Nat.le_succ _
      · rw [hsessions, List.length_map]
        exact Nat.le_succ _

theorem run_ofServer (env : HostEnv) (es : List ControlServer.Event)
    (hlt : s.sessions.length + es.length < 2 ^ 64) :
    run (step env) (ofServer s) es = (run (ControlServer.step env) s es).map ofServer := by
  induction es generalizing s with
  | nil => rfl
  | cons e es ih =>
      rw [List.length_cons] at hlt
      rw [run_cons, run_cons, step_ofServer env e (by omega)]
      cases ht : ControlServer.step env s e with
      | none => rfl
      | some t =>
          -- each event uses up at most one id
          have hle := length_sessions_step ht
          exact ih (by omega)

/-- In every run with fewer than `2 ^ 64` events, the objects and the dispatcher are those of the
sessions that are alive. -/
theorem run_eq (env : HostEnv) (es : List ControlServer.Event) (h : es.length + 1 < 2 ^ 64) :
    run (step env) start es = (run (ControlServer.step env) .start es).map ofServer := by
  have hstart : start = ofServer .start := create_ofServer ⟨.new, []⟩
  rw [hstart]
  exact run_ofServer env es (by show 1 + _ < _; omega)

/-- A client connects and leaves: its session is destroyed, and the session that waits for the next
client has the one subscription that is left. -/
theorem run_eq_client :
    let env : HostEnv := ⟨.little, fun _ => []⟩
    let es : List ControlServer.Event := [.accepted 0 false, .readFailed 0]
    (run (step env) start es).map (fun s => (s.objects.map Option.isSome,
        (s.dispatcher.registered .newDeviceEvent).map Prod.fst)) = some ([false, true], [2]) ∧
      run (step env) start es = (run (ControlServer.step env) .start es).map ofServer :=
  ⟨by decide, run_eq ⟨.little, fun _ => []⟩ _ (by decide)⟩

end ServerObjects
