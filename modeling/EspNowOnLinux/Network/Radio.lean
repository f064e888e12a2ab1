import EspNowOnLinux.Network.ToHost
import EspNowOnLinux.Network.ToRadio

/-!
# Several stations on the air

Any number of devices, each plugged into a daemon of its own. What one of them passes to
`esp_now_send` may reach the callbacks of the others, if the call succeeded and the destination is
the broadcast address or the address of the station. The radio may lose, repeat, delay and reorder
packets, but a packet carries the address of the station that sent it, and what was sent. A write of
a daemon that completes has transferred the whole of its packet, and no station hears a packet of
more than 250 bytes.

## Main results

* `frames_authentic`: every frame queued for the TAP device of a station is one that the daemon of
  another station has read from its TAP device, with the address of that other station as the source
  and the payload unaltered;
* `frames_ordered`: if no station hears packets of another one out of order or twice, then the
  frames from each station are in the order in which that station's daemon has read them, and each
  of them is there at most once. What lies between the two TAP devices may lose frames only.
-/

open Bytes Framing Messages StateMachine

/-! ## What a node keeps -/

/-- The task only adds to what it has sent. -/
theorem JtagRun.sent_le {env : FirmwareEnv} {bytes : List UInt8} {run run' : JtagRun} {count : ℕ}
    (h : run.step env bytes count = some run') :
    run.task.done.sent <+: run'.task.done.sent := by
  rw [JtagRun.step, Option.ite_none_right_eq_some] at h
  obtain ⟨task, htask, rfl⟩ := Option.map_eq_some_iff.mp h.2
  obtain ⟨r, hr, rfl⟩ := Option.map_eq_some_iff.mp htask
  have hhandle (s : Transmitted) (data : List UInt8) (r : Reply Transmitted UInt8)
      (hs : run.task.done.sent <+: s.sent) (hr : handlePacketFromJtag env s data = some r) :
      run.task.done.sent <+: r.state.sent := by
    unfold handlePacketFromJtag at hr
    split at hr
    · cases hr
    split at hr
    · split at hr
      · exact Option.some.inj hr ▸ hs
      dsimp only at hr
      split at hr
      · exact Option.some.inj hr ▸ hs
      · obtain ⟨packet, -, rfl⟩ := Option.map_eq_some_iff.mp hr
        show _ <+: (s.send env packet).sent
        rw [Transmitted.sent_send]
        exact hs.trans (List.prefix_append _ _)
    · exact Option.some.inj hr ▸ hs
  exact ReceivingBuffer.consumeLoop_invariant (P := fun s => run.task.done.sent <+: s.sent)
    hhandle (fun _ _ hs => hs) List.prefix_rfl hr

namespace Node

variable {setup : Setup} {s t : Node}

/-- A node only adds to what it has sent. -/
theorem sent_le {e : Event} (h : step setup s e = some t) : s.sent <+: t.sent := by
  by_cases hhost : ∃ e', e = .host e'
  · obtain ⟨e', rfl⟩ := hhost
    obtain ⟨host, -, rfl⟩ := Option.map_eq_some_iff.mp h
    exact List.prefix_rfl
  -- an announcement is made in the handshake, before anything is sent
  by_cases hannounce : e = .announce
  · subst hannounce
    obtain ⟨usb, hpush, h⟩ := Option.bind_eq_some_iff.mp h
    have hnil : s.sent = [] := by
      cases hs : s.usb with
      | pushing taken => rw [sent, hs]; rfl
      | reading taken => rw [hs] at hpush; cases hpush
      | task first origin run => rw [hs] at hpush; cases hpush
    rw [hnil]
    exact List.nil_prefix
  by_cases hread : ∃ count, e = .read count
  · obtain ⟨count, rfl⟩ := hread
    rw [step, Option.ite_none_right_eq_some] at h
    obtain ⟨usb, husb, rfl⟩ := Option.map_eq_some_iff.mp h.2
    unfold sent
    cases hs : s.usb with
    | pushing taken => exact List.nil_prefix
    | reading taken => exact List.nil_prefix
    | task first origin run =>
        rw [hs] at husb
        obtain ⟨run', hrun, rfl⟩ := Option.map_eq_some_iff.mp husb
        exact JtagRun.sent_le hrun
  · obtain ⟨-, -, husb⟩ := step_frame (fun e' he => hhost ⟨e', he⟩) hannounce
      (fun count he => hread ⟨count, he⟩) h
    rw [sent, sent, husb]

end Node

/-! ## The radio -/

/-- The stations, and what they have heard of each other. -/
structure Radio (ν : Type*) where
  nodes : ν → Node
  /-- The number behind that of the packet of the first station that the second has heard last. -/
  heard : ν → ν → ℕ

namespace Radio

variable {ν : Type*} [DecidableEq ν]

/-- What can happen. -/
inductive Event (ν : Type*)
  /-- Something happens to a station other than that it hears a packet. -/
  | station (n : ν) (e : Node.Event)
  /-- The second station hears the first one's packet of this number. -/
  | hears (src dst : ν) (i : ℕ) (stack : List.Vector UInt8 256)

/-- A station with the address `mac` hears what is sent to this destination. -/
def Addressed (mac destination : MacAddress) : Prop :=
  destination = .replicate 6 255 ∨ destination = mac

instance (mac destination : MacAddress) : Decidable (Addressed mac destination) :=
  inferInstanceAs (Decidable (_ ∨ _))

/-- What the callback is called with for a packet of the station with the address `mac`. -/
def callOf (mac : MacAddress) (packet : MacAddress × List UInt8) : EspNowCall := ⟨mac, packet.2⟩

variable (setup : ν → Setup)

/-- The stations after an event; `none` is an event that cannot happen, or undefined behaviour. -/
def step (s : Radio ν) : Event ν → Option (Radio ν)
  | .station n e =>
      -- what the callback is called with comes from the radio
      if e.packets = [] then
        (Node.step (setup n) (s.nodes n) e).map fun node =>
          { s with nodes := Function.update s.nodes n node }
      else none
  | .hears src dst i stack =>
      (s.nodes src).sent[i]?.bind fun packet =>
        if src ≠ dst ∧ (setup src).firmware.espNowSend i = true ∧
            Addressed (setup dst).mac packet.1 then
          (Node.step (setup dst) (s.nodes dst)
              (.received (callOf (setup src).mac packet) stack)).map fun node =>
            { nodes := Function.update s.nodes dst node
              heard := Function.update s.heard src (Function.update (s.heard src) dst (i + 1)) }
        else none

/-- All stations have just been switched on. -/
def start : Radio ν := ⟨fun n => Node.start (setup n), fun _ _ => 0⟩

/-- Each station keeps to the conditions for both of its directions, and what it hears fits the
slots of its callback. -/
def Orderly (s : Radio ν) : Event ν → Prop
  | .station n e => Node.Uniform (s.nodes n) e ∧ Node.IdleWrite (setup n) (s.nodes n) e ∧
      Node.CleanHandover (s.nodes n) e
  | .hears src _ i _ => ∀ packet ∈ (s.nodes src).sent[i]?, packet.2.length ≤ 250

instance (s : Radio ν) : DecidablePred (Orderly setup s)
  | .station n e => inferInstanceAs (Decidable (Node.Uniform (s.nodes n) e ∧
      Node.IdleWrite (setup n) (s.nodes n) e ∧ Node.CleanHandover (s.nodes n) e))
  | .hears src _ i _ =>
      inferInstanceAs (Decidable (∀ packet ∈ (s.nodes src).sent[i]?, packet.2.length ≤ 250))

/-- No station hears a packet of another one twice, or after a later one. -/
def InOrder (s : Radio ν) : Event ν → Prop
  | .station _ _ => True
  | .hears src dst i _ => s.heard src dst ≤ i

instance (s : Radio ν) : DecidablePred (InOrder s)
  | .station _ _ => isTrue trivial
  | .hears src dst i _ => inferInstanceAs (Decidable (s.heard src dst ≤ i))

/-! ### What a step can do -/

variable {setup} {s t : Radio ν}

/-- An event happens to one station, and the packet that it brings is one that another station has
sent. -/
theorem step_cases {e : Event ν} (h : step setup s e = some t) :
    ∃ n nodeEvent node, Node.step (setup n) (s.nodes n) nodeEvent = some node ∧
      t.nodes = Function.update s.nodes n node ∧
      ((e = .station n nodeEvent ∧ nodeEvent.packets = [] ∧ t.heard = s.heard) ∨
        ∃ src i stack packet, e = .hears src n i stack ∧ src ≠ n ∧
          (s.nodes src).sent[i]? = some packet ∧ Addressed (setup n).mac packet.1 ∧
          nodeEvent = .received (callOf (setup src).mac packet) stack ∧
          t.heard = Function.update s.heard src (Function.update (s.heard src) n (i + 1))) := by
  cases e with
  | station n e =>
      rw [step, Option.ite_none_right_eq_some] at h
      obtain ⟨hpackets, h⟩ := h
      obtain ⟨node, hnode, rfl⟩ := Option.map_eq_some_iff.mp h
      exact ⟨n, e, node, hnode, rfl, Or.inl ⟨rfl, hpackets, rfl⟩⟩
  | hears src dst i stack =>
      obtain ⟨packet, hpacket, h⟩ := Option.bind_eq_some_iff.mp h
      rw [Option.ite_none_right_eq_some] at h
      obtain ⟨⟨hne, -, haddressed⟩, h⟩ := h
      obtain ⟨node, hnode, rfl⟩ := Option.map_eq_some_iff.mp h
      exact ⟨dst, _, node, hnode, rfl,
        Or.inr ⟨src, i, stack, packet, rfl, hne, hpacket, haddressed, rfl, rfl⟩⟩

/-- Every station keeps what each of its steps keeps. -/
theorem nodes_step {P : ν → Node → Prop} {e : Event ν} (h : ∀ n, P n (s.nodes n))
    (hstep : ∀ n e' node, (e = .station n e' ∨ ∃ call stack, e' = .received call stack) →
      Node.step (setup n) (s.nodes n) e' = some node → P n (s.nodes n) → P n node)
    (ht : step setup s e = some t) : ∀ n, P n (t.nodes n) := by
  obtain ⟨n, e', node, hnode, hnodes, hcases⟩ := step_cases ht
  have hevent : e = .station n e' ∨ ∃ call stack, e' = .received call stack := by
    rcases hcases with ⟨rfl, -, -⟩ | ⟨_, _, stack, _, -, -, -, -, rfl, -⟩
    · exact Or.inl rfl
    · exact Or.inr ⟨_, stack, rfl⟩
  intro m
  rw [hnodes]
  by_cases hm : m = n
  · subst hm
    rw [Function.update_self]
    exact hstep m e' node hevent hnode (h m)
  · rw [Function.update_of_ne hm]
    exact h m

/-- Every station only adds to what it has sent. -/
theorem sent_le {e : Event ν} (h : step setup s e = some t) (n : ν) :
    (s.nodes n).sent <+: (t.nodes n).sent := by
  obtain ⟨m, e', node, hnode, hnodes, -⟩ := step_cases h
  rw [hnodes]
  by_cases hm : n = m
  · subst hm
    rw [Function.update_self]
    exact Node.sent_le hnode
  · rw [Function.update_of_ne hm]

/-! ### Each station on its own -/

variable (setup) in
/-- The invariants of both directions of a station. -/
def StationInv (n : ν) (node : Node) : Prop :=
  node.ToHostInv (setup n) List.Sublist ∧ node.ToRadioInv (setup n)

/-- That it hears something does not concern a station's daemon. -/
theorem idleWrite_received {setup : Setup} {node : Node} (call : EspNowCall)
    (stack : List.Vector UInt8 256) : Node.IdleWrite setup node (.received call stack) := by
  intro t ht hline
  have hsame := Node.step_frame (by rintro _ ⟨⟩) (by rintro ⟨⟩) (by rintro _ ⟨⟩) ht
  rw [hsame.1] at hline
  exact absurd rfl hline

theorem stationInv_step {e : Event ν} (h : ∀ n, StationInv setup n (s.nodes n))
    (horderly : Orderly setup s e) (ht : step setup s e = some t) :
    ∀ n, StationInv setup n (t.nodes n) := by
  refine nodes_step h (fun n e' node hevent hnode hn => ?_) ht
  have hconditions : Node.Uniform (s.nodes n) e' ∧ Node.IdleWrite (setup n) (s.nodes n) e' ∧
      Node.CleanHandover (s.nodes n) e' := by
    rcases hevent with rfl | ⟨call, stack, rfl⟩
    · exact horderly
    -- a packet that is heard concerns none of the conditions
    · exact ⟨trivial, idleWrite_received call stack, trivial⟩
  obtain ⟨huniform, hidle, hclean⟩ := hconditions
  exact ⟨Node.toHostInv_step hn.1 huniform (fun new hsub => hsub.append_right new)
    (fun _ _ _ lost hsub => hsub.trans (List.sublist_append_left _ lost)) hnode,
    Node.toRadioInv_step hn.2 hidle hclean hnode⟩

/-! ### What the callbacks are called with -/

variable (setup) in
/-- What a station keeps of what it has heard was sent by another station, to it. -/
def Authentic (s : Radio ν) (dst : ν) : Prop :=
  ∀ call ∈ (s.nodes dst).pool.calls, ∃ src, src ≠ dst ∧ ∃ packet ∈ (s.nodes src).sent,
    Addressed (setup dst).mac packet.1 ∧ call = callOf (setup src).mac packet

theorem authentic_step {e : Event ν} (h : ∀ dst, Authentic setup s dst)
    (ht : step setup s e = some t) : ∀ dst, Authentic setup t dst := by
  have hsent := sent_le ht
  obtain ⟨n, e', node, hnode, hnodes, hcases⟩ := step_cases ht
  intro dst call hcall
  have hold (hcall : call ∈ (s.nodes dst).pool.calls) : ∃ src, src ≠ dst ∧
      ∃ packet ∈ (t.nodes src).sent, Addressed (setup dst).mac packet.1 ∧
        call = callOf (setup src).mac packet := by
    obtain ⟨src, hsrc, packet, hpacket, hrest⟩ := h dst call hcall
    exact ⟨src, hsrc, packet, (hsent src).subset hpacket, hrest⟩
  rw [hnodes] at hcall
  by_cases hdst : dst = n
  · subst hdst
    rw [Function.update_self] at hcall
    rcases List.mem_append.mp ((Node.calls_step hnode).subset hcall) with hcall | hcall
    · exact hold hcall
    -- the packet that it hears
    · rcases hcases with ⟨-, hpackets, -⟩ |
        ⟨src, i, stack, packet, -, hsrc, hpacket, haddressed, rfl, -⟩
      · rw [hpackets] at hcall
        exact absurd hcall List.not_mem_nil
      · exact ⟨src, hsrc, packet, (hsent src).subset (List.mem_of_getElem? hpacket), haddressed,
          List.mem_singleton.mp hcall⟩
  · rw [Function.update_of_ne hdst] at hcall
    exact hold hcall

/-- What a station with the address `mac` can hear of what a station with the address `other` has
sent. -/
def hearable (mac other : MacAddress) (sent : List (MacAddress × List UInt8)) : List EspNowCall :=
  (sent.filter (Addressed mac ·.1)).map (callOf other)

theorem hearable_sublist {mac other : MacAddress} {sent sent' : List (MacAddress × List UInt8)}
    (h : sent.Sublist sent') : (hearable mac other sent).Sublist (hearable mac other sent') :=
  (h.filter _).map _

/-- A later packet goes behind those before it. -/
theorem hearable_take_succ {mac other : MacAddress} {sent : List (MacAddress × List UInt8)}
    {i j : ℕ} {packet : MacAddress × List UInt8} (hij : i ≤ j) (hpacket : sent[j]? = some packet)
    (haddressed : Addressed mac packet.1) :
    (hearable mac other (sent.take i) ++ [callOf other packet]).Sublist
      (hearable mac other (sent.take (j + 1))) := by
  have hsingle : hearable mac other [packet] = [callOf other packet] := by
    simp [hearable, haddressed]
  have hboth : hearable mac other (sent.take j ++ [packet]) =
      hearable mac other (sent.take j) ++ [callOf other packet] := by
    rw [← hsingle, hearable, List.filter_append, List.map_append]
    rfl
  rw [List.take_add_one, hpacket, Option.toList_some, hboth]
  exact (hearable_sublist (List.take_sublist_take_left hij)).append (List.Sublist.refl _)

variable (setup) in
/-- What a station keeps of what it has heard of another one is in the order in which that station
has sent it. -/
def Ordered (s : Radio ν) (src dst : ν) : Prop :=
  ((s.nodes dst).pool.calls.filter (·.srcAddr = (setup src).mac)).Sublist
    (hearable (setup dst).mac (setup src).mac ((s.nodes src).sent.take (s.heard src dst)))

theorem ordered_step (hmac : Function.Injective fun n => (setup n).mac) {e : Event ν}
    (horder : InOrder s e) (h : ∀ src dst, Ordered setup s src dst)
    (ht : step setup s e = some t) : ∀ src dst, Ordered setup t src dst := by
  have hsent := sent_le ht
  obtain ⟨n, e', node, hnode, hnodes, hcases⟩ := step_cases ht
  intro src dst
  -- what `src` sends meanwhile is behind what has been heard
  have hgrows (k : ℕ) : (hearable (setup dst).mac (setup src).mac
      ((s.nodes src).sent.take k)).Sublist
      (hearable (setup dst).mac (setup src).mac ((t.nodes src).sent.take k)) :=
    hearable_sublist ((hsent src).take k).sublist
  refine List.Sublist.trans ?_ (hgrows _)
  rw [hnodes]
  by_cases hdst : dst = n
  · subst hdst
    rw [Function.update_self]
    have hcalls := (Node.calls_step hnode).filter (·.srcAddr = (setup src).mac)
    rw [List.filter_append] at hcalls
    rcases hcases with ⟨-, hpackets, hheard⟩ |
      ⟨other, i, stack, packet, rfl, -, hpacket, haddressed, rfl, hheard⟩
    · rw [hpackets, List.filter_nil, List.append_nil] at hcalls
      rw [hheard]
      exact hcalls.trans (h src dst)
    rw [Node.Event.packets] at hcalls
    by_cases hother : other = src
    -- the packet goes behind those that have been heard before
    · subst hother
      have hnew : ([callOf (setup other).mac packet].filter (·.srcAddr = (setup other).mac)) =
          [callOf (setup other).mac packet] := List.filter_cons_of_pos (decide_eq_true rfl)
      rw [hnew] at hcalls
      rw [hheard, Function.update_self, Function.update_self]
      exact (hcalls.trans ((h other dst).append (List.Sublist.refl _))).trans
        (hearable_take_succ horder hpacket haddressed)
    -- a packet of another station has another address
    · have hnone : ([callOf (setup other).mac packet].filter (·.srcAddr = (setup src).mac)) = [] :=
        List.filter_cons_of_neg fun heq => hother (hmac (of_decide_eq_true heq))
      rw [hnone, List.append_nil] at hcalls
      rw [hheard, Function.update_of_ne (Ne.symm hother)]
      exact hcalls.trans (h src dst)
  · rw [Function.update_of_ne hdst]
    have hheard : t.heard src dst = s.heard src dst := by
      rcases hcases with ⟨-, -, hheard⟩ | ⟨other, i, _, _, -, -, -, -, -, hheard⟩
      · rw [hheard]
      · rw [hheard]
        by_cases hother : src = other
        · rw [hother, Function.update_self, Function.update_of_ne hdst]
        · rw [Function.update_of_ne hother]
    rw [hheard]
    exact h src dst

/-! ### From one TAP device to another -/

/-- The frames queued for the TAP device of a station. -/
def delivered (s : Radio ν) (dst : ν) : List (List UInt8) :=
  (s.nodes dst).host.device.tunFdWriteBuffers.accepted

/-- The packets that a station's daemon has forwarded and that another station can hear. -/
def forwardedTo (setup : ν → Setup) (s : Radio ν) (src dst : ν) : List PacketToSend :=
  (forwardedPackets (s.nodes src).tapped).filter (Addressed (setup dst).mac ·.destinationMac)

/-- The frame that a TAP device gets for a packet of the station with the address `mac`. -/
def frameOf (mac : MacAddress) (packet : PacketToSend) : List UInt8 :=
  EspnowUartDevice.tapFrame mac packet.data

variable (setup) in
/-- Each frame for a TAP device is one that another station has forwarded. -/
def FramesAuthentic (s : Radio ν) : Prop :=
  ∀ dst, ∀ frame ∈ s.delivered dst, ∃ src, src ≠ dst ∧
    ∃ packet ∈ forwardedTo setup s src dst, frame = frameOf (setup src).mac packet

variable (setup) in
/-- The frames with the address of a station as their source are in the order in which that station
has forwarded them, and each of them is there at most once. -/
def FramesOrdered (s : Radio ν) : Prop :=
  ∀ src dst, ((s.delivered dst).filter fun frame =>
      (frame.drop 6).take 6 = (setup src).mac.toList).Sublist
    ((forwardedTo setup s src dst).map (frameOf (setup src).mac))

variable (setup) in
/-- The invariant. -/
structure Inv (s : Radio ν) : Prop where
  station : ∀ n, StationInv setup n (s.nodes n)
  authentic : ∀ dst, Authentic setup s dst

omit [DecidableEq ν] in
theorem inv_start (setup : ν → Setup) : Inv setup (start setup) where
  station _ := ⟨Node.toHostInv_start List.Sublist.slnil, Node.toRadioInv_start⟩
  authentic _ _ hcall := absurd hcall List.not_mem_nil

theorem inv_step {e : Event ν} (h : Inv setup s) (horderly : Orderly setup s e)
    (ht : step setup s e = some t) : Inv setup t :=
  ⟨stationInv_step h.station horderly ht, authentic_step h.authentic ht⟩

omit [DecidableEq ν] in
/-- The frames for the TAP device are those of packets that the callback has kept. -/
theorem Inv.exists_calls (h : Inv setup s) (dst : ν) :
    ∃ calls : List EspNowCall, calls.Sublist (s.nodes dst).pool.calls ∧
      s.delivered dst = calls.map EspNowCall.frame := by
  obtain ⟨sent, before, received, hreceived, hsub, hbefore, hframes⟩ :=
    (h.station dst).1.exists_frames
  refine ⟨received, ?_, hframes⟩
  exact ((hreceived.sublist.trans hsub).trans hbefore.sublist).trans (List.sublist_append_left _ _)

omit [DecidableEq ν] in
/-- What a station has sent are some of the packets that its daemon has forwarded, in order. -/
theorem Inv.hearable_sent (h : Inv setup s) (src dst : ν) :
    (hearable (setup dst).mac (setup src).mac (s.nodes src).sent).Sublist
      ((forwardedTo setup s src dst).map fun packet => ⟨(setup src).mac, packet.data⟩) := by
  have hforwarded : hearable (setup dst).mac (setup src).mac
      (JtagRun.calls (forwardedPackets (s.nodes src).tapped)) =
      (forwardedTo setup s src dst).map fun packet => ⟨(setup src).mac, packet.data⟩ := by
    rw [hearable, JtagRun.calls, List.filter_map, List.map_map]
    rfl
  rw [← hforwarded]
  exact hearable_sublist (h.station src).2.consecutive.sublist

omit [DecidableEq ν] in
theorem Inv.framesAuthentic (h : Inv setup s) : FramesAuthentic setup s := by
  intro dst frame hframe
  obtain ⟨calls, hcalls, hdelivered⟩ := h.exists_calls dst
  rw [hdelivered] at hframe
  obtain ⟨call, hcall, rfl⟩ := List.mem_map.mp hframe
  obtain ⟨src, hsrc, packet, hpacket, haddressed, rfl⟩ :=
    h.authentic dst call (hcalls.subset hcall)
  -- what has been heard was sent, and what was sent was forwarded
  have hhearable : callOf (setup src).mac packet ∈
      hearable (setup dst).mac (setup src).mac (s.nodes src).sent :=
    List.mem_map_of_mem (List.mem_filter.mpr ⟨hpacket, decide_eq_true haddressed⟩)
  obtain ⟨forwarded, hforwarded, heq⟩ :=
    List.mem_map.mp ((h.hearable_sent src dst).subset hhearable)
  exact ⟨src, hsrc, forwarded, hforwarded, by rw [← heq]; rfl⟩

/-- The source address of a frame is that of the packet. -/
theorem drop_take_frame (call : EspNowCall) :
    (call.frame.drop 6).take 6 = call.srcAddr.toList := by
  have hframe : call.frame =
      List.replicate 6 0xff ++ (call.srcAddr.toList ++ ([0x88, 0xb5] ++ call.data)) := by
    rw [EspNowCall.frame, EspnowUartDevice.tapFrame, List.append_assoc, List.append_assoc]
  rw [hframe, List.drop_left' List.length_replicate, List.take_left' call.srcAddr.toList_length]

omit [DecidableEq ν] in
theorem Inv.framesOrdered (h : Inv setup s) (hordered : ∀ src dst, Ordered setup s src dst) :
    FramesOrdered setup s := by
  intro src dst
  obtain ⟨calls, hcalls, hdelivered⟩ := h.exists_calls dst
  have hfilter : (calls.map EspNowCall.frame).filter (fun frame =>
      (frame.drop 6).take 6 = (setup src).mac.toList) =
      (calls.filter (·.srcAddr = (setup src).mac)).map EspNowCall.frame := by
    rw [List.filter_map]
    refine congrArg _ (List.filter_congr fun call _ => decide_eq_decide.mpr ?_)
    rw [drop_take_frame]
    exact ⟨List.Vector.eq _ _, congrArg _⟩
  -- what has been kept was heard in order, and what can be heard was forwarded in order
  have hkept : (calls.filter (·.srcAddr = (setup src).mac)).Sublist
      (hearable (setup dst).mac (setup src).mac (s.nodes src).sent) :=
    ((hcalls.filter _).trans (hordered src dst)).trans
      (hearable_sublist (List.take_sublist _ _))
  rw [hdelivered, hfilter]
  refine ((hkept.trans (h.hearable_sent src dst)).map EspNowCall.frame).trans ?_
  rw [List.map_map]
  exact List.Sublist.refl _

/-- In every run in which each station keeps to the conditions, whatever the radio loses, repeats,
delays or reorders, every frame that a station gets is one that another station has forwarded, with
the address of that station as the source. -/
theorem frames_authentic (setup : ν → Setup) (es : List (Event ν))
    (hsteps : EachStep (step setup) (Orderly setup) (start setup) es) :
    Always (step setup) (FramesAuthentic setup) (start setup) es :=
  always_of_eachStep (fun _ _ _ h hC ht => inv_step h hC ht) (fun _ h => h.framesAuthentic)
    (inv_start setup) hsteps

/-- Two stations with different addresses. -/
def pair (n : Bool) : Setup := { Setup.zeroed with mac := .replicate 6 (if n then 3 else 2) }

/-- Both make the handshake, and two frames for the second one are read from the TAP device of the
first one, sent, heard and pushed. -/
def frameRun : List (Event Bool) :=
  let frame (b : UInt8) : PacketBuffer 512 :=
    ⟨List.replicate 6 3 ++ List.replicate 6 2 ++ [0x88, 0xb5, b], by simp⟩
  let push : List Node.Event :=
    [.uart (.take .usbMain), .uart (.write .usbMain true), .uart (.give .usbMain)]
  let handshake : List Node.Event :=
    [.announce] ++ push ++ [.host (.serialRead 34), .host .serialWritten, .read 1]
  handshake.map (.station false) ++ handshake.map (.station true) ++
    [.station false (.host (.tunRead (frame 8))), .station false (.host .serialWritten),
      .station false (.host (.tunRead (frame 9))), .station false (.host .serialWritten),
      .station false (.read 24), .hears false true 0 (.replicate _ 0)] ++
    List.replicate 5 (.station true .callback) ++ [.hears false true 1 (.replicate _ 0)] ++
    List.replicate 5 (.station true .callback) ++ List.replicate 5 (.station true .main) ++
    push.map (.station true) ++ List.replicate 6 (.station true .main) ++
    push.map (.station true) ++ [.station true (.host (.serialRead 24))]

theorem pair_injective : Function.Injective fun n => (pair n).mac := by
  rintro (_ | _) (_ | _) h
  · rfl
  · exact absurd h (by decide)
  · exact absurd h (by decide)
  · rfl

theorem frames_authentic_frame :
    (run (step pair) (start pair) frameRun).map (fun s => s.delivered true) =
        some [EspnowUartDevice.tapFrame (.replicate 6 2) [8],
          EspnowUartDevice.tapFrame (.replicate 6 2) [9]] ∧
      Always (step pair) (FramesAuthentic pair) (start pair) frameRun :=
  ⟨by decide +kernel, frames_authentic pair frameRun (by decide +kernel)⟩

/-- If moreover the addresses differ and no packet is heard twice or after a later one, the frames
from each station are in the order in which it has forwarded them. -/
theorem frames_ordered (setup : ν → Setup) (hmac : Function.Injective fun n => (setup n).mac)
    (es : List (Event ν))
    (hsteps : EachStep (step setup) (fun s e => Orderly setup s e ∧ InOrder s e) (start setup)
      es) :
    Always (step setup) (FramesOrdered setup) (start setup) es := by
  refine always_of_eachStep (fun s e t h hC ht => ?_)
    (fun s (h : Inv setup s ∧ ∀ src dst, Ordered setup s src dst) => h.1.framesOrdered h.2)
    ⟨inv_start setup, fun _ _ => List.nil_sublist _⟩ hsteps
  exact ⟨inv_step h.1 hC.1 ht, ordered_step hmac hC.2 h.2 ht⟩

theorem frames_ordered_frame :
    (run (step pair) (start pair) frameRun).map
        (fun s => (s.delivered true, (forwardedTo pair s false true).map PacketToSend.data)) =
      some ([EspnowUartDevice.tapFrame (.replicate 6 2) [8],
        EspnowUartDevice.tapFrame (.replicate 6 2) [9]], [[8], [9]]) ∧
    Always (step pair) (FramesOrdered pair) (start pair) frameRun :=
  ⟨by decide +kernel, frames_ordered pair pair_injective frameRun (by decide +kernel)⟩

end Radio
