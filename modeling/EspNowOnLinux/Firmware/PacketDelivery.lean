import EspNowOnLinux.Firmware.PacketPool
import Mathlib.Data.List.Forall2

/-!
# What the packet pool delivers

A slot is handed from the receive callback to the queue and from there to the transmit loop. The
invariant says which slot each of the three owns, and what is in it: `Owned` and `Delivery`.

## Main results

* `inv_step`: every event keeps the invariant;
* `Inv.exists_drained`, `exists_enqueued`: what the loop and the callback get done when left alone;
* `intact_always`: slots have one owner at a time, and what the loop pushes are the packets that
  were enqueued, intact, once and in order. Everything that was enqueued can be pushed.
-/

open Bytes Messages StateMachine

namespace PacketPool

/-! ## Ownership -/

/-- The slot holds the packet of a call. -/
structure Holds (p : PoolPacket) (call : EspNowCall) : Prop where
  srcMac_eq : p.srcMac = call.srcAddr
  payloadSize_eq : p.payloadSize = UInt32.ofNat call.data.length
  length_le : call.data.length ≤ 250
  payload_eq : p.payload.toList.take call.data.length = call.data

/-- The slot is used and holds the packet of a call. -/
def Queued (p : OccupiedPacket) (call : EspNowCall) : Prop := p.isFree = false ∧ Holds p.data call

/-- What the callback has filled in at each stage. -/
def Filled (p : OccupiedPacket) (call : EspNowCall) : CallbackStage → Prop
  | .chosen => p.isFree = true
  | .marked => p.isFree = false
  | .macFilled => p.isFree = false ∧ p.data.srcMac = call.srcAddr
  | .sizeFilled => p.isFree = false ∧ p.data.srcMac = call.srcAddr ∧
      p.data.payloadSize = UInt32.ofNat call.data.length
  | .payloadFilled => Queued p call

/-- The queue, the callback and the loop own different slots. -/
structure Owned (s : PacketPool) : Prop where
  nodup : s.receiveQueue.Nodup
  transmission : ∀ t, s.transmission = some t → t.slot ∉ s.receiveQueue
  callback : ∀ c, s.callback = some c → c.slot ∉ s.receiveQueue
  disjoint : ∀ c t, s.callback = some c → s.transmission = some t → t.slot ≠ c.slot
  filled : ∀ c, s.callback = some c → Filled (s.packets c.slot) c.call c.stage

/-! ## Contents -/

/-- The `RECEIVED_PACKET` of a call. -/
def receivedBytes (o : ByteOrder) (call : EspNowCall) : List UInt8 :=
  ReceivedPacket.serialize o { mac := call.srcAddr, data := call.data }

/-- `total_size`. -/
def totalSize (call : EspNowCall) : UInt32 := 1 + 6 + 4 + UInt32.ofNat call.data.length

theorem toNat_totalSize {call : EspNowCall} (h : call.data.length ≤ 250) :
    (totalSize call).toNat = 11 + call.data.length := by
  rw [totalSize, UInt32.toNat_add, UInt32.toNat_ofNat_of_lt' (by show _ < 2 ^ 32; omega)]
  show (11 + call.data.length) % 2 ^ 32 = _
  omega

/-- The slot of the transmit loop at each stage, where `current` are the calls that have been taken
from the queue and not pushed. -/
def Sending (o : ByteOrder) (p : OccupiedPacket) : TransmitStage → List EspNowCall → Prop
  | .dequeued, current => ∃ call, current = [call] ∧ Queued p call
  | .sized n, current => ∃ call, current = [call] ∧ Queued p call ∧ n = totalSize call
  | .idWritten n, current => ∃ call, current = [call] ∧ Queued p call ∧ n = totalSize call ∧
      p.data.id = MessageId.receivedPacket
  | .swapped n, current => ∃ call, current = [call] ∧ p.isFree = false ∧ n.toNat ≤ 261 ∧
      (p.data.bytes o).take n.toNat = receivedBytes o call
  | .pushed, current => p.isFree = false ∧ current = []

/-- The calls enqueued are those pushed, the one being transmitted and those in the queue. -/
structure Delivery (o : ByteOrder) (s : PacketPool) (done current waiting : List EspNowCall) :
    Prop where
  enqueued_eq : s.enqueued = done ++ (current ++ waiting)
  pushed_eq : s.pushed = done.map (receivedBytes o)
  sending : match s.transmission with
    | none => current = []
    | some t => Sending o (s.packets t.slot) t.stage current
  queued : List.Forall₂ (fun i call => Queued (s.packets i) call) s.receiveQueue waiting

/-- The invariant of the runs. -/
structure Inv (o : ByteOrder) (s : PacketPool) : Prop where
  owned : Owned s
  delivery : ∃ done current waiting, Delivery o s done current waiting

variable {o : ByteOrder}

theorem inv_start (o : ByteOrder) : Inv o start := by
  refine ⟨⟨List.nodup_nil, ?_, ?_, ?_, ?_⟩, [], [], [], rfl, rfl, rfl, .nil⟩
  · rintro _ ⟨⟩
  · rintro _ ⟨⟩
  · rintro _ _ ⟨⟩
  · rintro _ ⟨⟩

/-- After the length was swapped in place, the front of the slot is the packet's message. -/
theorem bytes_swapped {p : PoolPacket} {call : EspNowCall} (h : Holds p call)
    (hid : p.id = MessageId.receivedPacket) :
    ({ p with payloadSize := hostToNetwork o p.payloadSize }.bytes o).take
      (totalSize call).toNat = receivedBytes o call := by
  rw [toNat_totalSize h.length_le, receivedBytes, ReceivedPacket.serialize_eq, PoolPacket.bytes,
    storeUInt32_hostToNetwork, hid, h.srcMac_eq, h.payloadSize_eq]
  show (packetBytes _ _ (lengthField call.data) _).take _ = packetBytes _ _ _ call.data
  have hlen : ([MessageId.receivedPacket] ++ call.srcAddr.toList ++ lengthField call.data).length =
      11 := by simp
  rw [packetBytes, ← hlen, List.take_length_add_append, h.payload_eq]
  rfl

/-! ## Every step keeps the invariant -/

/-- The queue's part of `Delivery` depends on the queued slots only. -/
theorem queued_congr {packets packets' : Fin 15 → OccupiedPacket} {queue : List (Fin 15)}
    {waiting : List EspNowCall}
    (h : List.Forall₂ (fun i call => Queued (packets i) call) queue waiting)
    (hsame : ∀ i ∈ queue, packets' i = packets i) :
    List.Forall₂ (fun i call => Queued (packets' i) call) queue waiting := by
  induction h with
  | nil => exact .nil
  | cons hq _ ih =>
      refine .cons ?_ (ih fun i hi => hsame i (List.mem_cons_of_mem _ hi))
      rw [hsame _ List.mem_cons_self]
      exact hq

/-- A queued slot is used. -/
theorem used_of_queued {packets : Fin 15 → OccupiedPacket} {queue : List (Fin 15)}
    {waiting : List EspNowCall}
    (h : List.Forall₂ (fun i call => Queued (packets i) call) queue waiting) :
    ∀ i ∈ queue, (packets i).isFree = false := by
  induction h with
  | nil => exact fun _ hi => absurd hi List.not_mem_nil
  | cons hq _ ih => exact List.forall_mem_cons.mpr ⟨hq.1, ih⟩

section Used

variable {s : PacketPool} {done current waiting : List EspNowCall}

/-- The slot being transmitted is used. -/
theorem Delivery.used_transmission (h : Delivery o s done current waiting) {t : Transmission}
    (ht : s.transmission = some t) : (s.packets t.slot).isFree = false := by
  have hsending := h.sending
  rw [ht] at hsending
  obtain ⟨slot, stage⟩ := t
  cases stage with
  | dequeued => obtain ⟨call, -, hq⟩ := hsending; exact hq.1
  | sized n => obtain ⟨call, -, hq, -⟩ := hsending; exact hq.1
  | idWritten n => obtain ⟨call, -, hq, -⟩ := hsending; exact hq.1
  | swapped n => obtain ⟨call, -, hused, -⟩ := hsending; exact hused
  | pushed => exact hsending.1

/-- The loop can go on with the slot it has taken: what it pushes lies within the slot. -/
theorem Delivery.isSome_mainStep (h : Delivery o s done current waiting) {t : Transmission}
    (ht : s.transmission = some t) : (s.mainStep o).isSome := by
  have hsending := h.sending
  rw [ht] at hsending
  obtain ⟨slot, stage⟩ := t
  cases stage with
  | dequeued => simp only [mainStep, ht, Option.isSome_some]
  | sized n => simp only [mainStep, ht, Option.isSome_some]
  | idWritten n => simp only [mainStep, ht, Option.isSome_some]
  | swapped n =>
      obtain ⟨call, -, -, hn, -⟩ := hsending
      simp only [mainStep, ht, PoolPacket.length_bytes, if_pos hn, Option.isSome_some]
  | pushed => simp only [mainStep, ht, Option.isSome_some]

/-- A change to a slot that is neither queued nor being transmitted. -/
theorem Delivery.congr (h : Delivery o s done current waiting) {t : PacketPool}
    (hqueue : t.receiveQueue = s.receiveQueue) (htransmission : t.transmission = s.transmission)
    (henqueued : t.enqueued = s.enqueued) (hpushed : t.pushed = s.pushed)
    (hframe : ∀ i, i ∈ s.receiveQueue ∨ (∃ u, s.transmission = some u ∧ u.slot = i) →
      t.packets i = s.packets i) :
    Delivery o t done current waiting := by
  refine ⟨henqueued ▸ h.enqueued_eq, hpushed ▸ h.pushed_eq, ?_, ?_⟩
  · have hsending := h.sending
    rw [htransmission]
    cases hu : s.transmission with
    | none => rwa [hu] at hsending
    | some u =>
        rw [hu] at hsending
        show Sending o (t.packets u.slot) u.stage current
        rwa [hframe u.slot (Or.inr ⟨u, hu, rfl⟩)]
  · rw [hqueue]
    exact queued_congr h.queued fun i hi => hframe i (Or.inl hi)

end Used

variable {s t : PacketPool}

/-- A callback starts with a free slot, which therefore nobody owns. -/
theorem Inv.receive (h : Inv o s) {call : EspNowCall} (ht : s.receive call = some t) :
    Inv o t := by
  obtain ⟨howned, done, current, waiting, hdelivery⟩ := h
  unfold PacketPool.receive at ht
  split at ht
  · cases ht
  split at ht
  · obtain rfl := Option.some.inj ht
    exact ⟨howned, done, current, waiting, hdelivery⟩
  split at ht
  · next i hfind =>
    obtain rfl := Option.some.inj ht
    have hfree : (s.packets i).isFree = true := by simpa using List.find?_some hfind
    -- queued slots and the one being transmitted are used, so the free slot is none of them
    refine ⟨⟨howned.nodup, howned.transmission, ?_, ?_, ?_⟩, done, current, waiting,
      hdelivery.congr rfl rfl rfl rfl fun _ _ => rfl⟩
    · rintro _ ⟨⟩ hmem
      rw [used_of_queued hdelivery.queued i hmem] at hfree
      cases hfree
    · rintro _ u ⟨⟩ hu (heq : u.slot = i)
      rw [← heq, hdelivery.used_transmission hu] at hfree
      cases hfree
    · rintro _ ⟨⟩
      exact hfree
  · next hnone =>
    obtain rfl := Option.some.inj ht
    exact ⟨⟨howned.nodup, howned.transmission, howned.callback, howned.disjoint, howned.filled⟩,
      done, current, waiting, hdelivery.congr rfl rfl rfl rfl fun _ _ => rfl⟩

/-- An assignment of the callback to its slot. -/
theorem Inv.advance (h : Inv o s) {c : Callback} (hc : s.callback = some c) {stage : CallbackStage}
    {f : OccupiedPacket → OccupiedPacket} (hf : Filled (f (s.packets c.slot)) c.call stage) :
    Inv o (s.advance c stage f) := by
  obtain ⟨howned, done, current, waiting, hdelivery⟩ := h
  refine ⟨⟨howned.nodup, howned.transmission, ?_, ?_, ?_⟩, done, current, waiting,
    hdelivery.congr rfl rfl rfl rfl ?_⟩
  · rintro _ ⟨⟩
    exact howned.callback c hc
  · rintro _ u ⟨⟩ hu
    exact howned.disjoint c u hc hu
  · rintro _ ⟨⟩
    show Filled ((s.modify c.slot f).packets c.slot) c.call stage
    rwa [modify_self]
  · rintro i (hi | ⟨u, hu, rfl⟩)
    · exact modify_of_ne s f fun heq => howned.callback c hc (heq ▸ hi)
    · exact modify_of_ne s f (howned.disjoint c u hc hu)

/-- The slot is enqueued with what the callback has filled in. -/
theorem Inv.enqueue (h : Inv o s) {c : Callback} (hc : s.callback = some c)
    (hstage : c.stage = .payloadFilled) :
    Inv o { s with
      receiveQueue := s.receiveQueue ++ [c.slot]
      callback := none
      enqueued := s.enqueued ++ [c.call] } := by
  obtain ⟨howned, done, current, waiting, hdelivery⟩ := h
  have hnew := howned.callback c hc
  have hfilled : Queued (s.packets c.slot) c.call := by
    have hfilled := howned.filled c hc
    rwa [hstage] at hfilled
  refine ⟨⟨?_, ?_, ?_, ?_, ?_⟩, done, current, waiting ++ [c.call], ?_, hdelivery.pushed_eq,
    hdelivery.sending, List.rel_append hdelivery.queued (.cons hfilled .nil)⟩
  · refine List.nodup_append.mpr ⟨howned.nodup, List.nodup_singleton _, fun i hi j hj heq => ?_⟩
    rw [heq, List.mem_singleton.mp hj] at hi
    exact hnew hi
  · intro u hu hmem
    rcases List.mem_append.mp hmem with hmem | hmem
    · exact howned.transmission u hu hmem
    · exact howned.disjoint c u hc hu (List.mem_singleton.mp hmem)
  · rintro _ ⟨⟩
  · rintro _ _ ⟨⟩
  · rintro _ ⟨⟩
  · show s.enqueued ++ [c.call] = _
    rw [hdelivery.enqueued_eq]
    simp

/-- Every statement of the callback. -/
theorem Inv.callbackStep (h : Inv o s) (ht : s.callbackStep = some t) : Inv o t := by
  unfold PacketPool.callbackStep at ht
  split at ht
  · cases ht
  next c hc =>
  have hfilled := h.owned.filled c hc
  cases hstage : c.stage with
  | chosen =>
      simp only [hstage, Option.some.injEq] at ht
      exact ht ▸ h.advance hc rfl
  | marked =>
      simp only [hstage, Option.some.injEq] at ht hfilled
      exact ht ▸ h.advance hc ⟨hfilled, rfl⟩
  | macFilled =>
      simp only [hstage, Option.some.injEq] at ht hfilled
      exact ht ▸ h.advance hc ⟨hfilled.1, hfilled.2, rfl⟩
  | sizeFilled =>
      simp only [hstage] at ht hfilled
      split at ht
      · next hlen =>
        obtain rfl := Option.some.inj ht
        -- the copy fits, so the payload is at the front of the array
        refine h.advance hc ⟨hfilled.1, hfilled.2.1, hfilled.2.2, hlen, ?_⟩
        have hfits : 0 + c.call.data.length ≤ (s.packets c.slot).data.payload.toList.length := by
          simpa using hlen
        show (overwrite (s.packets c.slot).data.payload.toList 0 c.call.data).take _ = _
        rw [overwrite_of_fits hfits, List.take_zero, List.nil_append, List.take_left]
      · cases ht
  | payloadFilled =>
      simp only [hstage] at ht
      split at ht
      · obtain rfl := Option.some.inj ht
        exact h.enqueue hc hstage
      · cases ht

/-- A callback that gives up leaves the queue and the loop alone. -/
theorem Inv.sendFailed (h : Inv o s) (ht : s.sendFailed = some t) : Inv o t := by
  obtain ⟨howned, done, current, waiting, hdelivery⟩ := h
  obtain ⟨c, -, -, -, rfl⟩ := sendFailed_cases ht
  refine ⟨⟨howned.nodup, howned.transmission, ?_, ?_, ?_⟩, done, current, waiting,
    hdelivery.congr rfl rfl rfl rfl fun _ _ => rfl⟩
  · rintro _ ⟨⟩
  · rintro _ _ ⟨⟩
  · rintro _ ⟨⟩

/-- A step of the loop on the slot it owns. -/
theorem Inv.transmit (h : Inv o s) {u : Transmission} (hu : s.transmission = some u)
    (hqueue : t.receiveQueue = s.receiveQueue) (hcallback : t.callback = s.callback)
    (henqueued : t.enqueued = s.enqueued)
    (hslot : ∀ v, t.transmission = some v → v.slot = u.slot)
    (hframe : ∀ i, i ≠ u.slot → t.packets i = s.packets i)
    (hsending : ∀ done current waiting, Delivery o s done current waiting →
      ∃ done' current', done' ++ current' = done ++ current ∧
        t.pushed = done'.map (receivedBytes o) ∧
        match t.transmission with
        | none => current' = []
        | some v => Sending o (t.packets v.slot) v.stage current') :
    Inv o t := by
  obtain ⟨howned, done, current, waiting, hdelivery⟩ := h
  obtain ⟨done', current', happend, hpushed, hsending⟩ := hsending done current waiting hdelivery
  refine ⟨⟨hqueue ▸ howned.nodup, ?_, ?_, ?_, ?_⟩, done', current', waiting, ?_, hpushed, hsending,
    ?_⟩
  · intro v hv
    rw [hslot v hv, hqueue]
    exact howned.transmission u hu
  · rw [hcallback, hqueue]
    exact howned.callback
  · intro c v hc hv
    rw [hslot v hv]
    exact howned.disjoint c u (hcallback ▸ hc) hu
  · intro c hc
    rw [hcallback] at hc
    rw [hframe c.slot fun heq => howned.disjoint c u hc hu heq.symm]
    exact howned.filled c hc
  · rw [henqueued, hdelivery.enqueued_eq, ← List.append_assoc, ← List.append_assoc, happend]
  · rw [hqueue]
    exact queued_congr hdelivery.queued fun i hi =>
      hframe i fun heq => howned.transmission u hu (heq ▸ hi)

/-- The front of the queue becomes the slot being transmitted. -/
theorem Inv.dequeue (h : Inv o s) (htransmission : s.transmission = none) {index : Fin 15}
    {queue : List (Fin 15)} (hqueue : s.receiveQueue = index :: queue) :
    Inv o { s with receiveQueue := queue, transmission := some ⟨index, .dequeued⟩ } := by
  obtain ⟨howned, done, current, waiting, hdelivery⟩ := h
  have hnodup := howned.nodup
  have hqueued := hdelivery.queued
  have hcurrent := hdelivery.sending
  have henqueued := hdelivery.enqueued_eq
  rw [htransmission] at hcurrent
  simp only at hcurrent
  subst hcurrent
  rw [hqueue] at hnodup hqueued
  obtain ⟨hnew, hnodup⟩ := List.nodup_cons.mp hnodup
  have hcallback : ∀ c, s.callback = some c → c.slot ≠ index ∧ c.slot ∉ queue := by
    intro c hc
    have hown := howned.callback c hc
    rw [hqueue] at hown
    exact ⟨fun heq => hown (heq ▸ List.mem_cons_self), fun hi => hown (List.mem_cons_of_mem _ hi)⟩
  cases hqueued with
  | cons hq hrest =>
      refine ⟨⟨hnodup, ?_, ?_, ?_, howned.filled⟩, done, [_], _, henqueued, hdelivery.pushed_eq,
        ⟨_, rfl, hq⟩, hrest⟩
      · rintro _ ⟨⟩
        exact hnew
      · exact fun c hc => (hcallback c hc).2
      · rintro c _ hc ⟨⟩
        exact (hcallback c hc).1.symm

/-- Every statement of the transmit loop. -/
theorem Inv.mainStep (h : Inv o s) (ht : s.mainStep o = some t) : Inv o t := by
  unfold PacketPool.mainStep at ht
  split at ht
  · next htransmission =>
    split at ht
    · cases ht
    · next index queue hqueue =>
      obtain rfl := Option.some.inj ht
      exact h.dequeue htransmission hqueue
  next u hu =>
  have hsending (done current waiting : List EspNowCall) (hd : Delivery o s done current waiting) :
      Sending o (s.packets u.slot) u.stage current := by
    have hsending := hd.sending
    rwa [hu] at hsending
  cases hstage : u.stage with
  | dequeued =>
      simp only [hstage, Option.some.injEq] at ht hsending
      subst ht
      refine h.transmit hu rfl rfl rfl (by rintro _ ⟨⟩; rfl) (fun _ _ => rfl) ?_
      intro done current waiting hd
      obtain ⟨call, hcurrent, hq⟩ := hsending done current waiting hd
      exact ⟨done, current, rfl, hd.pushed_eq, call, hcurrent, hq, by
        rw [hq.2.payloadSize_eq]; rfl⟩
  | sized n =>
      simp only [hstage, Option.some.injEq] at ht hsending
      subst ht
      refine h.transmit hu rfl rfl rfl (by rintro _ ⟨⟩; rfl)
        (fun i hi => Function.update_of_ne hi _ _) ?_
      intro done current waiting hd
      obtain ⟨call, hcurrent, ⟨hused, hq⟩, hn⟩ := hsending done current waiting hd
      refine ⟨done, current, rfl, hd.pushed_eq, call, hcurrent, ?_, hn, ?_⟩
      · simp only [modify_self]
        exact ⟨hused, hq.1, hq.2, hq.3, hq.4⟩
      · simp only [modify_self]
  | idWritten n =>
      simp only [hstage, Option.some.injEq] at ht hsending
      subst ht
      refine h.transmit hu rfl rfl rfl (by rintro _ ⟨⟩; rfl)
        (fun i hi => Function.update_of_ne hi _ _) ?_
      intro done current waiting hd
      obtain ⟨call, hcurrent, ⟨hused, hq⟩, hn, hid⟩ := hsending done current waiting hd
      refine ⟨done, current, rfl, hd.pushed_eq, call, hcurrent, ?_, ?_, ?_⟩
      · simp only [modify_self]
        exact hused
      -- at most 11 + 250 bytes, the size of the slot
      · rw [hn, toNat_totalSize hq.length_le]
        have := hq.length_le
        omega
      · simp only [modify_self, hn]
        exact bytes_swapped hq hid
  | swapped n =>
      simp only [hstage] at ht hsending
      split at ht
      · obtain rfl := Option.some.inj ht
        refine h.transmit hu rfl rfl rfl (by rintro _ ⟨⟩; rfl) (fun _ _ => rfl) ?_
        intro done current waiting hd
        obtain ⟨call, hcurrent, hused, -, hbytes⟩ := hsending done current waiting hd
        -- the call moves from those in transit to those done
        refine ⟨done ++ [call], [], by rw [hcurrent, List.append_nil], ?_, hused, rfl⟩
        show s.pushed ++ [_] = _
        rw [hd.pushed_eq, hbytes, List.map_append]
        rfl
      · cases ht
  | pushed =>
      simp only [hstage, Option.some.injEq] at ht hsending
      subst ht
      refine h.transmit hu rfl rfl rfl (by rintro _ ⟨⟩)
        (fun i hi => Function.update_of_ne hi _ _) ?_
      intro done current waiting hd
      exact ⟨done, current, rfl, hd.pushed_eq, (hsending done current waiting hd).2⟩

/-- Every event. -/
theorem inv_step (s : PacketPool) (e : Event) (t : PacketPool) (h : Inv o s)
    (ht : step o s e = some t) : Inv o t := by
  cases e with
  | received call => exact h.receive ht
  | callback => exact h.callbackStep ht
  | sendFailed => exact h.sendFailed ht
  | main => exact h.mainStep ht

/-! ## Either side alone -/

/-- The loop waits only for the queue. -/
theorem Inv.isSome_mainStep (h : s.Inv o) (hleft : s.transmission = none → s.receiveQueue ≠ []) :
    (s.mainStep o).isSome := by
  obtain ⟨-, done, current, waiting, hdelivery⟩ := h
  cases hu : s.transmission with
  | some u => exact hdelivery.isSome_mainStep hu
  | none =>
      obtain ⟨index, queue, hqueue⟩ := List.exists_cons_of_ne_nil (hleft hu)
      rw [PacketPool.mainStep, hu, hqueue]
      rfl

/-- The loop alone pushes everything that has been enqueued. -/
theorem Inv.exists_drained (h : Inv o s) :
    ∃ es t, run (step o) s es = some t ∧ EachStep (step o) (fun _ e => e = .main) s es ∧
      t.transmission = none ∧ t.receiveQueue = [] ∧ t.enqueued = s.enqueued ∧
      t.pushed = s.enqueued.map (receivedBytes o) := by
  let Draining (t : PacketPool) : Prop := Inv o t ∧ t.enqueued = s.enqueued
  have hprogress (u : PacketPool) (hu : Draining u)
      (hnot : ¬ (u.transmission = none ∧ u.receiveQueue = [])) : ∃ e v,
      step o u e = some v ∧ e = .main ∧ Draining v ∧ v.loopLeft < u.loopLeft := by
    obtain ⟨v, hv⟩ := Option.isSome_iff_exists.mp
      (hu.1.isSome_mainStep fun hnone hqueue => hnot ⟨hnone, hqueue⟩)
    exact ⟨.main, v, hv, rfl, ⟨hu.1.mainStep hv, (mainStep_frame hv).2.trans hu.2⟩,
      loopLeft_mainStep hv⟩
  have hstart : Draining s := ⟨h, rfl⟩
  obtain ⟨es, t, hrun, hes, ⟨ht, henqueued⟩, hnone, hqueue⟩ :=
    exists_run_of_progress (InvImage.wf loopLeft Nat.lt_wfRel.wf) hprogress hstart
  refine ⟨es, t, hrun, hes, hnone, hqueue, henqueued, ?_⟩
  -- nothing is in transit or in the queue, so all calls are among those pushed
  obtain ⟨-, done, current, waiting, hdelivery⟩ := ht
  have hcurrent := hdelivery.sending
  have hwaiting := hdelivery.queued
  rw [hnone] at hcurrent
  rw [hqueue] at hwaiting
  cases hwaiting
  dsimp only at hcurrent
  rw [hdelivery.pushed_eq, ← henqueued, hdelivery.enqueued_eq, hcurrent, List.append_nil,
    List.append_nil]

/-- While the queue has room, the callback alone enqueues its slot. -/
theorem exists_enqueued (o : ByteOrder) {c : Callback} (hc : s.callback = some c)
    (hlen : c.call.data.length ≤ 250) (hroom : s.receiveQueue.length < espnowQueueSize) :
    ∃ es t, run (step o) s es = some t ∧ EachStep (step o) (fun _ e => e = .callback) s es ∧
      t.callback = none ∧ t.receiveQueue = s.receiveQueue ++ [c.slot] ∧
      t.enqueued = s.enqueued ++ [c.call] := by
  let Filling (t : PacketPool) : Prop :=
    (∃ stage, t.callback = some { c with stage } ∧ t.receiveQueue = s.receiveQueue ∧
      t.enqueued = s.enqueued) ∨
    (t.callback = none ∧ t.receiveQueue = s.receiveQueue ++ [c.slot] ∧
      t.enqueued = s.enqueued ++ [c.call])
  have hprogress (u : PacketPool) (hu : Filling u) (hnot : u.callback ≠ none) : ∃ e v,
      step o u e = some v ∧ e = .callback ∧ Filling v ∧ v.callbackLeft < u.callbackLeft := by
    obtain ⟨stage, hcallback, hqueue, henqueued⟩ | ⟨hnone, -⟩ := hu
    · obtain ⟨v, hv, hlt, hcases⟩ := exists_callbackStep hcallback hlen fun _ => hqueue ▸ hroom
      rw [hqueue, henqueued] at hcases
      exact ⟨.callback, v, hv, rfl, hcases, hlt⟩
    · exact absurd hnone hnot
  obtain ⟨es, t, hrun, hes, ht, hnone⟩ :=
    exists_run_of_progress (InvImage.wf callbackLeft Nat.lt_wfRel.wf) hprogress
      (Or.inl ⟨c.stage, hc, rfl, rfl⟩ : Filling s)
  obtain ⟨stage, hcallback, -⟩ | ⟨-, hqueue, henqueued⟩ := ht
  · rw [hnone] at hcallback
    cases hcallback
  · exact ⟨es, t, hrun, hes, hnone, hqueue, henqueued⟩

/-- A call of the callback chooses the first slot that is free. -/
theorem exists_chosen (hidle : s.callback = none) {call : EspNowCall} (hne : call.data ≠ [])
    (hfree : ∃ i, (s.packets i).isFree = true) :
    ∃ t i, s.receive call = some t ∧ t.callback = some ⟨i, call, .chosen⟩ ∧
      (s.packets i).isFree = true ∧ ∀ j < i, (s.packets j).isFree = false := by
  obtain ⟨j, hj⟩ := hfree
  cases hfind : (List.finRange 15).find? fun i => (s.packets i).isFree with
  | none => exact absurd hj (List.find?_eq_none.mp hfind j (List.mem_finRange j))
  | some i =>
      obtain ⟨hchosen, k, hk, hki, hbefore⟩ := List.find?_eq_some_iff_getElem.mp hfind
      refine ⟨{ s with callback := some ⟨i, call, .chosen⟩ }, i, ?_, rfl, hchosen, fun j hj => ?_⟩
      · simp only [receive, hidle, if_neg hne, hfind]
      -- the slots are looked at in the order of their numbers
      · rw [List.getElem_finRange] at hki
        have hjk : j.val < k := by
          rw [← hki] at hj
          exact hj
        have hused := hbefore j.val hjk
        rw [List.getElem_finRange] at hused
        simpa using hused

/-! ## What a run delivers -/

/-- The number of packets that have been taken from the queue and not been pushed. -/
def inTransit (s : PacketPool) : ℕ :=
  match s.transmission with
  | none => 0
  | some ⟨_, .pushed⟩ => 0
  | some _ => 1

/-- Slots have one owner at a time, only their owner changes them, and what has been pushed are the
packets that were enqueued, once and in order, up to the one in transit and those in the queue. The
callback finds a free slot, fills it and enqueues it, if there is one and the queue has room. The
loop takes the front of the queue, can always go on with the slot it has taken, and, left alone,
pushes all packets that were enqueued. -/
structure Intact (o : ByteOrder) (s : PacketPool) : Prop where
  nodup : s.receiveQueue.Nodup
  used : ∀ i ∈ s.receiveQueue, (s.packets i).isFree = false
  transmission : ∀ u, s.transmission = some u → u.slot ∉ s.receiveQueue ∧
    ∀ c, s.callback = some c → c.slot ≠ u.slot
  unchanged : ∀ e t i, step o s e = some t →
    i ∈ s.receiveQueue ∨ (∃ u, s.transmission = some u ∧ u.slot = i ∧ e ≠ .main) →
      t.packets i = s.packets i
  defined : ∀ u, s.transmission = some u → (s.mainStep o).isSome
  pushed_prefix : s.pushed <+: s.enqueued.map (receivedBytes o)
  length_enqueued :
    s.enqueued.length = s.pushed.length + s.inTransit + s.receiveQueue.length
  chooses : s.callback = none → ∀ call : EspNowCall, call.data ≠ [] →
    (∃ i, (s.packets i).isFree = true) → ∃ t i, s.receive call = some t ∧
      t.callback = some ⟨i, call, .chosen⟩ ∧ (s.packets i).isFree = true ∧
      ∀ j < i, (s.packets j).isFree = false
  enqueues : ∀ c, s.callback = some c → c.call.data.length ≤ 250 →
    s.receiveQueue.length < espnowQueueSize → ∃ es t, run (step o) s es = some t ∧
      EachStep (step o) (fun _ e => e = .callback) s es ∧ t.callback = none ∧
      t.receiveQueue = s.receiveQueue ++ [c.slot] ∧ t.enqueued = s.enqueued ++ [c.call]
  dequeues : s.transmission = none → ∀ i queue, s.receiveQueue = i :: queue →
    ∃ t, s.mainStep o = some t ∧ t.transmission = some ⟨i, .dequeued⟩ ∧ t.receiveQueue = queue
  pushes : ∀ slot n, s.transmission = some ⟨slot, .swapped n⟩ →
    ∃ call t, s.enqueued[s.pushed.length]? = some call ∧ s.mainStep o = some t ∧
      t.pushed = s.pushed ++ [receivedBytes o call]
  drains : ∃ es t, run (step o) s es = some t ∧ EachStep (step o) (fun _ e => e = .main) s es ∧
    t.transmission = none ∧ t.receiveQueue = [] ∧ t.enqueued = s.enqueued ∧
    t.pushed = s.enqueued.map (receivedBytes o)

/-- The loop pushes the first of the calls that have not been pushed. -/
theorem Delivery.pushes {s : PacketPool} {done current waiting : List EspNowCall}
    (h : Delivery o s done current waiting) {slot : Fin 15} {n : UInt32}
    (hswapped : s.transmission = some ⟨slot, .swapped n⟩) :
    ∃ call t, s.enqueued[s.pushed.length]? = some call ∧ s.mainStep o = some t ∧
      t.pushed = s.pushed ++ [receivedBytes o call] := by
  have hsending := h.sending
  rw [hswapped] at hsending
  obtain ⟨call, hcurrent, -, hn, hbytes⟩ := hsending
  refine ⟨call, { s with
    transmission := some ⟨slot, .pushed⟩
    pushed := s.pushed ++ [receivedBytes o call] }, ?_, ?_, rfl⟩
  · rw [h.pushed_eq, List.length_map, h.enqueued_eq, hcurrent,
      List.getElem?_append_right (Nat.le_refl _), Nat.sub_self]
    rfl
  · simp only [mainStep, hswapped, PoolPacket.length_bytes, if_pos hn, hbytes]

/-- The invariant implies what it is for. -/
theorem Inv.intact (h : Inv o s) : Intact o s := by
  have hdrained := h.exists_drained
  obtain ⟨howned, done, current, waiting, hdelivery⟩ := h
  have hcurrent : current.length = s.inTransit := by
    have hsending := hdelivery.sending
    unfold inTransit
    cases hu : s.transmission with
    | none => rw [hu] at hsending; rw [hsending]; rfl
    | some u =>
        obtain ⟨slot, stage⟩ := u
        rw [hu] at hsending
        cases stage with
        | dequeued => obtain ⟨call, rfl, -⟩ := hsending; rfl
        | sized n => obtain ⟨call, rfl, -⟩ := hsending; rfl
        | idWritten n => obtain ⟨call, rfl, -⟩ := hsending; rfl
        | swapped n => obtain ⟨call, rfl, -⟩ := hsending; rfl
        | pushed => rw [hsending.2]; rfl
  refine ⟨howned.nodup, used_of_queued hdelivery.queued, ?_, ?_, fun u => hdelivery.isSome_mainStep,
    ?_, ?_, fun hidle call hne => exists_chosen hidle hne, fun c => exists_enqueued o,
    fun hnone i queue hqueue => ?_, fun slot n => hdelivery.pushes, hdrained⟩
  · exact fun u hu => ⟨howned.transmission u hu, fun c hc => (howned.disjoint c u hc hu).symm⟩
  · rintro e t i ht (hi | ⟨u, hu, rfl, he⟩)
    · refine step_frame ht (fun _ c hc heq => ?_) (fun _ u hu heq => ?_)
      · exact howned.callback c hc (heq ▸ hi)
      · exact howned.transmission u hu (heq ▸ hi)
    · exact step_frame ht (fun _ c hc => howned.disjoint c u hc hu) fun hmain => absurd hmain he
  · rw [hdelivery.pushed_eq, hdelivery.enqueued_eq, List.map_append]
    exact List.prefix_append _ _
  · rw [hdelivery.enqueued_eq, hdelivery.pushed_eq, hdelivery.queued.length_eq]
    simp only [List.length_append, List.length_map, hcurrent]
    omega
  · exact ⟨_, by rw [PacketPool.mainStep, hnone, hqueue], rfl, rfl⟩

/-- In every interleaving of the callback's and the loop's statements, every state is `Intact`. -/
theorem intact_always (o : ByteOrder) (es : List Event) : Always (step o) (Intact o) start es :=
  always_of_invariant inv_step (fun _ h => h.intact) (inv_start o) es

end PacketPool
