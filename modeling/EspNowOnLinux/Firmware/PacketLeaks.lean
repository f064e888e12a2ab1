import EspNowOnLinux.Firmware.PacketDelivery

/-!
# Slots that the packet pool loses

A used slot that is neither queued nor being transmitted nor held by a callback is never freed.

## Main results

* `accounted_step`: every event but a failure to enqueue leaves each used slot with an owner;
* `noLeak_iff`: every used slot is in the queue or being transmitted whenever no callback runs, iff
  no callback fails to enqueue. A callback that fails keeps its slot marked as used for good.
-/

open Bytes Messages StateMachine

namespace PacketPool

variable {o : ByteOrder} {s t : PacketPool}

/-! ## Leaks -/

/-- While no callback runs, every used slot is in the queue or being transmitted. -/
def NoLeak (s : PacketPool) : Prop :=
  s.callback = none → ∀ i, (s.packets i).isFree = false →
    i ∈ s.receiveQueue ∨ ∃ u, s.transmission = some u ∧ u.slot = i

/-- Every used slot has an owner. -/
def Accounted (s : PacketPool) : Prop :=
  ∀ i, (s.packets i).isFree = false →
    i ∈ s.receiveQueue ∨ (∃ u, s.transmission = some u ∧ u.slot = i) ∨
      ∃ c, s.callback = some c ∧ c.slot = i

/-- The callback has not failed to enqueue. -/
def Enqueues (_ : PacketPool) (e : Event) : Prop := e ≠ .sendFailed

theorem accounted_start : Accounted start := by
  rintro i ⟨⟩

/-- A callback starts with a slot that is free. -/
theorem Accounted.receive (h : Accounted s) {call : EspNowCall} (ht : s.receive call = some t) :
    Accounted t := by
  obtain ⟨hidle, hpackets, hqueue, htransmission⟩ := receive_cases ht
  intro i hi
  rw [hpackets] at hi
  rw [hqueue, htransmission]
  rcases h i hi with hq | hu | ⟨c, hc, -⟩
  · exact Or.inl hq
  · exact Or.inr (Or.inl hu)
  · rw [hidle] at hc
    cases hc

/-- The callback's slot stays with it or goes to the queue. -/
theorem Accounted.callbackStep (h : Accounted s) (ht : s.callbackStep = some t) : Accounted t := by
  obtain ⟨c, hc, hcases⟩ := callbackStep_cases ht
  intro i hi
  by_cases hslot : i = c.slot
  · subst hslot
    rcases hcases with ⟨stage, f, rfl⟩ | rfl
    · exact Or.inr (Or.inr ⟨_, rfl, rfl⟩)
    · exact Or.inl (List.mem_append_right _ (List.mem_singleton_self _))
  -- the other slots keep their owners
  · have howner : i ∈ s.receiveQueue ∨ ∃ u, s.transmission = some u ∧ u.slot = i := by
      have hsame : t.packets i = s.packets i := by
        rcases hcases with ⟨stage, f, rfl⟩ | rfl
        · exact modify_of_ne s f hslot
        · rfl
      rcases h i (hsame ▸ hi) with hq | hu | ⟨c', hc', rfl⟩
      · exact Or.inl hq
      · exact Or.inr hu
      · rw [hc] at hc'
        cases hc'
        exact absurd rfl hslot
    rcases howner with hq | hu
    · rcases hcases with ⟨stage, f, rfl⟩ | rfl
      · exact Or.inl hq
      · exact Or.inl (List.mem_append_left _ hq)
    · rcases hcases with ⟨stage, f, rfl⟩ | rfl <;> exact Or.inr (Or.inl hu)

/-- The loop takes over the front of the queue, and frees what it has pushed. -/
theorem Accounted.mainStep (h : Accounted s) (ht : s.mainStep o = some t) : Accounted t := by
  intro i hi
  rcases mainStep_cases ht with
    ⟨index, queue, htransmission, hqueue, rfl⟩ | ⟨u, hu, hqueue, hcallback, hframe, hcases⟩
  -- the front of the queue becomes the slot being transmitted
  · rcases h i hi with hq | ⟨u, hu, -⟩ | hc
    · rw [hqueue] at hq
      rcases List.mem_cons.mp hq with rfl | hq
      · exact Or.inr (Or.inl ⟨_, rfl, rfl⟩)
      · exact Or.inl hq
    · rw [htransmission] at hu
      cases hu
    · exact Or.inr (Or.inr hc)
  -- the slot being transmitted stays that, or is freed
  · by_cases hslot : i = u.slot
    · subst hslot
      rcases hcases with ⟨stage, hstage⟩ | ⟨-, hfree⟩
      · exact Or.inr (Or.inl ⟨_, hstage, rfl⟩)
      · rw [hi] at hfree
        cases hfree
    · rw [hframe i hslot] at hi
      rw [hqueue, hcallback]
      rcases h i hi with hq | ⟨u', hu', rfl⟩ | hc
      · exact Or.inl hq
      · rw [hu] at hu'
        cases hu'
        exact absurd rfl hslot
      · exact Or.inr (Or.inr hc)

/-- Every event but a failure to enqueue hands a slot on to another owner or frees it. -/
theorem accounted_step {e : Event} (h : Accounted s) (he : e ≠ .sendFailed)
    (ht : step o s e = some t) : Accounted t := by
  cases e with
  | received call => exact h.receive ht
  | callback => exact h.callbackStep ht
  | sendFailed => exact absurd rfl he
  | main => exact h.mainStep ht

/-- The slot of a callback that fails to enqueue is used and has no owner any more. -/
theorem Inv.leak (h : Inv o s) (ht : s.sendFailed = some t) : ¬ NoLeak t := by
  obtain ⟨c, hc, hstage, -, rfl⟩ := sendFailed_cases ht
  have hfilled := h.owned.filled c hc
  rw [hstage] at hfilled
  intro hleak
  rcases hleak rfl c.slot hfilled.1 with hq | ⟨u, hu, heq⟩
  · exact h.owned.callback c hc hq
  · exact h.owned.disjoint c u hc hu heq

/-- In every interleaving, no slot leaks iff no callback fails to enqueue. -/
theorem noLeak_iff (o : ByteOrder) (es : List Event) :
    Always (step o) NoLeak start es ↔ EachStep (step o) Enqueues start es := by
  refine always_iff_eachStep (fun s => Inv o s ∧ Accounted s) ?_ ?_ ?_
    ⟨inv_start o, accounted_start⟩ es
  · rintro s e t ⟨hinv, hacc⟩ he ht
    exact ⟨inv_step s e t hinv ht, accounted_step hacc he ht⟩
  · rintro s ⟨-, hacc⟩ hidle i hi
    rcases hacc i hi with hq | hu | ⟨c, hc, -⟩
    · exact Or.inl hq
    · exact Or.inr hu
    · rw [hidle] at hc
      cases hc
  · rintro s e t ⟨hinv, -⟩ ht hleak rfl
    exact hinv.leak ht hleak

/-- Seven packets arrive before the loop runs: the queue takes six, and the slot of the seventh is
lost. -/
theorem noLeak_fails :
    let call : EspNowCall := ⟨.replicate 6 1, [1]⟩
    ¬ Always (step .little) NoLeak start
      ((List.replicate 6 (.received call :: List.replicate 5 .callback)).flatten ++
        .received call :: List.replicate 4 .callback ++ [.sendFailed]) := by
  intro call h
  have hrun : (run (step .little) start
      ((List.replicate 6 (.received call :: List.replicate 5 .callback)).flatten ++
        .received call :: List.replicate 4 .callback ++ [.sendFailed])).map
      (fun s => (s.callback.isNone, (s.packets 6).isFree, s.receiveQueue, s.transmission.isNone)) =
        some (true, false, [0, 1, 2, 3, 4, 5], true) := by
    rfl
  obtain ⟨t, hstate, hnoLeak⟩ := h.exists_last hrun
  simp only [Prod.mk.injEq, Option.isNone_iff_eq_none] at hstate
  obtain ⟨hcallback, hused, hqueue, htransmission⟩ := hstate
  rcases hnoLeak hcallback 6 hused with hmem | ⟨u, hu, -⟩
  · rw [hqueue] at hmem
    exact absurd hmem (by decide)
  · rw [htransmission] at hu
    cases hu

end PacketPool
