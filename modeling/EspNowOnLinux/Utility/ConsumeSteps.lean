import EspNowOnLinux.Lib.StateMachine
import EspNowOnLinux.Utility.ReceivingBuffer

/-!
# The loop that empties the receiving buffer, one iteration at a time

`ReceivingBuffer.consumeLoop` is the whole of the loop and tells nothing of the states in between.
Here the loop is a transition function whose step is one iteration, with the conversion of what the
handler returns to the unsigned amount that `consume` takes.

## Main results

* `always_wellFormed`: for a handler that makes progress, the indices are in order after every
  iteration, and every iteration is defined;
* `exists_run_consumeStep`: the loop ends, and in the state that `consumeLoop` computes.
-/

open Framing StateMachine

namespace ReceivingBuffer

variable {capacity : ℕ} {σ : Type*}

/-- The conversion of an `int` to a `size_t` of 64 bits. -/
def toSizeT (n : ℤ) : ℕ := (n % 2 ^ 64).toNat

theorem toSizeT_natCast {n : ℕ} (h : n < 2 ^ 64) : toSizeT n = n := by
  have hmod : (n : ℤ) % 2 ^ 64 = n := Int.emod_eq_of_lt (by omega) (by omega)
  rw [toSizeT, hmod, Int.toNat_natCast]

/-- The loop between two iterations. -/
structure ConsumeState (σ : Type*) (capacity : ℕ) where
  state : σ
  buffer : ReceivingBuffer capacity
  /-- The loop has not been left. -/
  running : Bool

variable (handle : σ → List UInt8 → Option (Reply σ UInt8))
  (onZero : σ → ReceivingBuffer capacity → σ × ReceivingBuffer capacity)

/-- One iteration; `none` is undefined behaviour of the handler, or a loop that has been left. -/
def consumeStep (l : ConsumeState σ capacity) (_ : Unit) : Option (ConsumeState σ capacity) :=
  if l.running then
    if l.buffer.getData = [] then some { l with running := false }
    else
      (handle l.state l.buffer.getData).map fun r =>
        let b := l.buffer.writeData r.data
        if r.ret = -1 then ⟨r.state, b.moveDataToFront, false⟩
        else if r.ret = 0 then
          let z := onZero r.state b
          ⟨z.1, z.2, false⟩
        else ⟨r.state, b.consume (toSizeT r.ret), true⟩
  else none

/-- On data that fits in the buffer, the handler waits or consumes some of it, and it writes to no
more than it was given. -/
def Progresses (capacity : ℕ) : Prop :=
  ∀ s data, data ≠ [] → data.length ≤ capacity → ∃ r : Reply σ UInt8, handle s data = some r ∧
    (r.ret = -1 ∨ (1 ≤ r.ret ∧ r.ret ≤ data.length)) ∧ r.data.length = data.length

variable {handle}

/-- One iteration keeps the indices in order. It leaves the loop, or it consumes data and
`consumeLoop` goes on from there. -/
theorem consumeStep_spec (H : Progresses handle capacity) (hcap : capacity < 2 ^ 64) (s : σ)
    {b : ReceivingBuffer capacity} (hb : b.WellFormed) :
    ∃ t, consumeStep handle onZero ⟨s, b, true⟩ () = some t ∧ t.buffer.WellFormed ∧
      ((t.running = false ∧ ∀ fuel,
          consumeLoop handle onZero (fuel + 1) s b = some (t.state, t.buffer, [])) ∨
        (t.running = true ∧ t.buffer.getData.length < b.getData.length ∧ ∃ span, ∀ fuel,
          consumeLoop handle onZero (fuel + 1) s b =
            (consumeLoop handle onZero fuel t.state t.buffer).map fun u =>
              (u.1, u.2.1, span :: u.2.2))) := by
  by_cases hdata : b.getData = []
  · refine ⟨⟨s, b, false⟩, ?_, hb, Or.inl ⟨rfl, fun fuel => ?_⟩⟩
    · rw [consumeStep, if_pos rfl, if_pos hdata]
    · exact consumeLoop_nil (Nat.succ_pos fuel) hdata
  obtain ⟨r, hr, hret, hlen⟩ := H s b.getData hdata b.length_getData_le
  have hwritten : (b.writeData r.data).getData = r.data := hb.getData_writeData hlen
  rcases hret with hret | ⟨hpos, hle⟩
  · refine ⟨⟨r.state, (b.writeData r.data).moveDataToFront, false⟩, ?_,
      (hb.writeData _).moveDataToFront, Or.inl ⟨rfl, fun fuel => ?_⟩⟩
    · rw [consumeStep, if_pos rfl, if_neg hdata, hr, Option.map_some, if_pos hret]
    · exact consumeLoop_incomplete hdata hr hret
  · obtain ⟨n, hn⟩ := Int.eq_ofNat_of_zero_le (show 0 ≤ r.ret by omega)
    have hbound := b.length_getData_le
    have hamount : toSizeT r.ret = n := by
      rw [hn]
      exact toSizeT_natCast (by omega)
    refine ⟨⟨r.state, (b.writeData r.data).consume n, true⟩, ?_,
      (hb.writeData _).consume (by rw [hwritten, hlen]; omega), Or.inr ⟨rfl, ?_, ?_⟩⟩
    · rw [consumeStep, if_pos rfl, if_neg hdata, hr, Option.map_some]
      simp only [hamount]
      rw [if_neg (by omega), if_neg (by omega)]
    · show ((b.writeData r.data).consume n).getData.length < _
      rw [getData_consume, hwritten, List.length_drop]
      omega
    · exact ⟨_, fun fuel => consumeLoop_consumed hr hn (by omega) (by omega)⟩

/-- Throughout the loop the indices are in order, and as long as it has not been left there is a
next iteration. -/
theorem always_wellFormed (H : Progresses handle capacity) (hcap : capacity < 2 ^ 64) (s : σ)
    {b : ReceivingBuffer capacity} (hb : b.WellFormed) (iterations : List Unit) :
    Always (consumeStep handle onZero)
      (fun l => l.buffer.WellFormed ∧
        (l.running = true → (consumeStep handle onZero l ()).isSome))
      ⟨s, b, true⟩ iterations := by
  have hstep : ∀ (l : ConsumeState σ capacity) (e : Unit) (t : ConsumeState σ capacity),
      l.buffer.WellFormed → consumeStep handle onZero l e = some t → t.buffer.WellFormed := by
    rintro ⟨s, b, running⟩ ⟨⟩ t hwf ht
    cases running with
    | true =>
        obtain ⟨t', ht', hwf', -⟩ := consumeStep_spec onZero H hcap s hwf
        rw [ht, Option.some.injEq] at ht'
        exact ht' ▸ hwf'
    | false => cases ht
  refine always_of_invariant hstep ?_ hb iterations
  rintro ⟨s, b, running⟩ hwf
  refine ⟨hwf, fun hrunning => ?_⟩
  obtain rfl : running = true := hrunning
  obtain ⟨t, ht, -⟩ := consumeStep_spec onZero H hcap s hwf
  rw [ht]
  rfl

/-- The loop ends after at most one iteration more than there are bytes, where `consumeLoop` does.
The induction is on the number of bytes that are left. -/
theorem exists_run_consumeStep (H : Progresses handle capacity) (hcap : capacity < 2 ^ 64) (s : σ)
    {b : ReceivingBuffer capacity} (hb : b.WellFormed) :
    ∃ n ≤ b.getData.length + 1, ∃ t spans,
      run (consumeStep handle onZero) ⟨s, b, true⟩ (List.replicate n ()) = some t ∧
        t.running = false ∧ t.buffer.WellFormed ∧ ∀ fuel, b.getData.length < fuel →
          consumeLoop handle onZero fuel s b = some (t.state, t.buffer, spans) := by
  induction hlen : b.getData.length using Nat.strong_induction_on generalizing s b with
  | _ len ih =>
    subst hlen
    obtain ⟨t, ht, hwf, ⟨hleft, hloop⟩ | ⟨hrunning, hless, span, hloop⟩⟩ :=
      consumeStep_spec onZero H hcap s hb
    · refine ⟨1, by omega, t, [], ?_, hleft, hwf, fun fuel hfuel => ?_⟩
      · exact run_cons_eq_some.mpr ⟨t, ht, rfl⟩
      · obtain ⟨fuel, rfl⟩ := Nat.exists_eq_succ_of_ne_zero (by omega : fuel ≠ 0)
        exact hloop fuel
    · obtain ⟨n, hn, u, spans, hrun, hstopped, hu, hrest⟩ :=
        ih t.buffer.getData.length hless t.state hwf rfl
      have hnext : (⟨t.state, t.buffer, true⟩ : ConsumeState σ capacity) = t := by
        rw [← hrunning]
      rw [hnext] at hrun
      refine ⟨n + 1, by omega, u, span :: spans, ?_, hstopped, hu, fun fuel hfuel => ?_⟩
      · exact run_cons_eq_some.mpr ⟨t, ht, hrun⟩
      · obtain ⟨fuel, rfl⟩ := Nat.exists_eq_succ_of_ne_zero (by omega : fuel ≠ 0)
        rw [hloop, hrest fuel (by omega)]
        rfl

end ReceivingBuffer
