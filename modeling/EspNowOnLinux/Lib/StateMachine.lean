import Mathlib.Data.List.Basic
import Mathlib.Logic.Basic

/-!
# Runs of a partial transition function

A component is a state type `σ`, an event type `ι` and a partial function `step`: `none` means that
the event cannot happen in that state. An interleaving is a list of events, so a statement about
every interleaving is a statement about every list.

* `run step s es` is the state after the events `es`;
* `Always step P s es` says that `P` holds of every state the events lead through;
* `EachStep step C s es` says that every step taken meets `C`, a condition on the state before the
  step and on the event;
* `EachEvent step C s es` says that every event that comes up meets `C`, also one that cannot
  happen.

The rules are `always_of_eachStep` (an invariant that conditional steps preserve), its converse
`eachStep_of_always`, the two together as `always_iff_eachStep`, the same for runs that are drained
afterwards (`alwaysDrained_iff_eachStep`), `eachEvent_congr` for conditions on events, `run_map`,
`alwaysDrained_map` and `eachStep_map`, which carry statements along a homomorphism of transition
functions, with forms for one on some of the events only (`run_map_of_eachEvent` and so on),
`run_simulation`, for a relation between the states of two transition functions, and `run_history`,
for what is said of a state and its history.
-/

namespace StateMachine

variable {σ τ ι κ : Type*}

section Defs

variable (step : σ → ι → Option σ)

/-- The state reached from `s` by the events in order, `none` as soon as one cannot happen. -/
def run : σ → List ι → Option σ
  | s, [] => some s
  | s, e :: es => (step s e).bind fun t => run t es

/-- `P` holds of `s` and of every state that the events lead through. -/
def Always (P : σ → Prop) : σ → List ι → Prop
  | s, [] => P s
  | s, e :: es => P s ∧ ∀ t, step s e = some t → Always P t es

/-- Every step that the events take meets `C`. -/
def EachStep (C : σ → ι → Prop) : σ → List ι → Prop
  | _, [] => True
  | s, e :: es => ∀ t, step s e = some t → C s e ∧ EachStep C t es

/-- Every event that comes up meets `C`, whether or not it can happen. -/
def EachEvent (C : σ → ι → Prop) : σ → List ι → Prop
  | _, [] => True
  | s, e :: es => C s e ∧ ∀ t, step s e = some t → EachEvent C t es

end Defs

/-- Whether the steps of a run meet a condition can be computed. -/
instance decidableEachStep {step : σ → ι → Option σ} {C : σ → ι → Prop}
    [∀ s e, Decidable (C s e)] : ∀ s es, Decidable (EachStep step C s es)
  | _, [] => isTrue trivial
  | s, e :: es =>
      match hstep : step s e with
      | none => isTrue fun t ht => absurd (hstep.symm.trans ht) (Option.some_ne_none t).symm
      | some t =>
          have : Decidable (EachStep step C t es) := decidableEachStep t es
          decidable_of_iff (C s e ∧ EachStep step C t es)
            ⟨fun h _ hu => Option.some.inj (hstep.symm.trans hu) ▸ h, fun h => h t hstep⟩

variable {step : σ → ι → Option σ} {P Q Inv : σ → Prop} {C D : σ → ι → Prop}

@[simp]
theorem run_nil (s : σ) : run step s [] = some s := rfl

theorem run_cons (s : σ) (e : ι) (es : List ι) :
    run step s (e :: es) = (step s e).bind fun t => run step t es := rfl

/-- A run splits after its first step. -/
theorem run_cons_eq_some {s u : σ} {e : ι} {es : List ι} :
    run step s (e :: es) = some u ↔ ∃ t, step s e = some t ∧ run step t es = some u := by
  rw [run_cons, Option.bind_eq_some_iff]

/-- A run is its first part followed by the rest. -/
theorem run_append (s : σ) (es fs : List ι) :
    run step s (es ++ fs) = (run step s es).bind fun t => run step t fs := by
  induction es generalizing s with
  | nil => rfl
  | cons e es ih =>
      rw [List.cons_append, run_cons, run_cons, Option.bind_assoc]
      exact congrArg _ (funext ih)

/-- An event of a run happens in the state that the events before it lead to. -/
theorem run_append_cons {s t : σ} {es fs : List ι} {e : ι}
    (h : run step s (es ++ e :: fs) = some t) :
    ∃ u v, run step s es = some u ∧ step u e = some v := by
  rw [run_append] at h
  obtain ⟨u, hu, h⟩ := Option.bind_eq_some_iff.mp h
  obtain ⟨v, hv, -⟩ := run_cons_eq_some.mp h
  exact ⟨u, v, hu, hv⟩

/-- `Always` holds of the first state. -/
theorem Always.head {s : σ} {es : List ι} (h : Always step P s es) : P s := by
  cases es with
  | nil => exact h
  | cons e es => exact h.1

/-- `Always` holds of the last state. -/
theorem Always.last {s t : σ} {es : List ι} (h : Always step P s es)
    (hrun : run step s es = some t) : P t := by
  induction es generalizing s with
  | nil =>
      rw [run_nil, Option.some.injEq] at hrun
      exact hrun ▸ h
  | cons e es ih =>
      obtain ⟨u, hu, hrun⟩ := run_cons_eq_some.mp hrun
      exact ih (h.2 u hu) hrun

/-- `Always` holds of the last state, where only a part of that state has been computed. -/
theorem Always.exists_last {s : σ} {es : List ι} {f : σ → τ} {b : τ} (h : Always step P s es)
    (hrun : (run step s es).map f = some b) : ∃ t, f t = b ∧ P t := by
  obtain ⟨t, ht, hb⟩ := Option.map_eq_some_iff.mp hrun
  exact ⟨t, hb, h.last ht⟩

/-- An invariant of every step holds at the end of a run. -/
theorem run_invariant (hstep : ∀ s e t, Inv s → step s e = some t → Inv t)
    {s t : σ} {es : List ι} (hs : Inv s) (hrun : run step s es = some t) : Inv t := by
  induction es generalizing s with
  | nil =>
      rw [run_nil, Option.some.injEq] at hrun
      exact hrun ▸ hs
  | cons e es ih =>
      obtain ⟨u, hu, hrun⟩ := run_cons_eq_some.mp hrun
      exact ih (hstep s e u hs hu) hrun

/-- What every step preserves of a state and the events that led to it holds at the end of a run. -/
theorem run_history {Hist : List ι → σ → Prop}
    (hstep : ∀ es s e t, Hist es s → step s e = some t → Hist (es ++ [e]) t) {s t : σ}
    {es fs : List ι} (hs : Hist es s) (hrun : run step s fs = some t) : Hist (es ++ fs) t := by
  induction fs generalizing s es with
  | nil =>
      rw [run_nil, Option.some.injEq] at hrun
      rw [List.append_nil]
      exact hrun ▸ hs
  | cons f fs ih =>
      obtain ⟨u, hu, hrun⟩ := run_cons_eq_some.mp hrun
      rw [List.append_cons]
      exact ih (hstep es s f u hs hu) hrun

/-- What the steps that meet `C` preserve of a state and the events that led to it holds at the end
of a run of such steps. -/
theorem run_history_of_eachStep {Hist : List ι → σ → Prop}
    (hstep : ∀ es s e t, Hist es s → C s e → step s e = some t → Hist (es ++ [e]) t) {s t : σ}
    {es fs : List ι} (hs : Hist es s) (hC : EachStep step C s fs) (hrun : run step s fs = some t) :
    Hist (es ++ fs) t := by
  induction fs generalizing s es with
  | nil =>
      rw [run_nil, Option.some.injEq] at hrun
      rw [List.append_nil]
      exact hrun ▸ hs
  | cons f fs ih =>
      obtain ⟨u, hu, hrun⟩ := run_cons_eq_some.mp hrun
      obtain ⟨hCf, hCs⟩ := hC u hu
      rw [List.append_cons]
      exact ih (hstep es s f u hs hCf hu) hCs hrun

/-- What holds at the end of a run and not at its beginning has begun to hold with one of the
events. -/
theorem run_exists_first {s t : σ} {es : List ι} (hrun : run step s es = some t) (hs : ¬ P s)
    (ht : P t) : ∃ before e after u v, es = before ++ e :: after ∧ run step s before = some u ∧
      ¬ P u ∧ step u e = some v ∧ P v ∧ run step v after = some t := by
  induction es generalizing s with
  | nil =>
      rw [run_nil, Option.some.injEq] at hrun
      exact absurd (hrun ▸ ht) hs
  | cons e es ih =>
      obtain ⟨u, hu, hrun⟩ := run_cons_eq_some.mp hrun
      by_cases hPu : P u
      · exact ⟨[], e, es, s, u, rfl, rfl, hs, hu, hPu, hrun⟩
      · obtain ⟨before, f, after, v, w, rfl, hv, hrest⟩ := ih hrun hPu
        exact ⟨e :: before, f, after, v, w, rfl, run_cons_eq_some.mpr ⟨u, hu, hv⟩, hrest⟩

/-- If the steps that meet `C` preserve an invariant that implies `P`, then `P` holds throughout
every run whose steps all meet `C`. -/
theorem always_of_eachStep (hstep : ∀ s e t, Inv s → C s e → step s e = some t → Inv t)
    (hP : ∀ s, Inv s → P s) {s : σ} {es : List ι} (hs : Inv s) (hC : EachStep step C s es) :
    Always step P s es := by
  induction es generalizing s with
  | nil => exact hP s hs
  | cons e es ih =>
      refine ⟨hP s hs, fun t ht => ?_⟩
      -- the first step meets `C`, so it keeps the invariant that the rest of the run starts from
      obtain ⟨hCs, hCt⟩ := hC t ht
      exact ih (hstep s e t hs hCs ht) hCt

/-- An invariant of every step that implies `P` makes `P` hold throughout every run. -/
theorem always_of_invariant (hstep : ∀ s e t, Inv s → step s e = some t → Inv t)
    (hP : ∀ s, Inv s → P s) {s : σ} (hs : Inv s) (es : List ι) : Always step P s es := by
  induction es generalizing s with
  | nil => exact hP s hs
  | cons e es ih => exact ⟨hP s hs, fun t ht => ih (hstep s e t hs ht)⟩

/-- Properties that agree on the states that an invariant allows hold throughout the same runs. -/
theorem always_congr (hstep : ∀ s e t, Inv s → step s e = some t → Inv t)
    (hPQ : ∀ s, Inv s → (P s ↔ Q s)) {s : σ} (hs : Inv s) (es : List ι) :
    Always step P s es ↔ Always step Q s es := by
  induction es generalizing s with
  | nil => exact hPQ s hs
  | cons e es ih =>
      exact and_congr (hPQ s hs) (forall₂_congr fun t ht => ih (hstep s e t hs ht))

/-- If a step out of an invariant state ends in `P` only when it meets `C`, then a run with `P`
throughout takes only steps that meet `C`. -/
theorem eachStep_of_always (hstep : ∀ s e t, Inv s → C s e → step s e = some t → Inv t)
    (hback : ∀ s e t, Inv s → step s e = some t → P t → C s e) {s : σ} {es : List ι}
    (hs : Inv s) (hP : Always step P s es) : EachStep step C s es := by
  induction es generalizing s with
  | nil => trivial
  | cons e es ih =>
      intro t ht
      -- `P` of the state after the step says that the step met `C`
      have hC : C s e := hback s e t hs ht (hP.2 t ht).head
      exact ⟨hC, ih (hstep s e t hs hC ht) (hP.2 t ht)⟩

variable (Inv) in
/-- The exact form: along a run from an invariant state, `P` holds throughout iff every step meets
`C`. -/
theorem always_iff_eachStep (hstep : ∀ s e t, Inv s → C s e → step s e = some t → Inv t)
    (hP : ∀ s, Inv s → P s) (hback : ∀ s e t, Inv s → step s e = some t → P t → C s e)
    {s : σ} (hs : Inv s) (es : List ι) : Always step P s es ↔ EachStep step C s es :=
  ⟨eachStep_of_always hstep hback hs, always_of_eachStep hstep hP hs⟩

/-- `EachStep` over a run splits at any point. -/
theorem eachStep_append {s : σ} {es fs : List ι} :
    EachStep step C s (es ++ fs) ↔
      EachStep step C s es ∧ ∀ t, run step s es = some t → EachStep step C t fs := by
  induction es generalizing s with
  | nil =>
      refine ⟨fun h => ⟨trivial, fun t ht => ?_⟩, fun h => h.2 s rfl⟩
      rw [run_nil, Option.some.injEq] at ht
      exact ht ▸ h
  | cons e es ih =>
      constructor
      · intro h
        refine ⟨fun t ht => ⟨(h t ht).1, (ih.mp (h t ht).2).1⟩, fun u hu => ?_⟩
        obtain ⟨t, ht, hrun⟩ := run_cons_eq_some.mp hu
        exact (ih.mp (h t ht).2).2 u hrun
      · rintro ⟨h, hfs⟩ t ht
        refine ⟨(h t ht).1, ih.mpr ⟨(h t ht).2, fun u hu => ?_⟩⟩
        exact hfs u (run_cons_eq_some.mpr ⟨t, ht, hu⟩)

/-- A condition that holds of an event in every state holds of every step of its repetition. -/
theorem eachStep_replicate {d : ι} (hd : ∀ s, C s d) (n : ℕ) (s : σ) :
    EachStep step C s (List.replicate n d) := by
  induction n generalizing s with
  | zero => trivial
  | succ n ih => exact fun t _ => ⟨hd s, ih t⟩

/-! ## Events that come up -/

/-- A condition that holds of every event in every state. -/
theorem eachEvent_of_forall (h : ∀ s e, C s e) (s : σ) (es : List ι) : EachEvent step C s es := by
  induction es generalizing s with
  | nil => trivial
  | cons e es ih => exact ⟨h s e, fun t _ => ih t⟩

/-- In a run that happens, every event does. -/
theorem eachEvent_of_run (h : ∀ s e t, step s e = some t → C s e) {s t : σ} {es : List ι}
    (hrun : run step s es = some t) : EachEvent step C s es := by
  induction es generalizing s with
  | nil => trivial
  | cons e es ih =>
      obtain ⟨u, hu, hrun⟩ := run_cons_eq_some.mp hrun
      refine ⟨h s e u hu, fun v hv => ?_⟩
      obtain rfl := Option.some.inj (hu.symm.trans hv)
      exact ih hrun

/-- Conditions that agree on the states that an invariant allows hold of the events of the same
runs. -/
theorem eachEvent_congr (hstep : ∀ s e t, Inv s → step s e = some t → Inv t)
    (hCD : ∀ s e, Inv s → (C s e ↔ D s e)) {s : σ} (hs : Inv s) (es : List ι) :
    EachEvent step C s es ↔ EachEvent step D s es := by
  induction es generalizing s with
  | nil => rfl
  | cons e es ih =>
      exact and_congr (hCD s e hs) (forall₂_congr fun t ht => ih (hstep s e t hs ht))

/-- Repetitions of an event that meets `C` in every state. -/
theorem EachEvent.append_replicate {d : ι} (hd : ∀ s, C s d) {s : σ} {es : List ι}
    (h : EachEvent step C s es) (n : ℕ) : EachEvent step C s (es ++ List.replicate n d) := by
  induction es generalizing s with
  | nil =>
      induction n generalizing s with
      | zero => trivial
      | succ n ih => exact ⟨hd s, fun t _ => ih trivial⟩
  | cons e es ih => exact ⟨h.1, fun t ht => ih (h.2 t ht)⟩

/-! ## Progress -/

/-- While the goal has not been reached, some step meets `C` and comes nearer to it. Then a run of
such steps reaches it. -/
theorem exists_run_of_progress {Goal : σ → Prop} {near : σ → σ → Prop} (hnear : WellFounded near)
    (hprogress : ∀ s, Inv s → ¬ Goal s → ∃ e t, step s e = some t ∧ C s e ∧ Inv t ∧ near t s)
    {s : σ} (hs : Inv s) :
    ∃ es t, run step s es = some t ∧ EachStep step C s es ∧ Inv t ∧ Goal t := by
  induction s using hnear.induction with
  | _ s ih =>
      by_cases hgoal : Goal s
      · exact ⟨[], s, rfl, trivial, hs, hgoal⟩
      obtain ⟨e, u, hu, hC, hInv, hlt⟩ := hprogress s hs hgoal
      obtain ⟨es, t, hrun, hes, ht⟩ := ih u hlt hInv
      refine ⟨e :: es, t, run_cons_eq_some.mpr ⟨u, hu, hrun⟩, fun v hv => ?_, ht⟩
      obtain rfl := Option.some.inj (hv.symm.trans hu)
      exact ⟨hC, hes⟩

/-! ## Draining

A defect may show only after the run, when what is still outstanding is delivered. -/

section Drain

variable (step P) in
/-- `P` holds throughout the run `es` and while, after it, the event `d` happens any number of
times. -/
def AlwaysDrained (d : ι) (s : σ) (es : List ι) : Prop :=
  ∀ n, Always step P s (es ++ List.replicate n d)

variable {d : ι}

/-- A drained run is drained after its first step. -/
theorem AlwaysDrained.tail {s t : σ} {e : ι} {es : List ι}
    (h : AlwaysDrained step P d s (e :: es)) (ht : step s e = some t) :
    AlwaysDrained step P d t es := fun n => (h n).2 t ht

/-- The first state of a drained run. -/
theorem AlwaysDrained.head {s : σ} {es : List ι} (h : AlwaysDrained step P d s es) : P s :=
  (h 0).head

/-- Draining by one more event. -/
theorem AlwaysDrained.drain {s t : σ} (h : AlwaysDrained step P d s []) (ht : step s d = some t) :
    AlwaysDrained step P d t [] := fun n => (h (n + 1)).2 t ht

/-- If the drain meets `C` and a step that does not meet `C` leads to states from which no drained
run keeps `P`, then `P` holds throughout the drained run iff every step of the run meets `C`. -/
theorem alwaysDrained_iff_eachStep
    (hstep : ∀ s e t, Inv s → C s e → step s e = some t → Inv t) (hP : ∀ s, Inv s → P s)
    (hd : ∀ s, C s d)
    (hdoom : ∀ s e t es, Inv s → ¬ C s e → step s e = some t → ¬ AlwaysDrained step P d t es)
    {s : σ} (hs : Inv s) (es : List ι) :
    AlwaysDrained step P d s es ↔ EachStep step C s es := by
  constructor
  · intro h
    induction es generalizing s with
    | nil => trivial
    | cons e es ih =>
        intro t ht
        have hC : C s e := by
          -- otherwise the rest of the drained run could not keep `P`
          by_contra hC
          exact hdoom s e t es hs hC ht (h.tail ht)
        exact ⟨hC, ih (hstep s e t hs hC ht) (h.tail ht)⟩
  -- the drain itself meets `C`, so the whole run does
  · intro hC n
    have hCn : EachStep step C s (es ++ List.replicate n d) :=
      eachStep_append.mpr ⟨hC, fun t _ => eachStep_replicate hd n t⟩
    exact always_of_eachStep hstep hP hs hCn

/-- The drained form of `always_congr`. -/
theorem alwaysDrained_congr (hstep : ∀ s e t, Inv s → step s e = some t → Inv t)
    (hPQ : ∀ s, Inv s → (P s ↔ Q s)) {s : σ} (hs : Inv s) (es : List ι) :
    AlwaysDrained step P d s es ↔ AlwaysDrained step Q d s es :=
  forall_congr' fun _ => always_congr hstep hPQ hs _

end Drain

/-! ## Homomorphisms

A homomorphism may be one on some of the events only. -/

section Map

variable {step' : τ → κ → Option τ} {f : σ → τ} {g : ι → κ}

/-- A homomorphism on the events of a run maps it to a run. -/
theorem run_map_of_eachEvent (hom : ∀ s e, C s e → (step s e).map f = step' (f s) (g e)) {s : σ}
    {es : List ι} (hC : EachEvent step C s es) :
    (run step s es).map f = run step' (f s) (es.map g) := by
  induction es generalizing s with
  | nil => rfl
  | cons e es ih =>
      rw [List.map_cons, run_cons, run_cons, ← hom s e hC.1]
      cases ht : step s e with
      | none => rfl
      | some t => exact ih (hC.2 t ht)

/-- A property of the image holds throughout a run iff it holds throughout the image of the run. -/
theorem always_map_of_eachEvent (hom : ∀ s e, C s e → (step s e).map f = step' (f s) (g e))
    (P' : τ → Prop) {s : σ} {es : List ι} (hC : EachEvent step C s es) :
    Always step (fun s => P' (f s)) s es ↔ Always step' P' (f s) (es.map g) := by
  induction es generalizing s with
  | nil => rfl
  | cons e es ih =>
      simp only [List.map_cons, Always, ← hom s e hC.1, Option.map_eq_some_iff]
      refine and_congr_right fun _ => ⟨?_, ?_⟩
      · rintro h _ ⟨t, ht, rfl⟩
        exact (ih (hC.2 t ht)).mp (h t ht)
      · exact fun h t ht => (ih (hC.2 t ht)).mpr (h (f t) ⟨t, ht, rfl⟩)

/-- The drained form of `always_map_of_eachEvent`. -/
theorem alwaysDrained_map_of_eachEvent
    (hom : ∀ s e, C s e → (step s e).map f = step' (f s) (g e)) (P' : τ → Prop) {d : ι}
    (hd : ∀ s, C s d) {s : σ} {es : List ι} (hC : EachEvent step C s es) :
    AlwaysDrained step (fun s => P' (f s)) d s es ↔
      AlwaysDrained step' P' (g d) (f s) (es.map g) := by
  refine forall_congr' fun n => ?_
  rw [always_map_of_eachEvent hom P' (hC.append_replicate hd n), List.map_append,
    List.map_replicate]

/-- A condition on the image holds of every step iff it holds of every step of the image. -/
theorem eachStep_map_of_eachEvent (hom : ∀ s e, C s e → (step s e).map f = step' (f s) (g e))
    (C' : τ → κ → Prop) {s : σ} {es : List ι} (hC : EachEvent step C s es) :
    EachStep step (fun s e => C' (f s) (g e)) s es ↔ EachStep step' C' (f s) (es.map g) := by
  induction es generalizing s with
  | nil => rfl
  | cons e es ih =>
      simp only [List.map_cons, EachStep, ← hom s e hC.1, Option.map_eq_some_iff]
      constructor
      · rintro h _ ⟨t, ht, rfl⟩
        exact ⟨(h t ht).1, (ih (hC.2 t ht)).mp (h t ht).2⟩
      · intro h t ht
        exact ⟨(h (f t) ⟨t, ht, rfl⟩).1, (ih (hC.2 t ht)).mpr (h (f t) ⟨t, ht, rfl⟩).2⟩

/-- A homomorphism maps runs to runs. -/
theorem run_map (hom : ∀ s e, (step s e).map f = step' (f s) (g e)) (s : σ) (es : List ι) :
    (run step s es).map f = run step' (f s) (es.map g) :=
  run_map_of_eachEvent (fun s e _ => hom s e) (eachEvent_of_forall (fun _ _ => trivial) s es)

theorem alwaysDrained_map (hom : ∀ s e, (step s e).map f = step' (f s) (g e)) (P' : τ → Prop)
    (d : ι) (s : σ) (es : List ι) :
    AlwaysDrained step (fun s => P' (f s)) d s es ↔
      AlwaysDrained step' P' (g d) (f s) (es.map g) :=
  alwaysDrained_map_of_eachEvent (fun s e _ => hom s e) P' (fun _ => trivial)
    (eachEvent_of_forall (fun _ _ => trivial) s es)

theorem eachStep_map (hom : ∀ s e, (step s e).map f = step' (f s) (g e)) (C' : τ → κ → Prop)
    (s : σ) (es : List ι) :
    EachStep step (fun s e => C' (f s) (g e)) s es ↔ EachStep step' C' (f s) (es.map g) :=
  eachStep_map_of_eachEvent (fun s e _ => hom s e) C'
    (eachEvent_of_forall (fun _ _ => trivial) s es)

end Map

/-! ## Simulation -/

section Simulation

variable {step' : τ → κ → Option τ} {R : σ → τ → Prop} {g : ι → List κ}

/-- If every step is matched by a run of the other function, which may be empty, then so is every
run. -/
theorem run_simulation
    (hsim : ∀ s e s' t, R s t → step s e = some s' → ∃ t', run step' t (g e) = some t' ∧ R s' t')
    {s s' : σ} {t : τ} {es : List ι} (hR : R s t) (hrun : run step s es = some s') :
    ∃ t', run step' t (es.flatMap g) = some t' ∧ R s' t' := by
  induction es generalizing s t with
  | nil =>
      rw [run_nil, Option.some.injEq] at hrun
      exact ⟨t, rfl, hrun ▸ hR⟩
  | cons e es ih =>
      obtain ⟨u, hu, hrun⟩ := run_cons_eq_some.mp hrun
      -- the step is matched from `t` on, and the rest of the run from where that leads
      obtain ⟨v, hv, hRv⟩ := hsim s e u t hR hu
      obtain ⟨t', ht', hR'⟩ := ih hRv hrun
      exact ⟨t', by rw [List.flatMap_cons, run_append, hv, Option.bind_some, ht'], hR'⟩

end Simulation

end StateMachine
