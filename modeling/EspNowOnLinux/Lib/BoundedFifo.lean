import EspNowOnLinux.Lib.StateMachine
import Mathlib.Algebra.Ring.Nat
import Mathlib.Data.List.DropRight

/-!
# A bounded queue

A queue that holds at most `capacity` elements: elements are pushed to the back, several at a time,
popped from the front, and all of them can be dropped at once.

* `BoundedFifo.step` is the transition function; an operation that would exceed the capacity, or pop
  more than there is, cannot happen;
* `pushed ops` and `popped ops` are what the operations since the last `clear` have pushed and how
  many elements they have popped;
* `contents_run`: the contents after any run are what was pushed without what was popped.
-/

open StateMachine

/-- A queue of at most `capacity` elements. -/
@[ext]
structure BoundedFifo (α : Type*) (capacity : ℕ) where
  /-- The elements, first in first out. -/
  contents : List α
  length_le : contents.length ≤ capacity
  deriving DecidableEq

namespace BoundedFifo

variable {α : Type*} {capacity : ℕ}

/-- The queue without elements. -/
def empty : BoundedFifo α capacity := ⟨[], Nat.zero_le _⟩

/-- The operations of a queue. -/
inductive Operation (α : Type*)
  /-- Elements are pushed to the back, in order. -/
  | push (xs : List α)
  /-- This many elements are popped from the front. -/
  | pop (n : ℕ)
  /-- All elements are dropped. -/
  | clear
  deriving DecidableEq

/-- The queue after an operation. -/
def step (q : BoundedFifo α capacity) : Operation α → Option (BoundedFifo α capacity)
  | .push xs =>
      if h : q.contents.length + xs.length ≤ capacity then
        some ⟨q.contents ++ xs, by rwa [List.length_append]⟩
      else none
  | .pop n =>
      if n ≤ q.contents.length then
        some ⟨q.contents.drop n, by
          rw [List.length_drop]
          exact (Nat.sub_le _ _).trans q.length_le⟩
      else none
  | .clear => some empty

section Step

variable {q q' : BoundedFifo α capacity}

theorem step_push {xs : List α} (h : q'.contents = q.contents ++ xs) :
    q.step (.push xs) = some q' := by
  have hle := q'.length_le
  rw [h, List.length_append] at hle
  obtain ⟨contents, hlength⟩ := q'
  obtain rfl : contents = q.contents ++ xs := h
  exact dif_pos hle

theorem step_pop {n : ℕ} (hle : n ≤ q.contents.length) (h : q'.contents = q.contents.drop n) :
    q.step (.pop n) = some q' := by
  obtain ⟨contents, hlength⟩ := q'
  obtain rfl : contents = q.contents.drop n := h
  exact if_pos hle

theorem step_clear (h : q'.contents = []) : q.step .clear = some q' :=
  congrArg some (BoundedFifo.ext h.symm)

/-- What an operation can do. -/
theorem step_cases {op : Operation α} (h : q.step op = some q') :
    (∃ xs, op = .push xs ∧ q'.contents = q.contents ++ xs) ∨
      (∃ n, op = .pop n ∧ n ≤ q.contents.length ∧ q'.contents = q.contents.drop n) ∨
      (op = .clear ∧ q'.contents = []) := by
  cases op with
  | push xs =>
      simp only [step] at h
      split at h
      · obtain rfl := Option.some.inj h
        exact Or.inl ⟨xs, rfl, rfl⟩
      · cases h
  | pop n =>
      simp only [step] at h
      split at h
      · next hle =>
        obtain rfl := Option.some.inj h
        exact Or.inr (Or.inl ⟨n, rfl, hle, rfl⟩)
      · cases h
  | clear =>
      obtain rfl := Option.some.inj h
      exact Or.inr (Or.inr ⟨rfl, rfl⟩)

end Step

/-! ## What has been pushed and popped -/

namespace Operation

/-- The elements that an operation pushes. -/
def pushed : Operation α → List α
  | push xs => xs
  | _ => []

/-- How many elements an operation pops. -/
def popped : Operation α → ℕ
  | pop n => n
  | _ => 0

/-- The operation drops everything. -/
def isClear : Operation α → Bool
  | clear => true
  | _ => false

end Operation

/-- The operations since the last `clear`. -/
def sinceClear (ops : List (Operation α)) : List (Operation α) :=
  ops.rtakeWhile fun op => !op.isClear

/-- What has been pushed since the last `clear`, in order. -/
def pushed (ops : List (Operation α)) : List α := (sinceClear ops).flatMap Operation.pushed

/-- How many elements have been popped since the last `clear`. -/
def popped (ops : List (Operation α)) : ℕ := ((sinceClear ops).map Operation.popped).sum

section History

variable (ops : List (Operation α))

theorem sinceClear_concat {op : Operation α} (h : op.isClear = false) :
    sinceClear (ops ++ [op]) = sinceClear ops ++ [op] :=
  List.rtakeWhile_concat_pos _ _ _ (by rw [h]; rfl)

theorem sinceClear_clear : sinceClear (ops ++ [.clear]) = [] :=
  List.rtakeWhile_concat_neg _ _ _ (by simp [Operation.isClear])

theorem pushed_concat {op : Operation α} (h : op.isClear = false) :
    pushed (ops ++ [op]) = pushed ops ++ op.pushed := by
  rw [pushed, sinceClear_concat ops h, List.flatMap_append, List.flatMap_singleton]
  rfl

theorem popped_concat {op : Operation α} (h : op.isClear = false) :
    popped (ops ++ [op]) = popped ops + op.popped := by
  rw [popped, sinceClear_concat ops h, List.map_append, List.sum_append]
  rfl

theorem pushed_clear : pushed (ops ++ [.clear]) = [] := by
  rw [pushed, sinceClear_clear, List.flatMap_nil]

theorem popped_clear : popped (ops ++ [.clear]) = 0 := by
  rw [popped, sinceClear_clear]
  rfl

end History

/-- After any run the queue holds what has been pushed since the last `clear`, in order, without
what has been popped. -/
theorem contents_run {ops : List (Operation α)} {q : BoundedFifo α capacity}
    (h : run step empty ops = some q) :
    popped ops ≤ (pushed ops).length ∧ q.contents = (pushed ops).drop (popped ops) := by
  induction ops using List.reverseRecOn generalizing q with
  | nil =>
      obtain rfl := Option.some.inj h
      exact ⟨le_rfl, rfl⟩
  | append_singleton ops op ih =>
      rw [run_append] at h
      obtain ⟨p, hp, hlast⟩ := Option.bind_eq_some_iff.mp h
      obtain ⟨_, hstep, hq⟩ := run_cons_eq_some.mp hlast
      obtain rfl := Option.some.inj hq
      obtain ⟨hle, hcontents⟩ := ih hp
      rcases step_cases hstep with ⟨xs, rfl, hnew⟩ | ⟨n, rfl, hn, hnew⟩ | ⟨rfl, hnew⟩
      -- what is pushed comes behind what was, and no more than that has been popped
      · rw [pushed_concat ops rfl, popped_concat ops rfl]
        refine ⟨by rw [List.length_append]; exact hle.trans (Nat.le_add_right _ _), ?_⟩
        rw [hnew, hcontents]
        exact (List.drop_append_of_le_length hle).symm
      · rw [pushed_concat ops rfl, popped_concat ops rfl]
        simp only [Operation.pushed, Operation.popped, List.append_nil]
        rw [hcontents, List.length_drop] at hn
        exact ⟨by omega, by rw [hnew, hcontents, List.drop_drop]⟩
      -- the history starts anew
      · rw [pushed_clear, popped_clear]
        exact ⟨le_rfl, hnew⟩

end BoundedFifo
