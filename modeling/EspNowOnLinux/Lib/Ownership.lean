import Mathlib.Data.Set.Insert
import Mathlib.Logic.Function.Basic

/-!
# Tokens with at most one owner

A population of objects, each of which owns one token or none: `owner x = some k`. Objects take a
new token, give theirs up, or hand it to another object, and no token ever has two owners.

* `Exclusive owner`: no token has two owners;
* `tokens owner`: the tokens that have an owner;
* for each of the three operations, what it does to `tokens`, and that `Exclusive` is kept.
-/

namespace Ownership

variable {γ κ : Type*}

/-- No token has two owners. -/
def Exclusive (owner : γ → Option κ) : Prop :=
  ∀ x y k, owner x = some k → owner y = some k → x = y

/-- The tokens that have an owner. -/
def tokens (owner : γ → Option κ) : Set κ := {k | ∃ x, owner x = some k}

variable {owner : γ → Option κ} {x y : γ} {k : κ}

/-- A token that has an owner has just one. -/
theorem Exclusive.existsUnique (h : Exclusive owner) (hk : k ∈ tokens owner) :
    ∃! x, owner x = some k := by
  obtain ⟨x, hx⟩ := hk
  exact ⟨x, hx, fun y hy => h y x k hy hx⟩

/-- Where nobody owns anything, no token has an owner. -/
theorem exclusive_none : Exclusive (fun _ : γ => (none : Option κ)) :=
  fun _ _ _ h => absurd h (Option.some_ne_none _).symm

variable [DecidableEq γ]

/-- An object gives up its token. -/
def release (owner : γ → Option κ) (x : γ) : γ → Option κ := Function.update owner x none

/-- An object takes a token. -/
def acquire (owner : γ → Option κ) (x : γ) (k : κ) : γ → Option κ :=
  Function.update owner x (some k)

/-- The object `y` hands what it owns to `x`. -/
def transfer (owner : γ → Option κ) (x y : γ) : γ → Option κ :=
  Function.update (Function.update owner x (owner y)) y none

theorem release_eq_some {z : γ} : release owner x z = some k ↔ z ≠ x ∧ owner z = some k := by
  by_cases hz : z = x
  · subst hz
    simp [release]
  · simp [release, hz]

theorem acquire_eq_some {z : γ} {k' : κ} :
    acquire owner x k z = some k' ↔ (z = x ∧ k = k') ∨ (z ≠ x ∧ owner z = some k') := by
  by_cases hz : z = x
  · subst hz
    simp [acquire]
  · simp [acquire, hz]

theorem transfer_eq_some {z : γ} (hne : x ≠ y) :
    transfer owner x y z = some k ↔
      (z = x ∧ owner y = some k) ∨ (z ≠ x ∧ z ≠ y ∧ owner z = some k) := by
  by_cases hy : z = y
  · subst hy
    simp [transfer, hne.symm]
  by_cases hx : z = x
  · subst hx
    simp [transfer, Function.update_of_ne hne]
  · simp [transfer, hx, hy]

/-- An object that owns nothing has nothing to give up. -/
theorem release_of_none (hx : owner x = none) : release owner x = owner := by
  rw [release, ← hx, Function.update_eq_self]

theorem Exclusive.release (h : Exclusive owner) (x : γ) : Exclusive (release owner x) := by
  intro y z k hy hz
  exact h y z k (release_eq_some.mp hy).2 (release_eq_some.mp hz).2

/-- What an object gives up has no owner any more. -/
theorem mem_tokens_release (h : Exclusive owner) :
    k ∈ tokens (Ownership.release owner x) ↔ k ∈ tokens owner ∧ owner x ≠ some k := by
  constructor
  · rintro ⟨z, hz⟩
    obtain ⟨hne, hz⟩ := release_eq_some.mp hz
    exact ⟨⟨z, hz⟩, fun hx => hne (h z x k hz hx)⟩
  · rintro ⟨⟨z, hz⟩, hx⟩
    refine ⟨z, release_eq_some.mpr ⟨fun hzx => ?_, hz⟩⟩
    exact hx (hzx ▸ hz)

/-- A token that nobody owned has one owner. -/
theorem Exclusive.acquire (h : Exclusive owner) (x : γ) (hk : k ∉ tokens owner) :
    Exclusive (acquire owner x k) := by
  intro y z k' hy hz
  rcases acquire_eq_some.mp hy with ⟨rfl, rfl⟩ | ⟨-, hy⟩
  · rcases acquire_eq_some.mp hz with ⟨rfl, -⟩ | ⟨-, hz⟩
    · rfl
    · exact absurd ⟨z, hz⟩ hk
  · rcases acquire_eq_some.mp hz with ⟨-, rfl⟩ | ⟨-, hz⟩
    · exact absurd ⟨y, hy⟩ hk
    · exact h y z k' hy hz

theorem mem_tokens_acquire {k' : κ} (hx : owner x = none) :
    k' ∈ tokens (Ownership.acquire owner x k) ↔ k' = k ∨ k' ∈ tokens owner := by
  constructor
  · rintro ⟨z, hz⟩
    rcases acquire_eq_some.mp hz with ⟨-, rfl⟩ | ⟨-, hz⟩
    · exact Or.inl rfl
    · exact Or.inr ⟨z, hz⟩
  · rintro (rfl | ⟨z, hz⟩)
    · exact ⟨x, acquire_eq_some.mpr (Or.inl ⟨rfl, rfl⟩)⟩
    · refine ⟨z, acquire_eq_some.mpr (Or.inr ⟨fun hzx => ?_, hz⟩)⟩
      rw [hzx, hx] at hz
      cases hz

theorem Exclusive.transfer (h : Exclusive owner) (hne : x ≠ y) :
    Exclusive (transfer owner x y) := by
  intro z z' k hz hz'
  -- the new owner of what `y` gave up, and an owner that `transfer` does not touch, are different
  rcases (transfer_eq_some hne).mp hz with ⟨rfl, hy⟩ | ⟨-, hzy, hold⟩
  · rcases (transfer_eq_some hne).mp hz' with ⟨rfl, -⟩ | ⟨-, hzy', hold'⟩
    · rfl
    · exact absurd (h z' y k hold' hy) hzy'
  · rcases (transfer_eq_some hne).mp hz' with ⟨rfl, hy'⟩ | ⟨-, -, hold'⟩
    · exact absurd (h z y k hold hy') hzy
    · exact h z z' k hold hold'

/-- Handing a token to an object that owns nothing leaves the same tokens owned. -/
theorem tokens_transfer (hne : x ≠ y) (hx : owner x = none) :
    tokens (Ownership.transfer owner x y) = tokens owner := by
  ext k
  constructor
  · rintro ⟨z, hz⟩
    rcases (transfer_eq_some hne).mp hz with ⟨-, hy⟩ | ⟨-, -, hz⟩
    · exact ⟨y, hy⟩
    · exact ⟨z, hz⟩
  · rintro ⟨z, hz⟩
    -- what `y` owned is now owned by `x`
    by_cases hzy : z = y
    · subst hzy
      exact ⟨x, (transfer_eq_some hne).mpr (Or.inl ⟨rfl, hz⟩)⟩
    · refine ⟨z, (transfer_eq_some hne).mpr (Or.inr ⟨fun hzx => ?_, hzy, hz⟩)⟩
      rw [hzx, hx] at hz
      cases hz

end Ownership
