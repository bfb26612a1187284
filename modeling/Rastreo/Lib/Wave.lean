import Mathlib.Data.Nat.Basic
import Mathlib.Logic.Function.Iterate
import Mathlib.Tactic.Linarith

/-!
# Square waves

A signal that a down counter drives: `waveStep d` is one tick of a level and the ticks it still
lasts, where a new level `b` lasts `d b` ticks.

* `waveStep_before`, `waveStep_change`: a level stays until its ticks are over, and then changes.
* `waveStep_level`: from the start of a level, the signal is periodic.
-/

namespace Rastreo.Lib

/-- One tick: the level changes with the last of its ticks. -/
def waveStep (d : Bool → ℕ) (s : Bool × ℕ) : Bool × ℕ :=
  if s.2 ≤ 1 then (!s.1, d !s.1) else (s.1, s.2 - 1)

section Wave

variable {d : Bool → ℕ} {b : Bool} {n r : ℕ}

theorem waveStep_before (h : n < r) : (waveStep d)^[n] (b, r) = (b, r - n) := by
  induction n with
  | zero => rfl
  | succ n ih =>
    rw [Function.iterate_succ_apply', ih (by omega), waveStep, if_neg (by dsimp only; omega)]
    rfl

theorem waveStep_change (h : 0 < r) : (waveStep d)^[r] (b, r) = (!b, d !b) := by
  obtain ⟨n, rfl⟩ := Nat.exists_eq_succ_of_ne_zero h.ne'
  rw [Function.iterate_succ_apply', waveStep_before (Nat.lt_succ_self n), waveStep,
    if_pos (by dsimp only; omega)]

/-- A level and the other one make a period. -/
theorem waveStep_period (hd : ∀ b, 0 < d b) (b : Bool) :
    (waveStep d)^[d b + d !b] (b, d b) = (b, d b) := by
  rw [Nat.add_comm, Function.iterate_add_apply, waveStep_change (hd b), waveStep_change (hd !b),
    Bool.not_not]

/-- **The signal is periodic**: it has the level it starts with in the first ticks of each period. -/
theorem waveStep_level (hd : ∀ b, 0 < d b) (b : Bool) (n : ℕ) :
    ((waveStep d)^[n] (b, d b)).1 = if n % (d b + d !b) < d b then b else !b := by
  have hmul : ∀ k, (waveStep d)^[(d b + d !b) * k] (b, d b) = (b, d b) := by
    intro k
    rw [Function.iterate_mul]
    exact Function.iterate_fixed (waveStep_period hd b) k
  have hpos := hd b
  have hlt : n % (d b + d !b) < d b + d !b := Nat.mod_lt _ (by omega)
  rw [← Nat.mod_add_div n (d b + d !b), Function.iterate_add_apply, hmul, Nat.add_mul_mod_self_left,
    Nat.mod_mod]
  by_cases h : n % (d b + d !b) < d b
  · rw [if_pos h, waveStep_before h]
  · -- the rest is in the other level
    obtain ⟨k, hk⟩ := Nat.exists_eq_add_of_le (Nat.not_lt.mp h)
    rw [if_neg h, hk, Nat.add_comm, Function.iterate_add_apply, waveStep_change hpos,
      waveStep_before (by omega)]

end Wave

end Rastreo.Lib
