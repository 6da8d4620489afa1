import Mathlib.Algebra.Ring.Parity
import Mathlib.Tactic.Common

/-!
Counters that start again after `period` counts, and the square waves of the
outputs that they toggle.
-/

namespace AutomaticDoor.Foundations.SquareWaves

/-- The level, low at first, of an output toggled after each `period` counts. -/
def squareWave (period count : Nat) : Bool := decide (Odd (count / period))

variable {period count : Nat}

@[simp] theorem squareWave_zero (period : Nat) : squareWave period 0 = false := by
  simp [squareWave]

theorem mod_succ_of_wrap (h : count % period + 1 = period) :
    (count + 1) % period = 0 := by
  rw [← Nat.mod_add_mod, h, Nat.mod_self]

theorem div_succ_of_wrap (h : count % period + 1 = period) :
    (count + 1) / period = count / period + 1 := by
  apply Nat.succ_div_of_mod_eq_zero
  exact mod_succ_of_wrap h

theorem mod_succ_of_lt (h : count % period + 1 < period) :
    (count + 1) % period = count % period + 1 := by
  rw [← Nat.mod_add_mod, Nat.mod_eq_of_lt h]

theorem div_succ_of_lt (h : count % period + 1 < period) :
    (count + 1) / period = count / period := by
  apply Nat.succ_div_of_mod_ne_zero
  rw [mod_succ_of_lt h]
  exact Nat.succ_ne_zero _

theorem squareWave_succ_of_wrap (h : count % period + 1 = period) :
    squareWave period (count + 1) = !squareWave period count := by
  rw [squareWave, squareWave, div_succ_of_wrap h, ← decide_not]
  simp only [Nat.odd_add_one]

theorem squareWave_succ_of_lt (h : count % period + 1 < period) :
    squareWave period (count + 1) = squareWave period count := by
  rw [squareWave, squareWave, div_succ_of_lt h]

/-- A whole number of periods is reached for the first time when the counter
starts again for the first time. -/
theorem period_le_succ_iff_of_lt (h : count < period) :
    period ≤ count + 1 ↔ count % period + 1 = period := by
  rw [Nat.mod_eq_of_lt h]
  omega

end AutomaticDoor.Foundations.SquareWaves
