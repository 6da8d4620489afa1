import Mathlib.Algebra.Order.Round
import Mathlib.Algebra.Order.Floor.Semiring
import Mathlib.Tactic.Linarith
import Mathlib.Tactic.Ring
import Mathlib.Tactic.FieldSimp
import Mathlib.Tactic.Positivity
import Mathlib.Tactic.Push

/-!
Approximating a count by a product `reload * divisor` whose first factor has a
bounded range.  The divisor is the least one for which the nearest reload
value fits, and the product is then as close as half a divisor to the count
and monotone in it.
-/

namespace AutomaticDoor.Foundations.CountDivision

variable {α : Type*} [Field α] [LinearOrder α] [IsStrictOrderedRing α]
  [FloorRing α]

/-- The reload value nearest to `x / divisor`, halves rounded up. -/
def reload (divisor : Nat) (x : α) : Int := round (x / divisor)

def produced (divisor : Nat) (x : α) : Int := reload divisor x * divisor

/-- The least positive divisor of `x` whose reload value is at most
`capacity`. -/
def leastDivisor (capacity : Nat) (x : α) : Nat :=
  ⌊x / (capacity + 1 / 2)⌋₊ + 1

omit [IsStrictOrderedRing α] in
theorem leastDivisor_pos (capacity : Nat) (x : α) :
    0 < leastDivisor capacity x := Nat.succ_pos _

private theorem capacity_add_half_pos (capacity : Nat) :
    (0 : α) < capacity + 1 / 2 := by
  have hcapacity : (0 : α) ≤ capacity := Nat.cast_nonneg capacity
  linarith

theorem leastDivisor_eq_iff (capacity k : Nat) {x : α} (hx : 0 ≤ x) :
    leastDivisor capacity x = k + 1 ↔
      (k : α) * (capacity + 1 / 2) ≤ x ∧
        x < ((k : α) + 1) * (capacity + 1 / 2) := by
  have hpos := capacity_add_half_pos (α := α) capacity
  have hquotient : 0 ≤ x / ((capacity : α) + 1 / 2) := div_nonneg hx hpos.le
  rw [leastDivisor, Nat.add_right_cancel_iff, Nat.floor_eq_iff hquotient,
    le_div_iff₀ hpos, div_lt_iff₀ hpos]

theorem leastDivisor_mono (capacity : Nat) {x y : α} (hxy : x ≤ y) :
    leastDivisor capacity x ≤ leastDivisor capacity y := by
  have hpos := capacity_add_half_pos (α := α) capacity
  exact Nat.succ_le_succ (Nat.floor_le_floor
    (div_le_div_of_nonneg_right hxy hpos.le))

theorem lt_leastDivisor_mul (capacity : Nat) {x : α} (hx : 0 ≤ x) :
    x < (leastDivisor capacity x : α) * (capacity + 1 / 2) := by
  have h := ((leastDivisor_eq_iff capacity _ hx).mp rfl).2
  simpa [leastDivisor] using h

theorem pred_leastDivisor_mul_le (capacity : Nat) {x : α} (hx : 0 ≤ x) :
    ((leastDivisor capacity x : α) - 1) * (capacity + 1 / 2) ≤ x := by
  have h := ((leastDivisor_eq_iff capacity _ hx).mp rfl).1
  simpa [leastDivisor] using h

theorem abs_produced_sub_le {divisor : Nat} (hdivisor : 0 < divisor) (x : α) :
    |(produced divisor x : α) - x| ≤ divisor / 2 := by
  have hpos : (0 : α) < divisor := Nat.cast_pos.mpr hdivisor
  have hround := abs_sub_round (x / (divisor : α))
  calc
    |(produced divisor x : α) - x| =
        |(divisor : α) * (x / divisor - round (x / (divisor : α)))| := by
      rw [abs_sub_comm, mul_sub, mul_div_cancel₀ x hpos.ne']
      simp [produced, reload, mul_comm]
    _ = divisor * |x / divisor - round (x / (divisor : α))| := by
      rw [abs_mul, abs_of_pos hpos]
    _ ≤ divisor * (1 / 2) := mul_le_mul_of_nonneg_left hround hpos.le
    _ = divisor / 2 := by ring

theorem reload_mono (divisor : Nat) {x y : α} (hxy : x ≤ y) :
    reload divisor x ≤ reload divisor y := by
  have hdiv : x / (divisor : α) ≤ y / divisor :=
    div_le_div_of_nonneg_right hxy (Nat.cast_nonneg divisor)
  rw [reload, reload, round_eq, round_eq]
  exact Int.floor_le_floor (add_le_add_left hdiv _)

theorem le_reload {divisor : Nat} (hdivisor : 0 < divisor) {m : Int} {x : α}
    (h : (m : α) * divisor ≤ x) : m ≤ reload divisor x := by
  have hpos : (0 : α) < divisor := Nat.cast_pos.mpr hdivisor
  have hm : (m : α) ≤ x / divisor := (le_div_iff₀ hpos).mpr h
  rw [reload, round_eq, Int.le_floor]
  linarith

theorem reload_leastDivisor_le (capacity : Nat) {x : α} (hx : 0 ≤ x) :
    reload (leastDivisor capacity x) x ≤ capacity := by
  have hpos : (0 : α) < leastDivisor capacity x :=
    Nat.cast_pos.mpr (leastDivisor_pos capacity x)
  have hlt : x / (leastDivisor capacity x : α) < capacity + 1 / 2 :=
    (div_lt_iff₀' hpos).mpr (lt_leastDivisor_mul capacity hx)
  rw [reload, round_eq, ← Int.lt_add_one_iff, Int.floor_lt]
  push_cast
  linarith

/-- Past the range of the previous divisor the product is at least what the
previous divisor could produce at most. -/
theorem pred_leastDivisor_mul_le_produced (capacity : Nat) {x : α}
    (hx : 0 ≤ x) :
    ((leastDivisor capacity x : Int) - 1) * capacity ≤
      produced (leastDivisor capacity x) x := by
  set k := leastDivisor capacity x with hk
  have hpos : (0 : α) < k := Nat.cast_pos.mpr (leastDivisor_pos capacity x)
  have hbelow : ((k : α) - 1) * (capacity + 1 / 2) ≤ x :=
    pred_leastDivisor_mul_le capacity hx
  have hround : x / (k : α) - 1 / 2 < reload k x := sub_half_lt_round _
  have hscaled : x - k / 2 < (reload k x : α) * k := by
    have h := mul_lt_mul_of_pos_right hround hpos
    rwa [sub_mul, div_mul_cancel₀ x hpos.ne', one_div_mul_eq_div] at h
  have hstrict :
      ((((k : Int) - 1) * capacity : Int) : α) <
        ((produced k x + 1 : Int) : α) := by
    push_cast [produced]
    linarith
  exact Int.lt_add_one_iff.mp (Int.cast_lt.mp hstrict)

/-- A larger count is never approximated by a smaller product.  Within one
divisor this is the monotonicity of rounding; across two divisors the range of
the smaller one ends where the range of the larger one begins. -/
theorem produced_leastDivisor_mono (capacity : Nat) {x y : α} (hx : 0 ≤ x)
    (hxy : x ≤ y) :
    produced (leastDivisor capacity x) x ≤
      produced (leastDivisor capacity y) y := by
  have hle := leastDivisor_mono capacity hxy
  rcases hle.eq_or_lt with heq | hlt
  · rw [heq]
    exact mul_le_mul_of_nonneg_right (reload_mono _ hxy) (Int.natCast_nonneg _)
  · calc
      produced (leastDivisor capacity x) x ≤
          capacity * leastDivisor capacity x :=
        mul_le_mul_of_nonneg_right (reload_leastDivisor_le capacity hx)
          (Int.natCast_nonneg _)
      _ ≤ capacity * ((leastDivisor capacity y : Int) - 1) :=
        mul_le_mul_of_nonneg_left (by omega) (Int.natCast_nonneg _)
      _ = ((leastDivisor capacity y : Int) - 1) * capacity := mul_comm _ _
      _ ≤ produced (leastDivisor capacity y) y :=
        pred_leastDivisor_mul_le_produced capacity (hx.trans hxy)

end AutomaticDoor.Foundations.CountDivision
