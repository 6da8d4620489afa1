import Mathlib.Data.Rat.Floor
import Mathlib.Tactic.FieldSimp
import Mathlib.Tactic.Push
import AutomaticDoor.BoardRegisters
import AutomaticDoor.Foundations.CountDivision
import AutomaticDoor.Foundations.ExactArithmetic

/-!
The prescaler and auto-reload values that `port_motor_timeout_timer_activate`
and `port_led_timer_setup` compute for a duration, with the `double`
expressions read in exact arithmetic.  Where a quotient lies halfway between
two integers, the doubles may round it to the other one.
-/

namespace AutomaticDoor.TimerSetting

open AutomaticDoor.BoardRegisters
open AutomaticDoor.Foundations.CountDivision
open AutomaticDoor.Foundations.ExactArithmetic
open AutomaticDoor.Foundations.ExactArithmetic.Exact

structure PscArr where
  psc : Exact ℚ
  arr : Exact ℚ

/-- `double sec = (double)ms / 1000.0` -/
def seconds (ms : Nat) : Exact ℚ := finite (ms : ℚ) / finite 1000

/-- `double scc = (double)SystemCoreClock` -/
def clockHz (systemCoreClock : Nat) : Exact ℚ :=
  finite (systemCoreClock : ℚ)

/-- `round(((scc * sec) / (65535.0 + 1.0)) - 1.0)` -/
def initialPsc (scc sec : Exact ℚ) : Exact ℚ :=
  libmRound (scc * sec / (finite 65535 + finite 1) - finite 1)

/-- `round(((scc * sec) / (psc + 1.0)) - 1.0)` -/
def arrForPsc (scc sec psc : Exact ℚ) : Exact ℚ :=
  libmRound (scc * sec / (psc + finite 1) - finite 1)

/-- The values of `psc` and `arr` after the adjustment of a duration that is
too long for the first prescaler. -/
def pscArr (scc sec : Exact ℚ) : PscArr :=
  let psc := initialPsc scc sec
  let arr := arrForPsc scc sec psc
  if arr.gt (finite 0xFFFF) then
    let psc := psc + finite 1
    ⟨psc, arrForPsc scc sec psc⟩
  else ⟨psc, arr⟩

/-- Some division of the computation has a zero divisor: `psc + 1.0` before
the adjustment, or `psc + 1.0` in the adjustment when it is made. -/
def DividesByZero (scc sec : Exact ℚ) : Prop :=
  initialPsc scc sec + finite 1 = finite 0 ∨
    ((arrForPsc scc sec (initialPsc scc sec)).gt (finite 0xFFFF) = true ∧
      initialPsc scc sec + finite 1 + finite 1 = finite 0)

def timerSetting (systemCoreClock ms : Nat) : PscArr :=
  pscArr (clockHz systemCoreClock) (seconds ms)

/-- `(uint32_t)(round(x))` -/
def castWord (x : Exact ℚ) : Word :=
  BitVec.ofNat 32 (toUnsigned (2 ^ 32) (libmRound x))

def loadedArr (systemCoreClock ms : Nat) : Word :=
  castWord (timerSetting systemCoreClock ms).arr

def loadedPsc (systemCoreClock ms : Nat) : Word :=
  castWord (timerSetting systemCoreClock ms).psc

def requestedCount (systemCoreClock ms : Nat) : ℚ :=
  systemCoreClock * ms / 1000

/-- A counter that runs through `ARR + 1` values of a clock divided by
`PSC + 1` overflows after this many clock cycles. -/
def programmedCount (systemCoreClock ms : Nat) : Nat :=
  ((loadedArr systemCoreClock ms).toNat + 1) *
    ((loadedPsc systemCoreClock ms).toNat + 1)

theorem clockHz_mul_seconds (systemCoreClock ms : Nat) :
    clockHz systemCoreClock * seconds ms =
      finite (requestedCount systemCoreClock ms) := by
  rw [clockHz, seconds, finite_div_of_ne_zero _ (by norm_num), finite_mul,
    requestedCount, mul_div_assoc]

section Counts

variable {scc sec : Exact ℚ} {n : ℚ}

theorem initialPsc_eq (hcount : scc * sec = finite n) :
    initialPsc scc sec = finite (roundAway (n / 65536 - 1) : ℚ) := by
  have hdivisor : (finite 65535 + finite 1 : Exact ℚ) = finite 65536 := by
    rw [finite_add]
    norm_num
  rw [initialPsc, hcount, hdivisor, finite_div_of_ne_zero _ (by norm_num),
    finite_sub, libmRound_finite]

theorem initialPsc_of_le (hcount : scc * sec = finite n) (hnonneg : 0 ≤ n)
    (hle : n ≤ 32768) : initialPsc scc sec = finite (-1) := by
  rw [initialPsc_eq hcount, roundAway_eq_neg_one (by linarith) (by linarith)]
  norm_num

theorem initialPsc_of_lt (hcount : scc * sec = finite n) (hlt : 32768 < n) :
    initialPsc scc sec = finite ((round (n / 65536) : ℚ) - 1) := by
  rw [initialPsc_eq hcount, roundAway_eq_floor_of_half_lt (by linarith),
    ← round_eq, round_sub_one]
  push_cast
  rfl

theorem arrForPsc_eq (hcount : scc * sec = finite n) {k : Nat} (hk : 0 < k)
    (hle : (k : ℚ) ≤ n) :
    arrForPsc scc sec (finite ((k : ℚ) - 1)) =
      finite ((reload k n : ℚ) - 1) := by
  have hpos : (0 : ℚ) < k := Nat.cast_pos.mpr hk
  have hone : 1 ≤ n / (k : ℚ) := (one_le_div hpos).mpr hle
  rw [arrForPsc, hcount, finite_add, sub_add_cancel,
    finite_div_of_ne_zero _ hpos.ne', finite_sub, libmRound_finite,
    roundAway_of_nonneg (by linarith), round_sub_one, reload]
  push_cast
  rfl

theorem arr_gt_iff {k : Nat} (hk : 0 < k) :
    (finite ((reload k n : ℚ) - 1)).gt (finite 0xFFFF) = true ↔
      (k : ℚ) * (65536 + 1 / 2) ≤ n := by
  have hpos : (0 : ℚ) < k := Nat.cast_pos.mpr hk
  have hcast : (65535 : ℚ) < (reload k n : ℚ) - 1 ↔ 65537 ≤ reload k n := by
    rw [lt_sub_iff_add_lt, ← Int.cast_ofNat, ← Int.cast_one, ← Int.cast_add,
      Int.cast_lt]
    omega
  rw [gt_finite, decide_eq_true_iff, hcast, reload, round_eq, Int.le_floor,
    ← sub_le_iff_le_add, le_div_iff₀ hpos]
  constructor <;> intro h <;> push_cast at h ⊢ <;> linarith

theorem exists_nearest_divisor (hlt : 32768 < n) (hbound : n < 2 ^ 32 + 32768) :
    ∃ k : Nat, 0 < k ∧ k ≤ 65536 ∧ round (n / 65536) = (k : Int) ∧
      ((k : ℚ) - 1 / 2) * 65536 ≤ n ∧ n < ((k : ℚ) + 1 / 2) * 65536 := by
  have hpos : 0 < round (n / 65536) := by
    rw [round_eq, Int.floor_pos]
    linarith
  obtain ⟨k, hk⟩ := Int.eq_ofNat_of_zero_le hpos.le
  have hround : round (n / 65536) = (k : Int) := hk
  have hmem := round_eq_iff.mp hround
  have hlow : (k : ℚ) - 1 / 2 ≤ n / 65536 := by exact_mod_cast hmem.1
  have hhigh : n / 65536 < (k : ℚ) + 1 / 2 := by exact_mod_cast hmem.2
  refine ⟨k, by omega, ?_, hround, by linarith, by linarith⟩
  have hk' : (k : ℚ) < 65537 := by linarith
  exact Nat.lt_succ_iff.mp (by exact_mod_cast hk')

/-- The divisor that the first rounding finds is one too small when its reload
value still has more than 16 bits. -/
theorem leastDivisor_eq_succ {k : Nat} (hnonneg : 0 ≤ n) (hkmax : k ≤ 65536)
    (hhigh : n < ((k : ℚ) + 1 / 2) * 65536)
    (hover : (k : ℚ) * (65536 + 1 / 2) ≤ n) : leastDivisor 65536 n = k + 1 := by
  have hkbound : (k : ℚ) ≤ 65536 := by exact_mod_cast hkmax
  rw [leastDivisor_eq_iff 65536 k hnonneg]
  push_cast
  exact ⟨hover, by linarith⟩

theorem leastDivisor_eq_self {k : Nat} (hnonneg : 0 ≤ n) (hk : 0 < k)
    (hkmax : k ≤ 65536) (hlow : ((k : ℚ) - 1 / 2) * 65536 ≤ n)
    (hfits : ¬ (k : ℚ) * (65536 + 1 / 2) ≤ n) : leastDivisor 65536 n = k := by
  have hkbound : (k : ℚ) ≤ 65536 := by exact_mod_cast hkmax
  obtain ⟨j, rfl⟩ := Nat.exists_eq_succ_of_ne_zero hk.ne'
  rw [Nat.succ_eq_add_one, leastDivisor_eq_iff 65536 j hnonneg]
  push_cast at hlow hkbound hfits ⊢
  constructor <;> linarith

theorem pscArr_of_le (hcount : scc * sec = finite n) (hone : 1 ≤ n)
    (hle : n ≤ 32768) :
    pscArr scc sec =
      ⟨finite ((leastDivisor 65536 n : ℚ) - 1),
        finite ((reload (leastDivisor 65536 n) n : ℚ) - 1)⟩ := by
  have hnonneg : 0 ≤ n := by linarith
  have hdivisor : leastDivisor 65536 n = 0 + 1 := by
    rw [leastDivisor_eq_iff 65536 0 hnonneg]
    constructor <;> push_cast <;> linarith
  have hpsc : (finite (-1) + finite 1 : Exact ℚ) = finite 0 := by
    rw [finite_add]
    norm_num
  -- the divisor is zero, and the infinite quotient selects the adjustment
  have harr : arrForPsc scc sec (finite (-1)) = posInf := by
    rw [arrForPsc, hcount, hpsc, finite_div_zero_of_pos (by linarith)]
    rfl
  have hfinal := arrForPsc_eq hcount (k := 1) one_pos (by simpa using hone)
  rw [Nat.cast_one, sub_self] at hfinal
  rw [pscArr, initialPsc_of_le hcount hnonneg hle]
  simp only [harr, hpsc, posInf_gt_finite, if_true, hfinal, hdivisor]
  norm_num

theorem pscArr_of_lt (hcount : scc * sec = finite n) (hlt : 32768 < n)
    (hbound : n < 2 ^ 32 + 32768) :
    pscArr scc sec =
      ⟨finite ((leastDivisor 65536 n : ℚ) - 1),
        finite ((reload (leastDivisor 65536 n) n : ℚ) - 1)⟩ := by
  have hnonneg : 0 ≤ n := by linarith
  obtain ⟨k, hk, hkmax, hround, hlow, hhigh⟩ := exists_nearest_divisor hlt hbound
  have hkpos : (1 : ℚ) ≤ k := by exact_mod_cast hk
  have hinitial : initialPsc scc sec = finite ((k : ℚ) - 1) := by
    rw [initialPsc_of_lt hcount hlt, hround]
    norm_num
  have harr := arrForPsc_eq hcount hk (by linarith)
  have hstep : (finite ((k : ℚ) - 1) + finite 1 : Exact ℚ) =
      finite (((k + 1 : Nat) : ℚ) - 1) := by
    rw [finite_add]
    push_cast
    ring_nf
  rw [pscArr, hinitial]
  simp only [harr, hstep, arr_gt_iff hk]
  split
  · rename_i hover
    rw [leastDivisor_eq_succ hnonneg hkmax hhigh hover,
      arrForPsc_eq hcount (Nat.succ_pos k) (by push_cast; linarith)]
  · rename_i hfits
    rw [leastDivisor_eq_self hnonneg hk hkmax hlow hfits]

/-- The computation finds the least prescaler for which the reload value has
16 bits: the first rounding finds it or the one below, and one increment
corrects the second case. -/
theorem pscArr_eq (hcount : scc * sec = finite n) (hone : 1 ≤ n)
    (hbound : n < 2 ^ 32 + 32768) :
    pscArr scc sec =
      ⟨finite ((leastDivisor 65536 n : ℚ) - 1),
        finite ((reload (leastDivisor 65536 n) n : ℚ) - 1)⟩ := by
  rcases le_or_gt n 32768 with hle | hlt
  · exact pscArr_of_le hcount hone hle
  · exact pscArr_of_lt hcount hlt hbound

end Counts

end AutomaticDoor.TimerSetting
