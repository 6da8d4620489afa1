import Mathlib.Algebra.Group.Nat.Defs
import Mathlib.Data.Nat.Find
import Mathlib.Order.Monotone.Basic
import Mathlib.Tactic.Common

/-!
Loops that poll a counter of fixed width until it has advanced far enough.
True time is a natural number and never wraps; the counter is its residue.
-/

namespace AutomaticDoor.Foundations.PollingLoops

/-- `while (going k) {}`, where `k` counts the polls.  The result is the poll
that ends the loop, when it is among the first `fuel` ones from `k` on. -/
def pollWhile (going : Nat → Bool) : (fuel k : Nat) → Option Nat
  | 0, _ => none
  | fuel + 1, k => if going k then pollWhile going fuel (k + 1) else some k

theorem pollWhile_eq {going : Nat → Bool} {n k : Nat}
    (hgoing : ∀ i < n, going (k + i) = true) (hend : going (k + n) = false)
    (fuel : Nat) :
    pollWhile going fuel k = if n < fuel then some (k + n) else none := by
  induction n generalizing k fuel with
  | zero =>
      cases fuel with
      | zero => rfl
      | succ fuel =>
          have hnow : ¬ going k = true := Bool.eq_false_iff.mp hend
          rw [pollWhile, if_neg hnow, if_pos (by omega)]
          rfl
  | succ n ih =>
      cases fuel with
      | zero => rfl
      | succ fuel =>
          have hstep : pollWhile going fuel (k + 1) =
              if n < fuel then some (k + 1 + n) else none := by
            apply ih
            · intro i hi
              rw [Nat.add_assoc, Nat.add_comm 1 i]
              exact hgoing (i + 1) (by omega)
            · rw [Nat.add_assoc, Nat.add_comm 1 n]
              exact hend
          have hnow : going k = true := hgoing 0 (by omega)
          rw [pollWhile, if_pos hnow, hstep, Nat.add_right_comm, Nat.add_assoc]
          simp only [Nat.add_lt_add_iff_right]

theorem pollWhile_some {going : Nat → Bool} {fuel k n : Nat}
    (h : pollWhile going fuel k = some n) : going n = false := by
  induction fuel generalizing k with
  | zero => cases h
  | succ fuel ih =>
      rw [pollWhile] at h
      split at h
      · exact ih h
      · rename_i hend
        obtain rfl := Option.some.inj h
        exact Bool.eq_false_iff.mpr hend

variable {w : Nat}

/-- The counter at a true time. -/
def counterAt (w time : Nat) : BitVec w := BitVec.ofNat w time

theorem toNat_counterAt (w time : Nat) : (counterAt w time).toNat = time % 2 ^ w :=
  BitVec.toNat_ofNat ..

theorem counterAt_sub {earlier later : Nat} (h : earlier ≤ later) :
    counterAt w later - counterAt w earlier = counterAt w (later - earlier) := by
  obtain ⟨elapsed, rfl⟩ := Nat.exists_eq_add_of_le h
  rw [Nat.add_sub_cancel_left, counterAt, BitVec.ofNat_add, BitVec.add_comm]
  exact BitVec.add_sub_cancel _ _

/-- The difference of two readings is the time between them, as long as it is
below the period of the counter. -/
theorem toNat_counterAt_sub {earlier later : Nat} (hle : earlier ≤ later)
    (hlt : later - earlier < 2 ^ w) :
    (counterAt w later - counterAt w earlier).toNat = later - earlier := by
  rw [counterAt_sub hle, toNat_counterAt, Nat.mod_eq_of_lt hlt]

/-- The true times of successive polls: they do not go back, they are at most
`gap` apart, and they grow without bound. -/
structure PollTimes (gap : Nat) where
  time : Nat → Nat
  le_succ : ∀ k, time k ≤ time (k + 1)
  succ_le : ∀ k, time (k + 1) ≤ time k + gap
  unbounded : ∀ t, ∃ k, t ≤ time k

namespace PollTimes

variable {gap : Nat} (polls : PollTimes gap)

theorem time_le {j k : Nat} (h : j ≤ k) : polls.time j ≤ polls.time k :=
  monotone_nat_of_le_succ polls.le_succ h

/-- The first poll, after the one that starts the wait, that has come to the
deadline. -/
def IsFirstPoll (deadline k : Nat) : Prop :=
  1 ≤ k ∧ deadline ≤ polls.time k ∧
    ∀ j, 1 ≤ j → j < k → polls.time j < deadline

theorem exists_isFirstPoll (deadline : Nat) : ∃ k, polls.IsFirstPoll deadline k := by
  have hexists : ∃ k, 1 ≤ k ∧ deadline ≤ polls.time k := by
    obtain ⟨k, hk⟩ := polls.unbounded deadline
    exact ⟨k + 1, by omega, hk.trans (polls.le_succ k)⟩
  classical
  refine ⟨Nat.find hexists, (Nat.find_spec hexists).1, (Nat.find_spec hexists).2, ?_⟩
  intro j hj hlt
  by_contra hle
  exact Nat.find_min hexists hlt ⟨hj, by omega⟩

variable {polls} {wait k : Nat}

theorem IsFirstPoll.time_lt (hk : polls.IsFirstPoll (polls.time 0 + wait) k)
    (hwait : 1 ≤ wait) : polls.time k < polls.time 0 + wait + gap := by
  obtain ⟨hpos, -, hearlier⟩ := hk
  have hprev : polls.time (k - 1) < polls.time 0 + wait := by
    rcases Nat.lt_or_ge 1 k with hlt | hle
    · exact hearlier (k - 1) (by omega) (by omega)
    · have hzero : k - 1 = 0 := by omega
      rw [hzero]
      omega
  have hgap : polls.time (k - 1 + 1) ≤ polls.time (k - 1) + gap :=
    polls.succ_le (k - 1)
  rw [Nat.sub_add_cancel hpos] at hgap
  omega

theorem IsFirstPoll.time_eq {polls : PollTimes 1}
    (hk : polls.IsFirstPoll (polls.time 0 + wait) k) (hwait : 1 ≤ wait) :
    polls.time k = polls.time 0 + wait := by
  have hlt := hk.time_lt hwait
  have hle := hk.2.1
  omega

/-- Waiting until the counter has advanced by `wait` ends at the first poll at
which so much time has passed, wherever the counter wraps, provided that no two
polls are so far apart that they could miss the end of the period. -/
theorem IsFirstPoll.pollWhile_elapsed
    (hk : polls.IsFirstPoll (polls.time 0 + wait) k)
    (hperiod : wait + gap ≤ 2 ^ w) (fuel : Nat) :
    pollWhile (fun j => decide
        ((counterAt w (polls.time j) - counterAt w (polls.time 0)).toNat < wait))
      fuel 1 = if k ≤ fuel then some k else none := by
  let going : Nat → Bool := fun j => decide
    ((counterAt w (polls.time j) - counterAt w (polls.time 0)).toNat < wait)
  obtain ⟨hpos, hdue, hearlier⟩ := id hk
  have hsplit : 1 + (k - 1) = k := by omega
  have hgoing : ∀ i < k - 1, going (1 + i) = true := by
    intro i hi
    have hlt := hearlier (1 + i) (by omega) (by omega)
    have hle := polls.time_le (Nat.zero_le (1 + i))
    rw [decide_eq_true_iff, toNat_counterAt_sub hle (by omega)]
    omega
  have hend : going (1 + (k - 1)) = false := by
    rw [hsplit, decide_eq_false_iff_not]
    rcases Nat.eq_zero_or_pos wait with hzero | hwait
    · omega
    · have hlt := hk.time_lt hwait
      rw [toNat_counterAt_sub (by omega) (by omega)]
      omega
  have hfuel : k - 1 < fuel ↔ k ≤ fuel := by omega
  show pollWhile going fuel 1 = _
  rw [pollWhile_eq hgoing hend, hsplit]
  simp only [hfuel]

end PollTimes

end AutomaticDoor.Foundations.PollingLoops
