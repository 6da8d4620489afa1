import Mathlib.Algebra.BigOperators.Intervals
import AutomaticDoor.DelayLoops

/-!
For which durations the delay functions are exact, and the period of a loop
that calls `port_system_delay_until_ms` with one time reference.
-/

namespace AutomaticDoor.DelayBounds

open AutomaticDoor.BoardRegisters
open AutomaticDoor.DelayLoops
open AutomaticDoor.Foundations.PollingLoops

section Sharpness

variable {d : Nat} {ms : Word}

/-- Whenever the counter is polled, as long as two polls are at most `d` ticks
apart, the delay ends at the first poll at which `ms` ticks have passed. -/
def ReturnsAtFirstPoll (d : Nat) (ms : Word) : Prop :=
  ∀ (seen : Nat → Board) (ticking : Ticking d seen),
    ∃ k, ticking.IsFirstPoll (ticking.time 0 + ms.toNat) k ∧
      ∀ fuel, portSystemDelayMs seen ms fuel = if k ≤ fuel then some k else none

/-- Every tick is polled up to the last one before the delay is over, and then
none until the counter has come round to where it started. -/
def lateTime (ms k : Nat) : Nat := if k < ms then k else 2 ^ 32 + (k - ms)

def lateBoard (ms k : Nat) : Board :=
  { Board.reset with msTicks := counterAt 32 (lateTime ms k) }

def lateTicking (ms : Nat) (hd : 1 ≤ d) (hms : ms ≤ 2 ^ 32)
    (hlate : 2 ^ 32 < ms + d) : Ticking d (lateBoard ms) where
  time := lateTime ms
  le_succ k := by
    simp only [lateTime]
    split <;> split <;> omega
  succ_le k := by
    simp only [lateTime]
    split <;> split <;> omega
  unbounded t := ⟨t + ms, by simp only [lateTime]; split <;> omega⟩
  getMillis_eq _ := rfl

theorem lateTicking_time (hd : 1 ≤ d) {n : Nat} (hms : n ≤ 2 ^ 32)
    (hlate : 2 ^ 32 < n + d) (k : Nat) :
    (lateTicking n hd hms hlate).time k = lateTime n k := rfl

/-- The poll that finds the delay over reads the value at which it started. -/
theorem not_returnsAtFirstPoll (hd : 1 ≤ d) (hpos : 0 < ms.toNat)
    (hlate : 2 ^ 32 < ms.toNat + d) : ¬ ReturnsAtFirstPoll d ms := by
  intro h
  have hms : ms.toNat ≤ 2 ^ 32 := ms.isLt.le
  obtain ⟨k, ⟨-, hdue, hearlier⟩, hfuel⟩ := h _ (lateTicking ms.toNat hd hms hlate)
  simp only [lateTicking_time] at hdue hearlier
  have hzero : lateTime ms.toNat 0 = 0 := if_pos hpos
  have hreached : lateTime ms.toNat ms.toNat = 2 ^ 32 := by
    rw [lateTime, if_neg (Nat.lt_irrefl _), Nat.sub_self, Nat.add_zero]
  have hfirst : k = ms.toNat := by
    rcases Nat.lt_trichotomy k ms.toNat with hlt | heq | hgt
    · rw [hzero, lateTime, if_pos hlt] at hdue
      omega
    · exact heq
    · have hbefore := hearlier ms.toNat hpos hgt
      rw [hzero, hreached] at hbefore
      omega
  subst hfirst
  have hreturns := hfuel ms.toNat
  rw [if_pos (Nat.le_refl _), portSystemDelayMs] at hreturns
  have hend := pollWhile_some hreturns
  rw [decide_eq_false_iff_not] at hend
  apply hend
  show counterAt 32 (lateTime ms.toNat ms.toNat) -
    counterAt 32 (lateTime ms.toNat 0) < ms
  rw [hzero, hreached, BitVec.lt_def]
  exact hpos

theorem returnsAtFirstPoll_zero (d : Nat) : ReturnsAtFirstPoll d 0 := by
  intro seen ticking
  refine ⟨1, ⟨Nat.le_refl 1, ticking.le_succ 0, ?_⟩, ?_⟩
  · intro j hj hlt
    omega
  · intro fuel
    cases fuel with
    | zero => rfl
    | succ fuel =>
        rw [portSystemDelayMs, pollWhile, if_neg, if_pos (by omega)]
        simp [BitVec.lt_def]

/-- The bound on the duration is as large as it can be: one tick more, and a
poll may miss the end of the period of the counter. -/
theorem delay_exact_iff (hd : 1 ≤ d) :
    ReturnsAtFirstPoll d ms ↔ ms = 0 ∨ ms.toNat + d ≤ 2 ^ 32 := by
  constructor
  · intro h
    by_contra hout
    rw [not_or] at hout
    have hpos : 0 < ms.toNat := by
      rw [Nat.pos_iff_ne_zero]
      exact fun hzero => hout.1 (BitVec.eq_of_toNat_eq hzero)
    exact not_returnsAtFirstPoll hd hpos (by omega) h
  · rintro (rfl | hms)
    · exact returnsAtFirstPoll_zero d
    · intro seen ticking
      obtain ⟨k, hk⟩ := ticking.exists_isFirstPoll (ticking.time 0 + ms.toNat)
      exact ⟨k, hk, portSystemDelayMs_eq ticking hk hms⟩

/-- With a poll at every tick the longest delay is exact; when a poll may skip a
tick it is not. -/
theorem delay_exact_longest :
    ReturnsAtFirstPoll 1 0xFFFFFFFF ∧ ¬ ReturnsAtFirstPoll 2 0xFFFFFFFF :=
  ⟨(delay_exact_iff (by decide)).mpr (by decide),
    mt (delay_exact_iff (by decide)).mp (by decide)⟩

end Sharpness

section Loops

variable {start ms : Nat} {work : Nat → Nat}

/-- The calls of the rounds up to the last one, each with the time reference that
the call before it left in `pT`.  The result is that of the last call. -/
def delayRounds (boards : Nat → CallBoards) (pT ms : Word) (fuel : Nat) :
    Nat → Option (Nat × Word)
  | 0 => portSystemDelayUntilMs (boards 0) pT ms fuel
  | n + 1 =>
      (delayRounds boards pT ms fuel n).bind fun last =>
        portSystemDelayUntilMs (boards (n + 1)) last.2 ms fuel

/-- A loop whose round `i` works for `work i` ticks and then waits with
`port_system_delay_until_ms`.  A call comes `work` ticks after the one before it
has returned, if that one returns. -/
structure DelayLoop (start ms : Nat) (work : Nat → Nat) where
  boards : Nat → CallBoards
  ticking : ∀ i, CallTicking (boards i)
  call_zero : (ticking 0).time 0 = start + work 0
  call_succ : ∀ i fuel k pT,
    delayRounds boards (counterAt 32 start) (BitVec.ofNat 32 ms) fuel i = some (k, pT) →
      (ticking (i + 1)).time 0 = (ticking i).time k + work (i + 1)

/-- When the rounds start. -/
def roundTime (start ms : Nat) (work : Nat → Nat) : Nat → Nat
  | 0 => start
  | i + 1 => returnTime (roundTime start ms work i + work i)
      (roundTime start ms work i + ms)

section Calls

variable {boards : Nat → CallBoards} (ticking : ∀ i, CallTicking (boards i))

theorem delayUntil_eq_roundTime (hms : ms < 2 ^ 31) {i : Nat} (hwork : work i < 2 ^ 31)
    (hcall : (ticking i).time 0 = roundTime start ms work i + work i) :
    ∃ k, (ticking i).time k = roundTime start ms work (i + 1) ∧
      ∀ fuel, portSystemDelayUntilMs (boards i)
        (counterAt 32 (roundTime start ms work i)) (BitVec.ofNat 32 ms) fuel =
          if k ≤ fuel then some (k, counterAt 32 (roundTime start ms work (i + 1)))
          else none := by
  obtain ⟨k, htime, hresult⟩ := portSystemDelayUntilMs_eq (ticking i)
    (R := roundTime start ms work i) (by omega) (by omega) hms
  rw [hcall] at htime
  refine ⟨k, htime, ?_⟩
  intro fuel
  rw [hresult fuel, htime]
  rfl

/-- The rounds return from some bound on the reads on, and none of them
returns below it. -/
theorem delayRounds_eq (hms : ms < 2 ^ 31) (hwork : ∀ i, work i < 2 ^ 31) (n : Nat)
    (hcalls : ∀ i ≤ n, (ticking i).time 0 = roundTime start ms work i + work i) :
    ∃ bound k, (ticking n).time k = roundTime start ms work (n + 1) ∧
      ∀ fuel, delayRounds boards (counterAt 32 start) (BitVec.ofNat 32 ms) fuel n =
        if bound ≤ fuel then some (k, counterAt 32 (roundTime start ms work (n + 1)))
        else none := by
  induction n with
  | zero =>
      obtain ⟨k, htime, hresult⟩ := delayUntil_eq_roundTime ticking hms (hwork 0)
        (hcalls 0 (Nat.le_refl 0))
      exact ⟨k, k, htime, hresult⟩
  | succ n ih =>
      obtain ⟨bound, last, -, hrounds⟩ := ih fun i hi => hcalls i (by omega)
      obtain ⟨k, htime, hresult⟩ := delayUntil_eq_roundTime ticking hms (hwork (n + 1))
        (hcalls (n + 1) (Nat.le_refl _))
      refine ⟨max bound k, k, htime, ?_⟩
      intro fuel
      rw [delayRounds, hrounds fuel]
      by_cases hbound : bound ≤ fuel
      · rw [if_pos hbound, Option.bind_some, hresult fuel]
        simp [hbound]
      · rw [if_neg hbound, if_neg (by omega)]
        rfl

end Calls

namespace DelayLoop

variable (loop : DelayLoop start ms work)

/-- That the call of a round is reached rests on the return of those before. -/
theorem call_eq (hms : ms < 2 ^ 31) (hwork : ∀ i, work i < 2 ^ 31) (i : Nat) :
    (loop.ticking i).time 0 = roundTime start ms work i + work i := by
  induction i using Nat.strong_induction_on with
  | _ i ih =>
      cases i with
      | zero => exact loop.call_zero
      | succ i =>
          obtain ⟨bound, k, htime, hrounds⟩ := delayRounds_eq loop.ticking hms hwork i
            fun j hj => ih j (by omega)
          have hreturns := hrounds bound
          rw [if_pos (Nat.le_refl bound)] at hreturns
          rw [loop.call_succ i bound k _ hreturns, htime]

/-- Round `n` returns: for all large enough `fuel` at the same read, at the
time `t`, which is the next time reference. -/
def ReturnsAt (n t : Nat) : Prop :=
  ∃ bound k, (loop.ticking n).time k = t ∧ ∀ fuel, bound ≤ fuel →
    delayRounds loop.boards (counterAt 32 start) (BitVec.ofNat 32 ms) fuel n =
      some (k, counterAt 32 t)

theorem returnsAt_roundTime (hms : ms < 2 ^ 31) (hwork : ∀ i, work i < 2 ^ 31)
    (n : Nat) : loop.ReturnsAt n (roundTime start ms work (n + 1)) := by
  obtain ⟨bound, k, htime, hrounds⟩ := delayRounds_eq loop.ticking hms hwork n
    fun i _ => loop.call_eq hms hwork i
  refine ⟨bound, k, htime, ?_⟩
  intro fuel hfuel
  rw [hrounds fuel, if_pos hfuel]

end DelayLoop

theorem roundTime_eq_of_same_period (n : Nat)
    (hperiod : (start + ∑ i ∈ Finset.range n, max (work i) ms) / 2 ^ 32 =
      start / 2 ^ 32) :
    roundTime start ms work n = start + ∑ i ∈ Finset.range n, max (work i) ms := by
  induction n with
  | zero => simp [roundTime]
  | succ n ih =>
      rw [Finset.sum_range_succ] at hperiod ⊢
      have hmax := Nat.le_max_left (work n) ms
      have hmax' := Nat.le_max_right (work n) ms
      have hround := ih (by omega)
      rw [roundTime, hround, returnTime, if_pos (by omega)]
      omega

/-- Such a loop exists for every start and all the work. -/
theorem exists_delayLoop (start : Nat) (hms : ms < 2 ^ 31)
    (hwork : ∀ i, work i < 2 ^ 31) : Nonempty (DelayLoop start ms work) := by
  let calls := fun i => roundTime start ms work i + work i
  refine ⟨{
    boards := fun i => everyTickCall (calls i)
    ticking := fun i => everyTickCallTicking (calls i)
    call_zero := rfl
    call_succ := ?_ }⟩
  intro i fuel k pT hreturns
  obtain ⟨bound, k', htime, hrounds⟩ :=
    delayRounds_eq (fun i => everyTickCallTicking (calls i)) hms hwork i fun _ _ => rfl
  rw [hrounds fuel, Option.ite_none_right_eq_some, Option.some.injEq,
    Prod.mk.injEq] at hreturns
  obtain ⟨-, rfl, -⟩ := hreturns
  exact congrArg (· + work (i + 1)) htime.symm

/-- Up to the wrap of the counter, each round takes as long as its work or its
wait, whichever is longer. -/
theorem loop_keeps_period (loop : DelayLoop start ms work) (hms : ms < 2 ^ 31)
    (hwork : ∀ i, work i < 2 ^ 31) (n : Nat)
    (hperiod : (start + ∑ i ∈ Finset.range (n + 1), max (work i) ms) / 2 ^ 32 =
      start / 2 ^ 32) :
    loop.ReturnsAt n (start + ∑ i ∈ Finset.range (n + 1), max (work i) ms) := by
  have hround := roundTime_eq_of_same_period (n + 1) hperiod
  rw [← hround]
  exact loop.returnsAt_roundTime hms hwork n

/-- Half a second ten times over, with three ticks of work in each round. -/
theorem loop_keeps_period_half_second :
    ∃ loop : DelayLoop 0 500 fun _ => 3, loop.ReturnsAt 9 5000 := by
  obtain ⟨loop⟩ := @exists_delayLoop 500 (fun _ => 3) 0 (by decide)
    (fun _ => by decide)
  exact ⟨loop, loop_keeps_period loop (by decide) (fun _ => by decide) 9 (by decide)⟩

end Loops

end AutomaticDoor.DelayBounds
