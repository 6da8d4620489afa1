import AutomaticDoor.Foundations.EventSystems
import AutomaticDoor.Foundations.PollingLoops
import AutomaticDoor.InterruptHandlers

/-!
The delay functions of `port_system.c`.  They wait on the tick counter, which
wraps, while the SysTick interrupt advances it.
-/

namespace AutomaticDoor.DelayLoops

open AutomaticDoor.BoardRegisters
open AutomaticDoor.Foundations.EventSystems
open AutomaticDoor.Foundations.PollingLoops
open AutomaticDoor.InterruptHandlers
open AutomaticDoor.PortLed
open AutomaticDoor.PortSystem

/-- `seen k` is the board at the `k`-th read of the counter: the first read is
that of `tickstart`, and the loop makes the others.  The result is the read
that ends the loop, when it is among the first `fuel` ones. -/
def portSystemDelayMs (seen : Nat → Board) (ms : Word) (fuel : Nat) :
    Option Nat :=
  let tickstart := portSystemGetMillis (seen 0)
  pollWhile (fun k => decide (portSystemGetMillis (seen k) - tickstart < ms)) fuel 1

/-- The boards on which a call of `port_system_delay_until_ms` reads the
counter: for `now`, in the delay, and for the new time reference when the read
`k` ended the wait, or at once with `k` zero. -/
structure CallBoards where
  atNow : Board
  inDelay : Nat → Board
  atReturn : Nat → Board

/-- The result tells the read that ends the wait, zero when there is none, and
the new time reference. -/
def portSystemDelayUntilMs (boards : CallBoards) (pT ms : Word) (fuel : Nat) :
    Option (Nat × Word) :=
  let untilMs := pT + ms
  let now := portSystemGetMillis boards.atNow
  if untilMs > now then
    (portSystemDelayMs boards.inDelay (untilMs - now) fuel).map fun k =>
      (k, portSystemGetMillis (boards.atReturn k))
  else some (0, portSystemGetMillis (boards.atReturn 0))

/-- The boards that a delay sees, whose counter shows the true time. -/
structure Ticking (d : Nat) (seen : Nat → Board) extends PollTimes d where
  getMillis_eq : ∀ k, portSystemGetMillis (seen k) = counterAt 32 (time k)

/-- The counter is polled at every tick, and ticks pass only while the loop
waits, not between the other statements of a call. -/
structure CallTicking (boards : CallBoards) extends Ticking 1 boards.inDelay where
  atNow_eq : portSystemGetMillis boards.atNow = counterAt 32 (time 0)
  atReturn_eq : ∀ k, portSystemGetMillis (boards.atReturn k) = counterAt 32 (time k)

section Interrupts

variable {leds : DoorLeds} {b b' : Board}

theorem updateFlags_msTicks (l : Line) (high : Bool) (b : Board) :
    (updateFlags l high b).msTicks = b.msTicks := by
  cases l <;> cases high
  · rfl
  · rw [updateFlags]
    split <;> rfl
  · rfl
  · rfl

@[simp] theorem serveLine_msTicks (l : Line) (b : Board) :
    (serveLine l b).msTicks = b.msTicks := by
  rw [serveLine]
  split
  · exact updateFlags_msTicks l _ b
  · rfl

theorem timIrqHandler_msTicks (leds : DoorLeds) (t : Timer) (b : Board) :
    (timIrqHandler leds t b).msTicks = b.msTicks := by
  cases t with
  | TIM2 =>
      simp only [timIrqHandler, tim2IrqHandler]
      split <;> rfl
  | TIM3 | TIM4 => rfl

theorem interruptStep_getMillis {i : Interrupt}
    (h : interruptStep leds b i = some b') :
    portSystemGetMillis b' =
      portSystemGetMillis b + BitVec.ofNat 32 ([i].count .sysTick) := by
  cases i with
  | sysTick =>
      obtain rfl := Option.some.inj h
      rfl
  | exti15_10 =>
      obtain rfl := Option.some.inj h
      simp [portSystemGetMillis, exti15_10IrqHandler]
  | tim t =>
      rw [interruptStep, Option.ite_none_right_eq_some] at h
      obtain rfl := Option.some.inj h.2
      simp [portSystemGetMillis, timIrqHandler_msTicks]

theorem runEvents_getMillis {interrupts : List Interrupt}
    (h : runEvents (interruptStep leds) b interrupts = some b') :
    portSystemGetMillis b' =
      portSystemGetMillis b + BitVec.ofNat 32 (interrupts.count .sysTick) := by
  induction interrupts generalizing b with
  | nil =>
      obtain rfl := Option.some.inj h
      simp
  | cons i interrupts ih =>
      obtain ⟨next, hnext, hrest⟩ := runEvents_cons_eq_some_iff.mp h
      have hcount : ([i] ++ interrupts).count .sysTick =
          [i].count .sysTick + interrupts.count .sysTick := List.count_append
      rw [ih hrest, interruptStep_getMillis hnext, BitVec.add_assoc,
        ← BitVec.ofNat_add, ← hcount]
      rfl

/-- The ticks before each read, when `interrupts k` are those that come between
the read `k` and the next one. -/
def ticksBefore (interrupts : Nat → List Interrupt) : Nat → Nat
  | 0 => 0
  | k + 1 => ticksBefore interrupts k + (interrupts k).count .sysTick

/-- The interrupt handlers make the counter show the true time. -/
def Ticking.ofInterrupts {seen : Nat → Board} {d : Nat} (start : Nat)
    (interrupts : Nat → List Interrupt)
    (hstart : portSystemGetMillis (seen 0) = counterAt 32 start)
    (hrun : ∀ k, runEvents (interruptStep leds) (seen k) (interrupts k) =
      some (seen (k + 1)))
    (hgap : ∀ k, (interrupts k).count .sysTick ≤ d)
    (hunbounded : ∀ n, ∃ k, n ≤ ticksBefore interrupts k) : Ticking d seen where
  time k := start + ticksBefore interrupts k
  le_succ k := by
    rw [ticksBefore]
    omega
  succ_le k := by
    have hk := hgap k
    rw [ticksBefore]
    omega
  unbounded t := by
    obtain ⟨k, hk⟩ := hunbounded t
    exact ⟨k, by omega⟩
  getMillis_eq k := by
    induction k with
    | zero => exact hstart
    | succ k ih =>
        rw [runEvents_getMillis (hrun k), ih, ticksBefore, ← Nat.add_assoc,
          counterAt, counterAt, ← BitVec.ofNat_add]

end Interrupts

section Delays

variable {d : Nat} {seen : Nat → Board} (ticking : Ticking d seen)

theorem portSystemDelayMs_eq {ms : Word} {k : Nat}
    (hk : ticking.IsFirstPoll (ticking.time 0 + ms.toNat) k)
    (hms : ms.toNat + d ≤ 2 ^ 32) (fuel : Nat) :
    portSystemDelayMs seen ms fuel = if k ≤ fuel then some k else none := by
  rw [← hk.pollWhile_elapsed hms fuel]
  simp only [portSystemDelayMs, ticking.getMillis_eq, BitVec.lt_def]

/-- The delay ends at the first read, after that of `tickstart`, at which `ms`
ticks have passed, and at no other. -/
theorem delay_returns_at_first_poll (ms : Word) (hms : ms.toNat + d ≤ 2 ^ 32) :
    ∃ k, ticking.IsFirstPoll (ticking.time 0 + ms.toNat) k ∧
      ∀ fuel, portSystemDelayMs seen ms fuel = if k ≤ fuel then some k else none := by
  obtain ⟨k, hk⟩ := ticking.exists_isFirstPoll (ticking.time 0 + ms.toNat)
  exact ⟨k, hk, portSystemDelayMs_eq ticking hk hms⟩

end Delays

/-- A board whose counter is polled at every tick. -/
def everyTick (start k : Nat) : Board :=
  { Board.reset with msTicks := counterAt 32 (start + k) }

def everyTickTicking (start : Nat) : Ticking 1 (everyTick start) where
  time k := start + k
  le_succ k := by omega
  succ_le k := by omega
  unbounded t := ⟨t, by omega⟩
  getMillis_eq _ := rfl

/-- A wait of 500 ticks that starts 100 ticks before the counter wraps. -/
theorem delay_returns_at_first_poll_across_wrap :
    ∃ k, (everyTickTicking 4294967196).IsFirstPoll (4294967196 + 500) k ∧
      ∀ fuel, portSystemDelayMs (everyTick 4294967196) 500 fuel =
        if k ≤ fuel then some k else none :=
  delay_returns_at_first_poll (everyTickTicking 4294967196) 500 (by decide)

section DelayUntil

variable {boards : CallBoards} (ticking : CallTicking boards)

/-- When the call returns: at the time it should, as long as the call and the
deadline fall into one period of the counter; at once, when the deadline falls
into the next one; and a period late, when it falls into the one before. -/
def returnTime (call deadline : Nat) : Nat :=
  if deadline / 2 ^ 32 = call / 2 ^ 32 then max call deadline
  else if call / 2 ^ 32 < deadline / 2 ^ 32 then call
  else deadline + 2 ^ 32

theorem returnTime_of_lt {call deadline : Nat} (hcall : call < deadline + 2 ^ 31)
    (hdeadline : deadline < call + 2 ^ 31)
    (h : call % 2 ^ 32 < deadline % 2 ^ 32) :
    returnTime call deadline = call + (deadline % 2 ^ 32 - call % 2 ^ 32) := by
  rw [returnTime]
  split
  · omega
  · split <;> omega

theorem returnTime_of_le {call deadline : Nat} (hcall : call < deadline + 2 ^ 31)
    (h : deadline % 2 ^ 32 ≤ call % 2 ^ 32) :
    returnTime call deadline = call := by
  rw [returnTime]
  split
  · omega
  · split <;> omega

variable {R ms : Nat}

theorem portSystemDelayUntilMs_eq (hR : R ≤ ticking.time 0)
    (hlate : ticking.time 0 - R < 2 ^ 31) (hms : ms < 2 ^ 31) :
    ∃ k, ticking.time k = returnTime (ticking.time 0) (R + ms) ∧
      ∀ fuel,
        portSystemDelayUntilMs boards (counterAt 32 R) (BitVec.ofNat 32 ms) fuel =
          if k ≤ fuel then some (k, counterAt 32 (ticking.time k)) else none := by
  have hdeadline : counterAt 32 R + BitVec.ofNat 32 ms = counterAt 32 (R + ms) :=
    (BitVec.ofNat_add R ms).symm
  simp only [portSystemDelayUntilMs, hdeadline, ticking.atNow_eq,
    ticking.atReturn_eq]
  have hnow := toNat_counterAt 32 (ticking.time 0)
  have huntil := toNat_counterAt 32 (R + ms)
  by_cases hwait : counterAt 32 (R + ms) > counterAt 32 (ticking.time 0)
  · have hlt : ticking.time 0 % 2 ^ 32 < (R + ms) % 2 ^ 32 := by
      rw [← hnow, ← huntil]
      exact hwait
    have hword : (counterAt 32 (R + ms) - counterAt 32 (ticking.time 0)).toNat =
        (R + ms) % 2 ^ 32 - ticking.time 0 % 2 ^ 32 := by
      rw [BitVec.toNat_sub_of_le (BitVec.le_of_lt hwait), hnow, huntil]
    obtain ⟨k, hk⟩ := ticking.exists_isFirstPoll (ticking.time 0 +
      (counterAt 32 (R + ms) - counterAt 32 (ticking.time 0)).toNat)
    refine ⟨k, ?_, ?_⟩
    · rw [hk.time_eq (by omega), hword,
        returnTime_of_lt (by omega) (by omega) hlt]
    · intro fuel
      rw [if_pos hwait, portSystemDelayMs_eq ticking.toTicking hk (by omega)]
      split <;> rfl
  · have hge : (R + ms) % 2 ^ 32 ≤ ticking.time 0 % 2 ^ 32 := by
      rw [← hnow, ← huntil]
      exact Nat.le_of_not_lt hwait
    refine ⟨0, ?_, ?_⟩
    · rw [returnTime_of_le (by omega) hge]
    · intro fuel
      rw [if_neg hwait, if_pos (Nat.zero_le fuel)]

/-- The call returns when `ms` ticks have passed since the time reference `R`,
or at once when they already have, and updates the reference to that time. -/
def ReturnsAtDeadline (R ms : Nat) : Prop :=
  ∃ fuel k, ticking.time k = max (ticking.time 0) (R + ms) ∧
    portSystemDelayUntilMs boards (counterAt 32 R) (BitVec.ofNat 32 ms) fuel =
      some (k, counterAt 32 (ticking.time k))

theorem returnsAtDeadline_of_same_period (hR : R ≤ ticking.time 0)
    (hlate : ticking.time 0 - R < 2 ^ 31) (hms : ms < 2 ^ 31)
    (hperiod : (R + ms) / 2 ^ 32 = ticking.time 0 / 2 ^ 32) :
    ReturnsAtDeadline ticking R ms := by
  obtain ⟨k, htime, hresult⟩ := portSystemDelayUntilMs_eq ticking hR hlate hms
  refine ⟨k, k, ?_, ?_⟩
  · rw [htime, returnTime, if_pos hperiod]
  · rw [hresult, if_pos (Nat.le_refl k)]

theorem not_returnsAtDeadline (hR : R ≤ ticking.time 0)
    (hlate : ticking.time 0 - R < 2 ^ 31) (hms : ms < 2 ^ 31)
    (hperiod : (R + ms) / 2 ^ 32 ≠ ticking.time 0 / 2 ^ 32) :
    ¬ ReturnsAtDeadline ticking R ms := by
  rintro ⟨fuel, k, hdeadline, hreturns⟩
  obtain ⟨k', htime, hresult⟩ := portSystemDelayUntilMs_eq ticking hR hlate hms
  rw [hresult, Option.ite_none_right_eq_some, Option.some.injEq, Prod.mk.injEq]
    at hreturns
  rw [hreturns.2.1, hdeadline, returnTime, if_neg hperiod] at htime
  split at htime <;> omega

/-- The deadline is kept exactly when the call and the deadline fall into one
period of the counter. -/
theorem delay_until_keeps_deadline_iff (hR : R ≤ ticking.time 0)
    (hlate : ticking.time 0 - R < 2 ^ 31) (hms : ms < 2 ^ 31) :
    ReturnsAtDeadline ticking R ms ↔
      (R + ms) / 2 ^ 32 = ticking.time 0 / 2 ^ 32 := by
  constructor
  · intro h
    by_contra hperiod
    exact not_returnsAtDeadline ticking hR hlate hms hperiod h
  · exact returnsAtDeadline_of_same_period ticking hR hlate hms

end DelayUntil

def everyTickCall (start : Nat) : CallBoards :=
  ⟨everyTick start 0, everyTick start, everyTick start⟩

def everyTickCallTicking (start : Nat) : CallTicking (everyTickCall start) where
  toTicking := everyTickTicking start
  atNow_eq := rfl
  atReturn_eq _ := rfl

/-- A reference and a call before the wrap, and a deadline after it: the call
returns at once.  A call after the wrap, and a deadline before it: the call
waits until the counter has come round. -/
theorem delay_until_misses_deadline_at_wrap :
    ¬ ReturnsAtDeadline (everyTickCallTicking 4294967196) 4294967196 500 ∧
      ¬ ReturnsAtDeadline (everyTickCallTicking 4294967346) 4294967196 50 := by
  constructor
  · exact not_returnsAtDeadline _ (by decide) (by decide) (by decide) (by decide)
  · exact not_returnsAtDeadline _ (by decide) (by decide) (by decide) (by decide)

theorem delay_until_keeps_deadline_after_wrap :
    ReturnsAtDeadline (everyTickCallTicking 4294967300) 4294967196 500 :=
  (delay_until_keeps_deadline_iff (everyTickCallTicking 4294967300) (by decide)
    (by decide) (by decide)).mpr (by decide)

end AutomaticDoor.DelayLoops
