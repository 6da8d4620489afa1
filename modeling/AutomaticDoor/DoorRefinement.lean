import AutomaticDoor.ConfigurationFrames
import AutomaticDoor.DelayLoops
import AutomaticDoor.DoorwayModel
import AutomaticDoor.TimerAccuracy

/-!
The firmware does what the doorway does, event by event.
-/

namespace AutomaticDoor.DoorRefinement

open AutomaticDoor.ActionEffects
open AutomaticDoor.BoardRegisters
open AutomaticDoor.ConfigurationFrames
open AutomaticDoor.DelayLoops
open AutomaticDoor.DoorConsistency
open AutomaticDoor.DoorStateMachine
open AutomaticDoor.DoorSystem
open AutomaticDoor.DoorwayModel
open AutomaticDoor.ExtiLines
open AutomaticDoor.Foundations.EventSystems
open AutomaticDoor.Foundations.RowChoices
open AutomaticDoor.Foundations.SquareWaves
open AutomaticDoor.GuardedFiring
open AutomaticDoor.InterruptHandlers
open AutomaticDoor.LedPanel
open AutomaticDoor.PortInputs
open AutomaticDoor.PortLed
open AutomaticDoor.PortMotor
open AutomaticDoor.PortSystem
open AutomaticDoor.RequestPolling
open AutomaticDoor.TimerAccuracy
open AutomaticDoor.TimerSetting
open AutomaticDoor.UpdateInterrupts

/-- The time for which the motor timer runs in a state. -/
def stateTimeoutMs (cfg : DoorConfig) : DoorState → Word
  | .CLOSED => 0
  | .OPENING | .CLOSING => cfg.openingClosingTimeoutMs
  | .OPEN => cfg.inactivityTimeoutMs

def countsOf (clock : Nat) (ms : Word) : Nat :=
  (loadedArr clock ms.toNat).toNat + 1

/-- The counts that the programmed timers make. -/
def timingOf (cfg : DoorConfig) (clock : Nat) : Timing where
  stateCounts s := countsOf clock (stateTimeoutMs cfg s)
  stateCycles s := (loadedPsc clock (stateTimeoutMs cfg s).toNat).toNat + 1
  blinkCounts l := countsOf clock (cfg.leds.hw l).timerBlinkSemiPeriodMs

/-- What the initializations have to leave behind. -/
structure Prepared (cfg : DoorConfig) (clock : Nat) (s : Setup) : Prop where
  clock_eq : s.systemCoreClock.toNat = clock
  served : ∀ t, (s.nvic (.TIM t)).enabled = true
  blink : ∀ l, s.blink l =
    ⟨false, true, loadedPsc clock (cfg.leds.hw l).timerBlinkSemiPeriodMs.toNat,
      loadedArr clock (cfg.leds.hw l).timerBlinkSemiPeriodMs.toNat⟩

/-- The durations of the program are such that their computation is safe: the
values that it loads fit 16-bit registers, and no counter is blocked. -/
structure SafeTimes (cfg : DoorConfig) (clock : Nat) : Prop where
  states : ∀ s, motorTimed s = true →
    SafeSetting clock (stateTimeoutMs cfg s).toNat
  blinks : ∀ l, SafeSetting clock (cfg.leds.hw l).timerBlinkSemiPeriodMs.toNat

/-- The part of the board that the actions and the timers work on. -/
structure Works where
  lit : DoorLed → Bool
  tim : Timer → TimRegs
  timeout : Bool

def worksOf (leds : DoorLeds) (b : Board) : Works :=
  ⟨fun l => ledLit (leds.hw l) b, b.tim, b.timeout⟩

/-- A one-shot that has been counting since it was armed. -/
structure OneShotAt (clock : Nat) (ms : Word) (elapsed : Nat) (r : TimRegs)
    (timeout : Bool) : Prop where
  arr : r.arr = loadedArr clock ms.toNat
  psc : r.psc = loadedPsc clock ms.toNat
  cnt : r.cnt.toNat = elapsed % countsOf clock ms
  timeout_eq : timeout = decide (countsOf clock ms ≤ elapsed)
  uie : r.uie = !timeout

structure Animates (cfg : DoorConfig) (clock : Nat) (w : Doorway) (a : Works) :
    Prop where
  lit : ∀ l, a.lit l = w.lit (timingOf cfg clock) l
  blinking : ∀ l, (a.tim l.timer).cen = w.blinking l
  blinked : ∀ l, w.blinking l = true →
    (a.tim l.timer).cnt.toNat =
      w.blinked l % (timingOf cfg clock).blinkCounts l
  motor : (a.tim .TIM2).cen = motorTimed w.state
  timed : motorTimed w.state = true →
    OneShotAt clock (stateTimeoutMs cfg w.state) w.elapsed (a.tim .TIM2) a.timeout

/-- The door is in the state of the doorway, and all that can be seen of it is
as the doorway says. -/
structure Represents (cfg : DoorConfig) (clock : Nat) (w : Doorway) (d : Door) :
    Prop where
  state : d.fsm.currentState = w.state
  works : Animates cfg clock w (worksOf cfg.leds d.board)
  high : ∀ l, heldHigh l d.board = w.high l
  ticks : d.board.msTicks = BitVec.ofNat 32 w.ticks
  presence : d.fsm.presenceOrButtonStatus = presenceReported w.state
  openedAt : d.fsm.lastTimePresenceOrButton = BitVec.ofNat 32 w.openedAt
  prepared : Prepared cfg clock (setupOf cfg.leds d.board)
  idle : ∀ t, updatePending t d.board = false
  safe : SafeTimes cfg clock

section Counts

variable {cfg : DoorConfig} {clock : Nat} {w : Doorway} {b : Board}

theorem cnt_eq_arr_iff {r : TimRegs} {ms : Word} {count : Nat}
    (harr : r.arr = loadedArr clock ms.toNat)
    (hcnt : r.cnt.toNat = count % countsOf clock ms) :
    r.cnt = r.arr ↔ count % countsOf clock ms + 1 = countsOf clock ms := by
  rw [← BitVec.toNat_inj, harr, hcnt, countsOf]
  omega

/-- Below the auto-reload value the counter does not wrap. -/
theorem toNat_cnt_succ {r : TimRegs} {ms : Word} {count : Nat}
    (harr : r.arr = loadedArr clock ms.toNat)
    (hcnt : r.cnt.toNat = count % countsOf clock ms) (hne : r.cnt ≠ r.arr) :
    (r.cnt + 1).toNat = (count + 1) % countsOf clock ms := by
  have hlt : count % countsOf clock ms < countsOf clock ms :=
    Nat.mod_lt _ (Nat.succ_pos _)
  have hwrap : count % countsOf clock ms + 1 ≠ countsOf clock ms := fun h =>
    hne ((cnt_eq_arr_iff harr hcnt).mpr h)
  have harrlt : countsOf clock ms ≤ 2 ^ 32 := by
    have := (loadedArr clock ms.toNat).isLt
    rw [countsOf]
    omega
  rw [mod_succ_of_lt (by omega), BitVec.toNat_add, hcnt]
  have hone : (1 : Word).toNat = 1 := rfl
  rw [hone, Nat.mod_eq_of_lt]
  omega

/-- The square wave of a counter changes at its overflows. -/
theorem squareWave_counted {r : TimRegs} {ms : Word} {count : Nat}
    (harr : r.arr = loadedArr clock ms.toNat)
    (hcnt : r.cnt.toNat = count % countsOf clock ms) :
    squareWave (countsOf clock ms) (count + 1) =
      if r.cnt = r.arr then !squareWave (countsOf clock ms) count
      else squareWave (countsOf clock ms) count := by
  have hwrap := cnt_eq_arr_iff harr hcnt
  split
  · rename_i heq
    exact squareWave_succ_of_wrap (hwrap.mp heq)
  · rename_i hne
    have hlt : count % countsOf clock ms < countsOf clock ms :=
      Nat.mod_lt _ (Nat.succ_pos _)
    have hnowrap := mt hwrap.mpr hne
    exact squareWave_succ_of_lt (by omega)

end Counts

section Counting

variable {leds : DoorLeds} {b : Board}

theorem timer_ne_TIM2 (l : DoorLed) : l.timer ≠ .TIM2 := by
  cases l <;> decide

theorem timer_eq_iff {l m : DoorLed} : m.timer = l.timer ↔ m = l := by
  cases l <;> cases m <;> decide

/-- A count of the motor timer.  At the overflow the handler disables the
interrupt, so that it reports the timeout once. -/
def motorCounted (r : TimRegs) : TimRegs :=
  if r.cnt = r.arr then
    { r with cnt := 0, uie := false, uif := !r.uie }
  else { r with cnt := r.cnt + 1 }

theorem tim2IrqHandler_overflow (b : Board) :
    tim2IrqHandler (b.onTim .TIM2 TimRegs.overflow) =
      clearUpdateFlag .TIM2 (portMotorSetTimeoutStatus motorAutomaticDoor true
        (b.onTim .TIM2 TimRegs.overflow)) := by
  rw [tim2IrqHandler, Board.onTim_tim_self]
  rfl

theorem countTimer_motor (hcen : (b.tim .TIM2).cen = true)
    (harr : (b.tim .TIM2).arr ≠ 0)
    (hserved : (b.nvic (.TIM .TIM2)).enabled = true) :
    ∃ b', countTimer leds .TIM2 b = some b' ∧
      panelOf leds b' = panelOf leds b ∧
      b'.tim .TIM2 = motorCounted (b.tim .TIM2) ∧
      (∀ t, t ≠ .TIM2 → b'.tim t = b.tim t) ∧
      b'.timeout =
        (b.timeout || (decide ((b.tim .TIM2).cnt = (b.tim .TIM2).arr) &&
          (b.tim .TIM2).uie)) := by
  refine ⟨_, countTimer_eq_some_iff.mpr ⟨⟨hcen, harr⟩, rfl⟩, ?_⟩
  by_cases hwrap : (b.tim .TIM2).cnt = (b.tim .TIM2).arr
  · rw [if_pos hwrap, serveUpdate, updatePending_overflow, hserved, Bool.and_true]
    cases huie : (b.tim .TIM2).uie
    · refine ⟨panelOf_overflow leds b _, ?_, ?_, by simp⟩
      · simp [motorCounted, hwrap, huie, TimRegs.overflow]
      · exact fun t ht => Board.onTim_tim_of_ne _ _ _ _ ht
    · rw [if_pos rfl, timIrqHandler]
      refine ⟨?_, ?_, ?_, ?_⟩
      · rw [panelOf_tim2IrqHandler, panelOf_overflow]
      · simp [tim2IrqHandler_overflow, clearUpdateFlag, portMotorSetTimeoutStatus,
          motorAutomaticDoor, motorCounted, hwrap, huie, TimRegs.overflow]
      · intro t ht
        simp [tim2IrqHandler_overflow, clearUpdateFlag, portMotorSetTimeoutStatus,
          motorAutomaticDoor, Board.onTim_tim_of_ne, ht]
      · simp [tim2IrqHandler_overflow, clearUpdateFlag, portMotorSetTimeoutStatus,
          hwrap]
  · rw [if_neg hwrap]
    refine ⟨?_, ?_, ?_, by simp [hwrap]⟩
    · exact panelOf_onTim_of_cen leds b .TIM2 (by intro r; rfl)
    · simp [motorCounted, hwrap]
    · exact fun t ht => Board.onTim_tim_of_ne _ _ _ _ ht

/-- A count of a blink timer that interrupts. -/
def blinkCounted (r : TimRegs) : TimRegs :=
  if r.cnt = r.arr then { r with cnt := 0, uif := false }
  else { r with cnt := r.cnt + 1 }

theorem cnt_blinkCounted {clock : Nat} {r : TimRegs} {ms : Word} {count : Nat}
    (harr : r.arr = loadedArr clock ms.toNat)
    (hcnt : r.cnt.toNat = count % countsOf clock ms) :
    (blinkCounted r).cnt.toNat = (count + 1) % countsOf clock ms := by
  rw [blinkCounted]
  split
  · rename_i heq
    exact (mod_succ_of_wrap ((cnt_eq_arr_iff harr hcnt).mp heq)).symm
  · rename_i hne
    exact toNat_cnt_succ harr hcnt hne

theorem blinkCounted_cen (r : TimRegs) : (blinkCounted r).cen = r.cen := by
  rw [blinkCounted]
  split <;> rfl

@[simp] theorem portLedToggle_tim (led : PortLedHw) (b : Board) :
    (portLedToggle led b).tim = b.tim := rfl

@[simp] theorem portLedToggle_timeout (led : PortLedHw) (b : Board) :
    (portLedToggle led b).timeout = b.timeout := rfl

theorem countTimer_led {l : DoorLed} (hcen : (b.tim l.timer).cen = true)
    (harr : (b.tim l.timer).arr ≠ 0) (huie : (b.tim l.timer).uie = true)
    (hserved : (b.nvic (.TIM l.timer)).enabled = true) :
    ∃ b', countTimer leds l.timer b = some b' ∧
      panelOf leds b' =
        (if (b.tim l.timer).cnt = (b.tim l.timer).arr then
          (panelOf leds b).toggle l else panelOf leds b) ∧
      b'.tim l.timer = blinkCounted (b.tim l.timer) ∧
      (∀ t, t ≠ l.timer → b'.tim t = b.tim t) ∧
      b'.timeout = b.timeout := by
  refine ⟨_, countTimer_eq_some_iff.mpr ⟨⟨hcen, harr⟩, rfl⟩, ?_⟩
  by_cases hwrap : (b.tim l.timer).cnt = (b.tim l.timer).arr
  · rw [if_pos hwrap, if_pos hwrap, serveUpdate, updatePending_overflow, huie, hserved,
      Bool.and_true, if_pos rfl]
    refine ⟨?_, ?_, ?_, ?_⟩
    · rw [timIrqHandler_led, panelOf_blinkIrqHandler]
    · simp [timIrqHandler_led, clearUpdateFlag, blinkCounted, hwrap,
        TimRegs.overflow]
    · intro t ht
      simp [timIrqHandler_led, clearUpdateFlag, Board.onTim_tim_of_ne, ht]
    · simp [timIrqHandler_led, clearUpdateFlag]
  · rw [if_neg hwrap, if_neg hwrap]
    refine ⟨?_, ?_, ?_, rfl⟩
    · exact panelOf_onTim_of_cen leds b l.timer (by intro r; rfl)
    · simp [blinkCounted, hwrap]
    · exact fun t ht => Board.onTim_tim_of_ne _ _ _ _ ht

theorem timIrqHandler_variables (t : Timer) (b : Board) :
    (timIrqHandler leds t b).msTicks = b.msTicks ∧
      (timIrqHandler leds t b).flagPressed = b.flagPressed ∧
      (timIrqHandler leds t b).sensorStatus = b.sensorStatus := by
  cases t with
  | TIM2 =>
      simp only [timIrqHandler, tim2IrqHandler]
      split <;> exact ⟨rfl, rfl, rfl⟩
  | TIM3 | TIM4 => exact ⟨rfl, rfl, rfl⟩

theorem countTimer_variables {b' : Board} {t : Timer}
    (h : countTimer leds t b = some b') :
    b'.msTicks = b.msTicks ∧ b'.flagPressed = b.flagPressed ∧
      b'.sensorStatus = b.sensorStatus := by
  have hhandler := @timIrqHandler_variables leds t
  refine ⟨?_, ?_, ?_⟩
  · exact view_countTimer Board.msTicks (fun b => (hhandler b).1)
      (fun _ => rfl) (fun _ => rfl) h
  · exact view_countTimer Board.flagPressed (fun b => (hhandler b).2.1)
      (fun _ => rfl) (fun _ => rfl) h
  · exact view_countTimer Board.sensorStatus (fun b => (hhandler b).2.2)
      (fun _ => rfl) (fun _ => rfl) h

end Counting

section Timers

variable {cfg : DoorConfig} {clock : Nat} {w : Doorway} {b : Board}

theorem oneShotAt_counted {ms : Word} {elapsed : Nat} {r : TimRegs}
    {timeout : Bool} (h : OneShotAt clock ms elapsed r timeout) :
    OneShotAt clock ms (elapsed + 1) (motorCounted r)
      (timeout || (decide (r.cnt = r.arr) && r.uie)) := by
  obtain ⟨harr, hpsc, hcnt, htimeout, huie⟩ := h
  have hwrap := cnt_eq_arr_iff harr hcnt
  by_cases heq : r.cnt = r.arr
  · have hmod := hwrap.mp heq
    have hexpired : countsOf clock ms ≤ elapsed + 1 := by
      have hle := Nat.mod_le elapsed (countsOf clock ms)
      omega
    simp only [motorCounted, heq, if_true, decide_true, Bool.true_and]
    refine ⟨harr, hpsc, ?_, ?_, ?_⟩
    · rw [mod_succ_of_wrap hmod]
      rfl
    · rw [huie, decide_eq_true hexpired]
      cases timeout <;> rfl
    · rw [huie]
      cases timeout <;> rfl
  · have hexpired : countsOf clock ms ≤ elapsed + 1 ↔ countsOf clock ms ≤ elapsed := by
      rcases Nat.lt_or_ge elapsed (countsOf clock ms) with hlt | hge
      · rw [period_le_succ_iff_of_lt hlt, ← hwrap]
        constructor
        · exact fun h => absurd h heq
        · omega
      · omega
    simp only [motorCounted, heq, if_false, decide_false, Bool.false_and,
      Bool.or_false]
    refine ⟨harr, hpsc, toNat_cnt_succ harr hcnt heq, ?_, huie⟩
    rw [htimeout, decide_eq_decide]
    exact hexpired.symm

theorem animates_countMotor (h : Animates cfg clock w (worksOf cfg.leds b))
    (hprepared : Prepared cfg clock (setupOf cfg.leds b))
    (hsafe : SafeTimes cfg clock) :
    Option.Rel (fun w' b' => Animates cfg clock w' (worksOf cfg.leds b'))
      w.countMotor (countTimer cfg.leds .TIM2 b) := by
  rw [Doorway.countMotor]
  by_cases htimed : motorTimed w.state = true
  · have harr : (b.tim .TIM2).arr ≠ 0 := by
      have hloaded : (b.tim .TIM2).arr = _ := (h.timed htimed).arr
      rw [hloaded]
      exact loadedArr_ne_zero (hsafe.states w.state htimed)
    obtain ⟨b', hcount, hpanel, hmotor, hother, htimeout⟩ :=
      @countTimer_motor cfg.leds b (h.motor.trans htimed) harr
        (hprepared.served .TIM2)
    rw [if_pos htimed, hcount]
    refine .some ⟨?_, ?_, ?_, ?_, ?_⟩
    · intro l
      exact (congrArg (fun p => p.lit l) hpanel).trans (h.lit l)
    · intro l
      exact (congrArg TimRegs.cen (hother _ (timer_ne_TIM2 l))).trans (h.blinking l)
    · intro l hblinking
      have hcnt := h.blinked l hblinking
      simp only [worksOf] at hcnt ⊢
      rw [hother _ (timer_ne_TIM2 l)]
      exact hcnt
    · have hcen := h.motor
      simp only [worksOf] at hcen ⊢
      rw [hmotor, motorCounted]
      split <;> exact hcen
    · intro _
      have hshot := oneShotAt_counted (h.timed htimed)
      simp only [worksOf] at hshot ⊢
      rw [hmotor, htimeout]
      exact hshot
  · rw [Bool.not_eq_true] at htimed
    have hstopped : (b.tim .TIM2).cen = false := h.motor.trans htimed
    rw [htimed, countTimer_of_stopped hstopped]
    exact .none

/-- The overflow toggles the LED that blinks. -/
theorem lit_counted {timing : Timing} {p : Panel} {l : DoorLed} {r : TimRegs}
    {ms : Word}
    (hblinking : w.blinking l = true) (hlit : ∀ m, p.lit m = w.lit timing m)
    (hcounts : timing.blinkCounts l = countsOf clock ms)
    (harr : r.arr = loadedArr clock ms.toNat)
    (hcnt : r.cnt.toNat = w.blinked l % countsOf clock ms) (m : DoorLed) :
    (if r.cnt = r.arr then p.toggle l else p).lit m =
      (w.countedBlink l).lit timing m := by
  by_cases hml : m = l
  · subst m
    have hold : p.lit l = !squareWave (countsOf clock ms) (w.blinked l) := by
      rw [hlit, Doorway.lit_of_blinking hblinking, hcounts]
    rw [Doorway.lit_countedBlink_self hblinking, hcounts, squareWave_counted harr hcnt]
    split
    · rw [← hold]
      exact if_pos rfl
    · exact hold
  · rw [Doorway.lit_countedBlink_of_ne hml, ← hlit]
    split
    · exact if_neg hml
    · rfl

theorem animates_countBlink (l : DoorLed)
    (h : Animates cfg clock w (worksOf cfg.leds b))
    (hprepared : Prepared cfg clock (setupOf cfg.leds b))
    (hsafe : SafeTimes cfg clock) :
    Option.Rel (fun w' b' => Animates cfg clock w' (worksOf cfg.leds b'))
      (w.countBlink l) (countTimer cfg.leds l.timer b) := by
  rw [Doorway.countBlink]
  by_cases hblinking : w.blinking l = true
  · have hblink := hprepared.blink l
    have huie : (b.tim l.timer).uie = true := congrArg BlinkSetting.uie hblink
    have harr : (b.tim l.timer).arr = _ := congrArg BlinkSetting.arr hblink
    have hcnt : (b.tim l.timer).cnt.toNat = _ := h.blinked l hblinking
    obtain ⟨b', hcount, hpanel, htim, hother, htimeout⟩ :=
      @countTimer_led cfg.leds b l ((h.blinking l).trans hblinking)
        (harr ▸ loadedArr_ne_zero (hsafe.blinks l)) huie
        (hprepared.served l.timer)
    rw [if_pos hblinking, hcount]
    refine .some ⟨?_, ?_, ?_, ?_, ?_⟩
    · intro m
      have hlit : ∀ m, (panelOf cfg.leds b).lit m = w.lit (timingOf cfg clock) m :=
        h.lit
      exact (congrArg (fun p => p.lit m) hpanel).trans
        (lit_counted hblinking hlit rfl harr hcnt m)
    · intro m
      have hcen := h.blinking m
      simp only [worksOf] at hcen ⊢
      by_cases hml : m = l
      · subst m
        rw [htim, blinkCounted_cen]
        exact hcen
      · rw [hother _ (mt timer_eq_iff.mp hml)]
        exact hcen
    · intro m hm
      by_cases hml : m = l
      · subst m
        simp only [worksOf, Doorway.countedBlink, if_true]
        rw [htim]
        exact cnt_blinkCounted harr hcnt
      · have hold := h.blinked m hm
        simp only [worksOf, Doorway.countedBlink, if_neg hml] at hold ⊢
        rw [hother _ (mt timer_eq_iff.mp hml)]
        exact hold
    · have hcen := h.motor
      simp only [worksOf] at hcen ⊢
      rw [hother _ (timer_ne_TIM2 l).symm]
      exact hcen
    · intro htimed
      have hshot := h.timed htimed
      simp only [worksOf] at hshot ⊢
      rw [hother _ (timer_ne_TIM2 l).symm, htimeout]
      exact hshot
  · rw [Bool.not_eq_true] at hblinking
    have hstopped : (b.tim l.timer).cen = false := (h.blinking l).trans hblinking
    rw [hblinking, countTimer_of_stopped hstopped]
    exact .none

end Timers

section Transitions

variable {cfg : DoorConfig} {clock : Nat} {w : Doorway} {row : Row} {d : Door}

/-- The panel after an action and the interrupt of the blink timer that it
starts. -/
def rowServed (row : Row) (p : Panel) : Panel :=
  (startedLed row).elim (rowOnPanel row p) fun l => (rowOnPanel row p).toggle l

theorem lit_rowServed {timing : Timing} {p : Panel}
    (hlit : ∀ l, p.lit l = w.lit timing l) (hstate : w.state = row.origin)
    (l : DoorLed) : (rowServed row p).lit l = (w.take row).lit timing l := by
  have hl := hlit l
  rw [Doorway.lit, hstate] at hl
  cases row <;> cases l <;>
    simp_all [rowServed, startedLed, rowOnPanel, Panel.light, Panel.blink,
      Panel.toggle, Panel.runMotor, Doorway.lit, Doorway.take, ledMode, Row.origin,
      Row.destination]

/-- An LED blinks in the new state exactly when the row has started it. -/
theorem startedLed_iff (row : Row) (l : DoorLed) :
    startedLed row = some l ↔ ledMode row.destination l = .blinking := by
  cases row <;> cases l <;> decide

theorem blinking_take (hstate : w.state = row.origin) (l : DoorLed) :
    (w.take row).blinking l =
      if startedLed row = some l then true
      else if stoppedLed row = some l then false else w.blinking l := by
  rw [Doorway.blinking, Doorway.blinking, hstate, Doorway.take]
  cases row <;> cases l <;> rfl

theorem armedWith_eq (cfg : DoorConfig) (row : Row) :
    armedWith cfg row =
      if motorTimed row.destination then
        some (stateTimeoutMs cfg row.destination)
      else none := by
  cases row <;> rfl

theorem oneShotAt_armed (clock : Nat) (ms : Word) (r : TimRegs) :
    OneShotAt clock ms 0 (armed clock ms r) false where
  arr := rfl
  psc := rfl
  cnt := (Nat.zero_mod _).symm
  timeout_eq := by simp [countsOf]
  uie := rfl

/-- Only the blink timer that an action starts has an interrupt to serve. -/
theorem serveUpdates_row (hprepared : Prepared cfg clock (setupOf cfg.leds d.board))
    (hidle : ∀ t, updatePending t d.board = false) :
    serveUpdates cfg.leds (row.action cfg d).board =
      (startedLed row).elim (row.action cfg d).board fun l =>
        timIrqHandler cfg.leds l.timer (row.action cfg d).board := by
  cases hstarted : startedLed row with
  | none =>
      apply serveUpdates_of_none
      intro t
      apply updatePending_action_of_ne _ (hidle t)
      rw [hstarted]
      nofun
  | some l =>
      have hblink := hprepared.blink l
      have hurs : (d.board.tim l.timer).urs = false := congrArg BlinkSetting.urs hblink
      have huie : (d.board.tim l.timer).uie = true := congrArg BlinkSetting.uie hblink
      apply serveUpdates_of_one
      · exact updatePending_action_started hstarted hurs huie (hprepared.served _)
      · intro t ht
        apply updatePending_action_of_ne _ (hidle t)
        rw [hstarted]
        rintro _ ⟨⟩
        exact ht

theorem panelOf_serveUpdates_row
    (hprepared : Prepared cfg clock (setupOf cfg.leds d.board))
    (hidle : ∀ t, updatePending t d.board = false) :
    panelOf cfg.leds (serveUpdates cfg.leds (row.action cfg d).board) =
      rowServed row (panelOf cfg.leds d.board) := by
  rw [serveUpdates_row hprepared hidle, rowServed, ← panelOf_action cfg]
  cases startedLed row with
  | none => rfl
  | some l =>
      rw [Option.elim_some, timIrqHandler_led, panelOf_clearUpdateFlag,
        panelOf_portLedToggle]
      rfl

/-- What the handlers of the blink timers keep is after the interrupt what it is
after the action. -/
theorem view_serveUpdates_row {α : Type} (view : Board → α)
    (hview : ∀ (l : DoorLed) b, view (timIrqHandler cfg.leds l.timer b) = view b)
    (hprepared : Prepared cfg clock (setupOf cfg.leds d.board))
    (hidle : ∀ t, updatePending t d.board = false) :
    view (serveUpdates cfg.leds (row.action cfg d).board) =
      view (row.action cfg d).board := by
  rw [serveUpdates_row hprepared hidle]
  cases startedLed row with
  | none => rfl
  | some l => exact hview l _

/-- Of the timers, serving a blink interrupt changes an update flag alone. -/
theorem timIrqHandler_led_get {α : Type} (get : TimRegs → α)
    (h : ∀ r : TimRegs, get { r with uif := false } = get r) (leds : DoorLeds)
    (t : Timer) (l : DoorLed) (b : Board) :
    get ((timIrqHandler leds l.timer b).tim t) = get (b.tim t) := by
  rw [timIrqHandler_led]
  exact onTim_get get h l.timer t (portLedToggle (leds.hw l) b)

theorem animates_take (h : Animates cfg clock w (worksOf cfg.leds d.board))
    (hprepared : Prepared cfg clock (setupOf cfg.leds d.board))
    (hidle : ∀ t, updatePending t d.board = false) (hstate : w.state = row.origin) :
    Animates cfg clock (w.take row)
      (worksOf cfg.leds (serveUpdates cfg.leds (row.action cfg d).board)) := by
  have hclock : d.board.systemCoreClock.toNat = clock := hprepared.clock_eq
  have hmotor := action_motorTimer cfg row d
  rw [hclock, armedWith_eq] at hmotor
  have hpanel := @panelOf_serveUpdates_row _ _ row _ hprepared hidle
  have htim : (serveUpdates cfg.leds (row.action cfg d).board).tim .TIM2 =
      (row.action cfg d).board.tim .TIM2 :=
    view_serveUpdates_row (fun b => b.tim .TIM2)
      (fun l b => timIrqHandler_tim_of_ne cfg.leds b (timer_ne_TIM2 l).symm)
      hprepared hidle
  have htimeout : (serveUpdates cfg.leds (row.action cfg d).board).timeout =
      (row.action cfg d).board.timeout :=
    view_serveUpdates_row Board.timeout (fun l b => by cases l <;> rfl) hprepared hidle
  have hcen : ∀ t, ((serveUpdates cfg.leds (row.action cfg d).board).tim t).cen =
      ((row.action cfg d).board.tim t).cen := fun t =>
    view_serveUpdates_row (fun b => (b.tim t).cen)
      (timIrqHandler_led_get TimRegs.cen (fun _ => rfl) cfg.leds t) hprepared hidle
  have hcnt : ∀ t, ((serveUpdates cfg.leds (row.action cfg d).board).tim t).cnt =
      ((row.action cfg d).board.tim t).cnt := fun t =>
    view_serveUpdates_row (fun b => (b.tim t).cnt)
      (timIrqHandler_led_get TimRegs.cnt (fun _ => rfl) cfg.leds t) hprepared hidle
  refine ⟨?_, ?_, ?_, ?_, ?_⟩
  · intro l
    exact (congrArg (fun p => p.lit l) hpanel).trans (lit_rowServed h.lit hstate l)
  · intro l
    have hold := h.blinking l
    simp only [worksOf] at hold ⊢
    rw [hcen, action_blinkTimer, blinking_take hstate]
    split
    · rfl
    · split
      · rfl
      · exact hold
  · intro l hblinking
    have hmode : ledMode row.destination l = .blinking := of_decide_eq_true hblinking
    simp only [worksOf, Doorway.take, if_pos hmode]
    rw [hcnt, action_blinkTimer,
      if_pos ((startedLed_iff row l).mpr hmode), Nat.zero_mod]
    rfl
  · simp only [worksOf, Doorway.take]
    rw [htim, hmotor]
    split
    · rename_i htimed
      exact htimed.symm
    · rename_i htimed
      exact (Bool.eq_false_iff.mpr htimed).symm
  · intro htimed
    have hdest : motorTimed row.destination = true := htimed
    simp only [worksOf, Doorway.take]
    rw [htim, hmotor, htimeout, action_timeout, armedWith_eq, if_pos hdest]
    exact oneShotAt_armed clock _ _

end Transitions

section Steps

variable {cfg : DoorConfig} {clock : Nat} {choice : RowChoice Row}
  {w : Doorway} {d : Door}

theorem heldHigh_congr {b b' : Board} (hpressed : b'.flagPressed = b.flagPressed)
    (hsensor : b'.sensorStatus = b.sensorStatus) (l : Line) :
    heldHigh l b' = heldHigh l b := by
  cases l
  · exact congrArg (fun pressed => !pressed) hpressed
  · exact hsensor

theorem checkOpen_eq (hhigh : ∀ l, heldHigh l d.board = w.high l) :
    checkOpen d = w.requested := by
  rw [Doorway.requested, ← hhigh, ← hhigh]
  simp [checkOpen, heldHigh, requests, portPirSensorGetStatus, portButtonIsPressed]

/-- In a state without a timeout the guards do not read its flag. -/
theorem nextRow_eq (h : Represents cfg clock w d) :
    nextRow choice d.fsm.currentState (checkOpen d) d.board.timeout =
      nextRow choice w.state w.requested (w.expired (timingOf cfg clock)) := by
  rw [h.state, checkOpen_eq h.high]
  cases htimed : motorTimed w.state
  · cases hstate : w.state with
    | CLOSED => exact nextRow_closed choice _ _ _
    | OPENING | OPEN | CLOSING =>
        rw [hstate] at htimed
        cases htimed
  · exact congrArg _ (h.works.timed htimed).timeout_eq

theorem serveUpdates_variables (leds : DoorLeds) (b : Board) :
    (serveUpdates leds b).msTicks = b.msTicks ∧
      (serveUpdates leds b).flagPressed = b.flagPressed ∧
      (serveUpdates leds b).sensorStatus = b.sensorStatus := by
  have hhandler := @timIrqHandler_variables leds
  refine ⟨?_, ?_, ?_⟩
  · exact view_serveUpdates Board.msTicks fun t b => (hhandler t b).1
  · exact view_serveUpdates Board.flagPressed fun t b => (hhandler t b).2.1
  · exact view_serveUpdates Board.sensorStatus fun t b => (hhandler t b).2.2

theorem represents_poll (choice : RowChoice Row) (h : Represents cfg clock w d) :
    ∃ d', poll cfg choice d = some d' ∧
      Represents cfg clock (w.fire (timingOf cfg clock) choice) d' := by
  have hfire : fireChosen cfg choice d = fsmFire cfg d
      (nextRow choice w.state w.requested (w.expired (timingOf cfg clock))) := by
    rw [fireChosen, choose_eq_nextRow, nextRow_eq h]
  rw [Doorway.fire]
  cases hrow : nextRow choice w.state w.requested (w.expired (timingOf cfg clock)) with
  | none =>
      rw [hrow] at hfire
      refine ⟨d, poll_eq_some_iff.mpr ⟨d, hfire, ?_⟩, h⟩
      rw [serveUpdates_of_none h.idle]
  | some row =>
      have horigin := origin_of_nextRow hrow
      rw [hrow, fsmFire_some_eq_some_iff.mpr ⟨h.state.trans horigin.symm, rfl⟩] at hfire
      refine ⟨_, poll_eq_some_iff.mpr ⟨_, hfire, rfl⟩, ?_⟩
      obtain ⟨-, hticks, hpressed, hsensor⟩ := action_variables cfg row d
      obtain ⟨hticks', hpressed', hsensor'⟩ :=
        serveUpdates_variables cfg.leds (row.action cfg d).board
      refine ⟨rfl, animates_take h.works h.prepared h.idle horigin.symm, ?_, ?_, ?_,
        ?_, ?_, fun _ => updatePending_serveUpdates, h.safe⟩
      · intro l
        exact (heldHigh_congr (hpressed'.trans hpressed) (hsensor'.trans hsensor)
          l).trans (h.high l)
      · exact (hticks'.trans hticks).trans h.ticks
      · apply presence_action cfg row
        rw [h.presence, horigin]
      · refine (action_lastTime cfg row d).trans ?_
        rw [h.ticks, h.openedAt]
        simp only [Option.elim_some, Doorway.take]
        split <;> rfl
      · have hsetup : setupOf cfg.leds
            (serveUpdates cfg.leds (row.action cfg d).board) =
              setupOf cfg.leds (row.action cfg d).board :=
          view_serveUpdates _ (setupOf_timIrqHandler cfg.leds)
        rw [hsetup, setupOf_action]
        exact h.prepared

theorem serveLine_kept (l : Line) (b : Board) :
    (serveLine l b).tim = b.tim ∧ (serveLine l b).timeout = b.timeout := by
  have htimeout : ∀ high, (updateFlags l high b).timeout = b.timeout := by
    intro high
    cases l <;> cases high <;> simp only [updateFlags]
    · split <;> rfl
    · rfl
    · rfl
  rw [serveLine]
  split
  · exact ⟨(updateFlags_registers l b _).2.2, htimeout _⟩
  · exact ⟨rfl, rfl⟩

theorem worksOf_serve (leds : DoorLeds) (s : Service) (b : Board) :
    worksOf leds (pollStep b (.serve s)) = worksOf leds b := by
  have hlit : ∀ l, ledLit (leds.hw l) (presentLine s b) = ledLit (leds.hw l) b :=
    fun l => congrArg (fun odr => odr.getLsbD (leds.hw l).pin)
      (presentLine_get GpioRegs.odr (by intro r idr; rfl) s _ b)
  have hpanel := panelOf_exti15_10IrqHandler leds (presentLine s b)
  obtain ⟨hbutton, hbutton'⟩ := serveLine_kept .button (presentLine s b)
  obtain ⟨hpir, hpir'⟩ := serveLine_kept .pir (serveLine .button (presentLine s b))
  have hlit' : (fun l => ledLit (leds.hw l) (pollStep b (.serve s))) =
      fun l => ledLit (leds.hw l) b := by
    funext l
    exact (congrArg (fun p => p.lit l) hpanel).trans (hlit l)
  rw [worksOf, worksOf, hlit']
  rw [pollStep, exti15_10IrqHandler, hpir, hpir', hbutton, hbutton']
  rfl

theorem represents_serve (s : Service) (h : Represents cfg clock w d) :
    Represents cfg clock (w.serve s)
      { d with board := pollStep d.board (.serve s) } := by
  have hsetup : setupOf cfg.leds (pollStep d.board (.serve s)) =
      setupOf cfg.leds d.board :=
    (setupOf_exti15_10IrqHandler cfg.leds _).trans
      (setupOf_presentLine cfg.leds s d.board)
  have htim : (pollStep d.board (.serve s)).tim = d.board.tim :=
    congrArg Works.tim (worksOf_serve cfg.leds s d.board)
  refine ⟨h.state, ?_, ?_, ?_, h.presence, h.openedAt, ?_, ?_, h.safe⟩
  · rw [worksOf_serve]
    exact ⟨h.works.lit, h.works.blinking, h.works.blinked, h.works.motor,
      h.works.timed⟩
  · intro l
    simp only [heldHigh_serve, Doorway.serve, h.high]
  · have hticks : (pollStep d.board (.serve s)).msTicks = d.board.msTicks := by
      rw [pollStep, exti15_10IrqHandler, serveLine_msTicks, serveLine_msTicks]
      rfl
    exact hticks.trans h.ticks
  · exact (congrArg (Prepared cfg clock) hsetup).mpr h.prepared
  · intro t
    rw [updatePending_congr (congrFun htim t) (congrArg Setup.nvic hsetup)]
    exact h.idle t

theorem represents_sysTick (h : Represents cfg clock w d) :
    Represents cfg clock { w with ticks := w.ticks + 1 }
      { d with board := sysTickHandler d.board } := by
  refine ⟨h.state, ?_, ?_, ?_, h.presence, h.openedAt, h.prepared, h.idle, h.safe⟩
  · exact ⟨h.works.lit, h.works.blinking, h.works.blinked, h.works.motor,
      h.works.timed⟩
  · intro l
    have hheld : heldHigh l (sysTickHandler d.board) = heldHigh l d.board := by
      apply heldHigh_congr <;> rfl
    exact hheld.trans (h.high l)
  · simp only [sysTickHandler, portSystemSetMillis, portSystemGetMillis, h.ticks]
    exact (BitVec.ofNat_add _ _).symm

/-- A count leaves everything but the LEDs and the timers as it was. -/
theorem represents_count {t : Timer} {w' : Doorway} {b' : Board}
    (h : Represents cfg clock w d) (hcount : countTimer cfg.leds t d.board = some b')
    (hworks : Animates cfg clock w' (worksOf cfg.leds b'))
    (hsame : w'.state = w.state ∧ w'.high = w.high ∧ w'.ticks = w.ticks ∧
      w'.openedAt = w.openedAt) :
    Represents cfg clock w' { d with board := b' } := by
  obtain ⟨hstate, hhigh, hticks, hopened⟩ := hsame
  obtain ⟨hticks', hpressed, hsensor⟩ := countTimer_variables hcount
  refine ⟨h.state.trans hstate.symm, hworks, ?_, ?_, ?_, ?_, ?_,
    fun _ => updatePending_countTimer h.idle hcount, h.safe⟩
  · intro l
    rw [hhigh, ← h.high]
    exact heldHigh_congr hpressed hsensor l
  · rw [hticks]
    exact hticks'.trans h.ticks
  · rw [hstate]
    exact h.presence
  · rw [hopened]
    exact h.openedAt
  · rw [setupOf_countTimer cfg.leds hcount]
    exact h.prepared

theorem represents_countTimer {t : Timer} {counted : Option Doorway}
    (h : Represents cfg clock w d)
    (hworks : Option.Rel
      (fun w' b' => Animates cfg clock w' (worksOf cfg.leds b')) counted
      (countTimer cfg.leds t d.board))
    (hsame : ∀ w', counted = some w' → w'.state = w.state ∧ w'.high = w.high ∧
      w'.ticks = w.ticks ∧ w'.openedAt = w.openedAt) :
    Option.Rel (Represents cfg clock) counted
      (systemStep cfg choice d (.count t)) := by
  rw [systemStep]
  cases hcount : countTimer cfg.leds t d.board with
  | none =>
      rw [hcount] at hworks
      rw [eq_none_of_rel_none hworks]
      exact .none
  | some b' =>
      rw [hcount] at hworks
      obtain ⟨w', hw', hanimates⟩ := exists_of_rel_some hworks
      rw [hw']
      exact .some (represents_count h hcount hanimates (hsame w' hw'))

theorem represents_step (w : Doorway) (d : Door) (e : SystemEvent)
    (h : Represents cfg clock w d) :
    Option.Rel (Represents cfg clock) (w.step (timingOf cfg clock) choice e)
      (systemStep cfg choice d e) := by
  have hblink : ∀ l w', w.countBlink l = some w' →
      w'.state = w.state ∧ w'.high = w.high ∧ w'.ticks = w.ticks ∧
        w'.openedAt = w.openedAt := by
    intro l w' hcount
    rw [Doorway.countBlink, Option.ite_none_right_eq_some] at hcount
    obtain rfl := Option.some.inj hcount.2
    exact ⟨rfl, rfl, rfl, rfl⟩
  cases e with
  | serve s => exact .some (represents_serve s h)
  | sysTick => exact .some (represents_sysTick h)
  | count t =>
      cases t with
      | TIM2 =>
          apply represents_countTimer h (animates_countMotor h.works h.prepared h.safe)
          intro w' hcount
          rw [Doorway.countMotor, Option.ite_none_right_eq_some] at hcount
          obtain rfl := Option.some.inj hcount.2
          exact ⟨rfl, rfl, rfl, rfl⟩
      | TIM3 =>
          exact represents_countTimer h
            (animates_countBlink .opening h.works h.prepared h.safe) (hblink .opening)
      | TIM4 =>
          exact represents_countTimer h
            (animates_countBlink .closing h.works h.prepared h.safe) (hblink .closing)
  | fire =>
      obtain ⟨d', hpoll, hd'⟩ := represents_poll choice h
      rw [Doorway.step, systemStep, hpoll]
      exact .some hd'

/-- Every run of the firmware is a run of the doorway, and every run of the
doorway one of the firmware. -/
theorem represents_run (choice : RowChoice Row) (h : Represents cfg clock w d)
    (events : List SystemEvent) :
    Option.Rel (Represents cfg clock)
      (runEvents (Doorway.step (timingOf cfg clock) choice) w events)
      (runEvents (systemStep cfg choice) d events) :=
  runEvents_bisimilar represents_step h events

/-- The doorway that a closed door is in.  The blink timers are stopped, so
what they have counted does not matter. -/
def doorwayOf (d : Door) : Doorway where
  state := d.fsm.currentState
  elapsed := 0
  blinked _ := 0
  high l := heldHigh l d.board
  ticks := d.board.msTicks.toNat
  openedAt := d.fsm.lastTimePresenceOrButton.toNat

theorem represents_start (hstart : DocumentedStart cfg d)
    (hprepared : Prepared cfg clock (setupOf cfg.leds d.board))
    (hidle : ∀ t, updatePending t d.board = false) (hsafe : SafeTimes cfg clock) :
    Represents cfg clock (doorwayOf d) d where
  state := rfl
  works := by
    have hstate : (doorwayOf d).state = .CLOSED := hstart.state
    refine ⟨?_, ?_, ?_, ?_, ?_⟩
    · intro l
      rw [Doorway.lit, hstate]
      cases l with
      | opening => exact hstart.green
      | closing => exact hstart.red
    · intro l
      rw [Doorway.blinking, hstate]
      cases l <;> exact hstart.timers _
    · intro l hblinking
      rw [Doorway.blinking, hstate] at hblinking
      cases l <;> cases hblinking
    · rw [hstate]
      exact hstart.timers _
    · intro htimed
      rw [hstate] at htimed
      cases htimed
  high _ := rfl
  ticks := by simp [doorwayOf]
  presence := by
    rw [hstart.presence, doorwayOf, hstart.state]
    rfl
  openedAt := by simp [doorwayOf]
  prepared := hprepared
  idle := hidle
  safe := hsafe

end Steps

end AutomaticDoor.DoorRefinement
