import AutomaticDoor.DoorRefinement
import AutomaticDoor.InterruptEnabling

/-!
The initializations of the peripherals.  `fsm_automatic_door_init` is left
empty; its documentation asks for these calls, in no particular order, and for
the red LED to be turned on after them.
-/

namespace AutomaticDoor.PeripheralSetup

open AutomaticDoor.ActionEffects
open AutomaticDoor.BoardRegisters
open AutomaticDoor.ConfigurationFrames
open AutomaticDoor.DoorConsistency
open AutomaticDoor.DoorRefinement
open AutomaticDoor.DoorStateMachine
open AutomaticDoor.Foundations.CallReplays
open AutomaticDoor.InterruptEnabling
open AutomaticDoor.InterruptHandlers
open AutomaticDoor.PinConfiguration
open AutomaticDoor.PortInputs
open AutomaticDoor.PortLed
open AutomaticDoor.PortMotor
open AutomaticDoor.PortSystem
open AutomaticDoor.TimerSetting
open AutomaticDoor.UpdateInterrupts

inductive InitCall
  | button
  | pirSensor
  | led (l : DoorLed)
  | motor
deriving DecidableEq

def applyInit (leds : DoorLeds) (b : Board) : InitCall → Board
  | .button => portButtonInit buttonEmergency b
  | .pirSensor => portPirSensorInit pirSensorAutomaticDoor b
  | .led l => portLedInit (leds.hw l) b
  | .motor => portMotorInit motorAutomaticDoor b

def applyInits (leds : DoorLeds) (b : Board) (calls : List InitCall) : Board :=
  calls.foldl (applyInit leds) b

/-- The board after a reset that leaves a prescaler of the AHB clock behind. -/
def resetBoard (hpre : Fin 16) : Board :=
  { Board.reset with rcc := { Board.reset.rcc with cfgrHpre := hpre } }

/-- The clock configuration of `port_system_init`, the initializations, and the
red LED. -/
def startedBoard (leds : DoorLeds) (hpre : Fin 16) (calls : List InitCall) :
    Board :=
  portLedOn (leds.hw .closing)
    (applyInits leds (systemClockConfig (resetBoard hpre)) calls)

/-- Every peripheral is initialized, in any order and any number of times. -/
def InitializesAll (calls : List InitCall) : Prop := ∀ c : InitCall, c ∈ calls

/-- What `port_led_timer_setup` makes of the registers of a blink timer. -/
def programmed (clock : Nat) (semiPeriodMs : Word) (r : TimRegs) : TimRegs :=
  { r with
    cen := false
    arpe := true
    cnt := 0
    arr := loadedArr clock semiPeriodMs.toNat
    psc := loadedPsc clock semiPeriodMs.toNat
    uif := false
    uie := true }

/-- What `_motor_timeout_timer_init` makes of the registers of the motor
timer. -/
def cleared (r : TimRegs) : TimRegs :=
  { r with cen := false, arpe := true, psc := 0, arr := 0xFFFF, uif := false }

/-- The timer that an initialization programs. -/
def initTimer : InitCall → Option Timer
  | .led l => some l.timer
  | .motor => some .TIM2
  | .button | .pirSensor => none

def initRegs (leds : DoorLeds) (clock : Nat) : Timer → TimRegs → TimRegs
  | .TIM2 => cleared
  | .TIM3 => programmed clock (leds.hw .opening).timerBlinkSemiPeriodMs
  | .TIM4 => programmed clock (leds.hw .closing).timerBlinkSemiPeriodMs

section Calls

variable (leds : DoorLeds) (b : Board)

theorem portLedTimerSetup_eq (l : DoorLed) :
    portLedTimerSetup (leds.hw l) b =
      nvicEnableIrq (.TIM l.timer) (nvicSetPriority (.TIM l.timer) 2 0
        ((enableTimClock l.timer b).onTim l.timer
          (programmed b.systemCoreClock.toNat
            (leds.hw l).timerBlinkSemiPeriodMs))) := by
  simp only [portLedTimerSetup, leds.pTimer_eq]
  cases l <;> rfl

theorem portMotorInit_eq :
    portMotorInit motorAutomaticDoor b =
      nvicEnableIrq (.TIM .TIM2) (nvicSetPriority (.TIM .TIM2) 2 0
        ((enableTimClock .TIM2 b).onTim .TIM2 cleared)) := by
  simp [portMotorInit, motorTimeoutTimerInit, motorAutomaticDoor, Board.onTim,
    cleared]

end Calls

/-- The interrupt that an initialization enables. -/
def initIrqn : InitCall → Irqn
  | .button => extiIrqn buttonEmergency.pin
  | .pirSensor => extiIrqn pirSensorAutomaticDoor.pin
  | .led l => .TIM l.timer
  | .motor => .TIM .TIM2

theorem gpioModeOut_lt : (0x01 : BitVec 8).toNat < 4 := by decide

theorem gpioPupdrNopull_lt : (0x00 : BitVec 8).toNat < 4 := by decide

/-- With `GPIO_MODE_OUT` and `GPIO_PUPDR_NOPULL`. -/
def outputConfig (port : GpioPort) (pin : Pin) : ConfigCall :=
  .config port pin ⟨0x01, gpioModeOut_lt⟩ ⟨0x00, gpioPupdrNopull_lt⟩

def lineConfig (l : Line) : List ConfigCall :=
  [inputConfig l.port l.pin, bothEdges l.port l.pin]

/-- The pin configurations of an initialization, in their order. -/
def initConfig (leds : DoorLeds) : InitCall → List ConfigCall
  | .button => lineConfig .button
  | .pirSensor => lineConfig .pir
  | .led l => [outputConfig (leds.hw l).pPort (leds.hw l).pin]
  | .motor => []

def initWrite (leds : DoorLeds) (f : Field) (c : InitCall) : Option Nat :=
  ((initConfig leds c).filterMap fun c => c.write f).getLast?

section Effects

variable (leds : DoorLeds) (b : Board) (c : InitCall)

theorem applyInit_tim (t : Timer) :
    (applyInit leds b c).tim t =
      if initTimer c = some t then
        initRegs leds b.systemCoreClock.toNat t (b.tim t)
      else b.tim t := by
  cases c with
  | button | pirSensor => rfl
  | led l =>
      rw [applyInit, portLedInit, portLedTimerSetup_eq]
      refine (onTim_tim (enableTimClock l.timer (portSystemGpioConfig _ _ _ _ b))
        t _ l.timer).trans ?_
      cases l <;> cases t <;> rfl
  | motor =>
      rw [applyInit, portMotorInit_eq]
      refine (onTim_tim (enableTimClock .TIM2 b) t cleared .TIM2).trans ?_
      cases t <;> rfl

/-- Another initialization of a timer changes nothing. -/
theorem initRegs_initRegs (clock : Nat) (t : Timer) (r : TimRegs) :
    initRegs leds clock t (initRegs leds clock t r) = initRegs leds clock t r := by
  cases t <;> rfl

theorem applyInit_systemCoreClock :
    (applyInit leds b c).systemCoreClock = b.systemCoreClock := by
  cases c with
  | button | pirSensor => rfl
  | led l =>
      rw [applyInit, portLedInit, portLedTimerSetup_eq]
      rfl
  | motor =>
      rw [applyInit, portMotorInit_eq]
      rfl

theorem applyInit_nvic (irq : Irqn) :
    ((applyInit leds b c).nvic irq).enabled =
      (if irq = initIrqn c then some true else none).getD
        (b.nvic irq).enabled := by
  have henable : ∀ (irq' : Irqn) (priority : BitVec 8) (b' : Board),
      ((nvicEnableIrq irq' (nvicSetPriority irq' priority 0 b')).nvic irq).enabled =
        (if irq = irq' then some true else none).getD (b'.nvic irq).enabled := by
    intro irq' priority b'
    simp only [nvicEnableIrq, nvicSetPriority, Board.onNvic]
    by_cases h : irq = irq'
    · simp [h]
    · simp [h, Function.update_of_ne]
  cases c with
  | button | pirSensor => exact henable _ _ _
  | led l =>
      rw [applyInit, portLedInit, portLedTimerSetup_eq]
      exact henable _ _ _
  | motor =>
      rw [applyInit, portMotorInit_eq]
      exact henable _ _ _

theorem applyInit_odr (port : GpioPort) :
    ((applyInit leds b c).gpio port).odr = (b.gpio port).odr := by
  have hconfig : ∀ port' pin mode pupd,
      ((portSystemGpioConfig port' pin mode pupd b).gpio port).odr =
        (b.gpio port).odr := by
    intro port' pin mode pupd
    simp only [portSystemGpioConfig]
    rw [onGpio_get GpioRegs.odr (by intro r; rfl)]
  cases c with
  | button | pirSensor => exact hconfig _ _ _ _
  | led l =>
      rw [applyInit, portLedInit, portLedTimerSetup_eq]
      exact hconfig _ _ _ _
  | motor =>
      rw [applyInit, portMotorInit_eq]
      rfl

theorem applyInit_read (f : Field) :
    f.read (applyInit leds b c) = (initWrite leds f c).getD (f.read b) := by
  have hcalls : f.read (applyInit leds b c) =
      f.read (applyCalls b (initConfig leds c)) := by
    cases c with
    | button | pirSensor => cases f <;> rfl
    | led l =>
        rw [applyInit, portLedInit, portLedTimerSetup_eq]
        cases f <;> rfl
    | motor =>
        rw [applyInit, portMotorInit_eq]
        cases f <;> rfl
  rw [hcalls, read_applyCalls]
  rfl

end Effects

/-- Interrupts on both edges of the pin of a line, and on no other pin of its
number. -/
structure LineReady (l : Line) (b : Board) : Prop where
  exticr : (Field.exticr l.pin).read b = exticrCode l.port
  rtsr : (Field.rtsr l.pin).read b = 1
  ftsr : (Field.ftsr l.pin).read b = 1
  emr : (Field.emr l.pin).read b = 0
  imr : (Field.imr l.pin).read b = 1
  served : (b.nvic (extiIrqn l.pin)).enabled = true

def initOf : Line → InitCall
  | .button => .button
  | .pir => .pirSensor

/-- The fields of a line, and what its initialization writes to them. -/
def lineFields (l : Line) : List (Field × Nat) :=
  [(.exticr l.pin, exticrCode l.port), (.rtsr l.pin, 1),
    (.ftsr l.pin, 1), (.emr l.pin, 0), (.imr l.pin, 1)]

theorem initWrite_line (leds : DoorLeds) {l : Line} {f : Field} {value : Nat}
    (hmem : (f, value) ∈ lineFields l) (c : InitCall) :
    initWrite leds f c = if c = initOf l then some value else none := by
  simp only [lineFields, List.mem_cons, Prod.mk.injEq, List.not_mem_nil,
    or_false] at hmem
  rcases hmem with ⟨rfl, rfl⟩ | ⟨rfl, rfl⟩ | ⟨rfl, rfl⟩ | ⟨rfl, rfl⟩ |
      ⟨rfl, rfl⟩ <;>
    cases c <;> cases l <;> rfl

section PinModes

variable {leds : DoorLeds} {port : GpioPort} {pin : Pin} {c : InitCall}
  {written : Nat}

end PinModes

section Startup

variable {leds : DoorLeds} {b : Board} {calls : List InitCall}

theorem applyInits_odr (port : GpioPort) :
    ((applyInits leds b calls).gpio port).odr = (b.gpio port).odr :=
  view_foldl_of_unchanged (fun b => (b.gpio port).odr)
    (fun b c => applyInit_odr leds b c port) _ _

/-- Each timer is as a reset leaves it, or as its initializations do. -/
structure TimersFresh (leds : DoorLeds) (clock : Word) (b : Board) : Prop where
  clock_eq : b.systemCoreClock = clock
  regs : ∀ t, b.tim t = TimRegs.reset ∨
    b.tim t = initRegs leds clock.toNat t TimRegs.reset

theorem applyInit_tim_of_fresh {clock : Word} (h : TimersFresh leds clock b)
    (c : InitCall) (t : Timer) :
    (applyInit leds b c).tim t =
      (if initTimer c = some t then
        some (initRegs leds clock.toNat t TimRegs.reset) else none).getD (b.tim t) := by
  rw [applyInit_tim, h.clock_eq]
  split
  · rcases h.regs t with hregs | hregs
    · rw [hregs]
      rfl
    · rw [hregs, initRegs_initRegs]
      rfl
  · rfl

theorem timersFresh_applyInit {clock : Word} (b : Board) (c : InitCall)
    (h : TimersFresh leds clock b) : TimersFresh leds clock (applyInit leds b c) := by
  refine ⟨(applyInit_systemCoreClock leds b c).trans h.clock_eq, ?_⟩
  intro t
  rw [applyInit_tim_of_fresh h]
  split
  · exact Or.inr rfl
  · exact h.regs t

theorem timersFresh_applyInits {clock : Word} (h : TimersFresh leds clock b) :
    TimersFresh leds clock (applyInits leds b calls) :=
  foldl_invariant timersFresh_applyInit h calls

theorem applyInits_tim {clock : Word} (hall : InitializesAll calls)
    (h : TimersFresh leds clock b) (t : Timer) :
    (applyInits leds b calls).tim t = initRegs leds clock.toNat t TimRegs.reset := by
  have hagree : ∀ c ∈ calls, ∀ written,
      (if initTimer c = some t then some (initRegs leds clock.toNat t TimRegs.reset)
        else none) = some written →
          written = initRegs leds clock.toNat t TimRegs.reset := by
    intro c _ written hwrite
    rw [Option.ite_none_right_eq_some, Option.some.injEq] at hwrite
    exact hwrite.2.symm
  have hcall : ∃ c, initTimer c = some t := by
    cases t with
    | TIM2 => exact ⟨.motor, rfl⟩
    | TIM3 => exact ⟨.led .opening, rfl⟩
    | TIM4 => exact ⟨.led .closing, rfl⟩
  obtain ⟨c, hc⟩ := hcall
  exact view_foldl_of_agreeing (fun b => b.tim t) timersFresh_applyInit
    (fun b c h => applyInit_tim_of_fresh h c t) hagree h
    (Or.inr ⟨c, hall c, if_pos hc⟩)

theorem applyInits_served (hall : InitializesAll calls) (c : InitCall) :
    ((applyInits leds b calls).nvic (initIrqn c)).enabled = true := by
  have hagree : ∀ d ∈ calls, ∀ written,
      (if initIrqn c = initIrqn d then some true else none) = some written →
        written = true := by
    intro d _ written hwrite
    simp only [Option.ite_none_right_eq_some, Option.some.injEq] at hwrite
    exact hwrite.2.symm
  have hinv : ∀ (b : Board) (d : InitCall), True → True := fun _ _ h => h
  exact view_foldl_of_agreeing (fun b => (b.nvic (initIrqn c)).enabled) hinv
    (fun b d _ => applyInit_nvic leds b d (initIrqn c)) hagree trivial
    (Or.inr ⟨c, hall c, if_pos rfl⟩)

theorem applyInits_read {f : Field} {value : Nat} (hall : InitializesAll calls)
    (hagree : ∀ c written, initWrite leds f c = some written → written = value)
    (hwritten : ∃ c, initWrite leds f c = some value) :
    f.read (applyInits leds b calls) = value := by
  obtain ⟨c, hc⟩ := hwritten
  have hinv : ∀ (b : Board) (d : InitCall), True → True := fun _ _ h => h
  exact view_foldl_of_agreeing (fun b => f.read b) hinv
    (fun b d _ => applyInit_read leds b d f) (fun d _ => hagree d) trivial
    (Or.inr ⟨c, hall c, hc⟩)

theorem applyInits_lineReady (hall : InitializesAll calls) (l : Line) :
    LineReady l (applyInits leds b calls) := by
  have hread : ∀ (f : Field) (value : Nat), (f, value) ∈ lineFields l →
      f.read (applyInits leds b calls) = value := by
    intro f value hmem
    apply applyInits_read hall
    · intro c written hwrite
      rw [initWrite_line leds hmem, Option.ite_none_right_eq_some,
        Option.some.injEq] at hwrite
      exact hwrite.2.symm
    · refine ⟨initOf l, ?_⟩
      rw [initWrite_line leds hmem, if_pos rfl]
  constructor
  case served =>
    cases l with
    | button => exact applyInits_served hall .button
    | pir => exact applyInits_served hall .pirSensor
  all_goals
    apply hread
    simp [lineFields]

end Startup

/-- The outputs are not part of the configuration of the pins. -/
theorem read_combineOdr (combine : Word → Word → Word) (led : PortLedHw)
    {b : Board} (f : Field) : f.read (combineOdr combine led b) = f.read b := by
  cases f with
  | moder port pin =>
      simp only [Field.read, combineOdr]
      rw [onGpio_get GpioRegs.moder (by intro r; rfl)]
  | pupdr port pin =>
      simp only [Field.read, combineOdr]
      rw [onGpio_get GpioRegs.pupdr (by intro r; rfl)]
  | afr port pin =>
      simp only [Field.read, combineOdr]
      rw [onGpio_get GpioRegs.afr (by intro r; rfl)]
  | exticr _ | rtsr _ | ftsr _ | emr _ | imr _ => rfl

/-- The clock that `system_clock_config` announces. -/
def startClock (hpre : Fin 16) : Nat := (hsiValue >>> ahbPrescTable hpre).toNat

/-- The closed door, with no presence reported yet. -/
def startedDoor (cfg : DoorConfig) (hpre : Fin 16) (calls : List InitCall)
    (lastTime : Word) : Door :=
  ⟨startedBoard cfg.leds hpre calls, ⟨.CLOSED, false, lastTime⟩⟩

section StartedDoor

variable (cfg : DoorConfig) (hpre : Fin 16) {calls : List InitCall}
  (hall : InitializesAll calls) (lastTime : Word)

theorem timersFresh_startedDoor (calls : List InitCall) :
    TimersFresh cfg.leds (hsiValue >>> ahbPrescTable hpre)
      (applyInits cfg.leds (systemClockConfig (resetBoard hpre)) calls) :=
  timersFresh_applyInits ⟨rfl, fun _ => Or.inl rfl⟩

theorem startedDoor_documentedStart (calls : List InitCall) :
    DocumentedStart cfg (startedDoor cfg hpre calls lastTime) where
  state := rfl
  red := by
    rw [startedDoor, startedBoard, DoorLeds.ledLit_portLedOn, if_pos rfl]
  green := by
    rw [startedDoor, startedBoard, DoorLeds.ledLit_portLedOn,
      if_neg (by decide), ledLit, applyInits_odr]
    exact BitVec.getLsbD_zero
  timers t := by
    show ((applyInits cfg.leds (systemClockConfig (resetBoard hpre)) calls).tim
      t).cen = false
    rcases (timersFresh_startedDoor cfg hpre calls).regs t with h | h
    · rw [h]
      rfl
    · rw [h]
      cases t <;> rfl
  presence := rfl

theorem startedDoor_idle (calls : List InitCall) (t : Timer) :
    updatePending t (startedDoor cfg hpre calls lastTime).board = false := by
  have huif : ((startedDoor cfg hpre calls lastTime).board.tim t).uif = false := by
    show ((applyInits cfg.leds (systemClockConfig (resetBoard hpre)) calls).tim
      t).uif = false
    rcases (timersFresh_startedDoor cfg hpre calls).regs t with h | h
    · rw [h]
      rfl
    · rw [h]
      cases t <;> rfl
  rw [updatePending, huif]
  rfl

include hall in
theorem startedDoor_tim (t : Timer) :
    (startedDoor cfg hpre calls lastTime).board.tim t =
      initRegs cfg.leds (startClock hpre) t TimRegs.reset :=
  applyInits_tim hall
    (⟨rfl, fun _ => Or.inl rfl⟩ : TimersFresh cfg.leds _
      (systemClockConfig (resetBoard hpre))) t

include hall in
theorem startedDoor_prepared :
    Prepared cfg (startClock hpre)
      (setupOf cfg.leds (startedDoor cfg hpre calls lastTime).board) where
  clock_eq := congrArg BitVec.toNat (timersFresh_startedDoor cfg hpre calls).clock_eq
  served t := by
    cases t with
    | TIM2 => exact applyInits_served hall .motor
    | TIM3 => exact applyInits_served hall (.led .opening)
    | TIM4 => exact applyInits_served hall (.led .closing)
  blink l := by
    refine (congrArg blinkSetting
      (startedDoor_tim cfg hpre hall lastTime l.timer)).trans ?_
    cases l <;> rfl

theorem startedDoor_read (calls : List InitCall) (f : Field) :
    f.read (startedDoor cfg hpre calls lastTime).board =
      f.read (applyInits cfg.leds (systemClockConfig (resetBoard hpre)) calls) :=
  read_combineOdr _ _ f

include hall in
theorem startedDoor_lineReady (l : Line) :
    LineReady l (startedDoor cfg hpre calls lastTime).board := by
  obtain ⟨h₁, h₂, h₃, h₄, h₅, h₆⟩ : LineReady l (applyInits cfg.leds
    (systemClockConfig (resetBoard hpre)) calls) := applyInits_lineReady hall l
  have hread := startedDoor_read cfg hpre lastTime calls
  exact ⟨(hread _).trans h₁, (hread _).trans h₂, (hread _).trans h₃,
    (hread _).trans h₄, (hread _).trans h₅, h₆⟩

/-- The calls in the order in which the documentation lists them. -/
def documentedInits : List InitCall :=
  [.button, .led .opening, .led .closing, .pirSensor, .motor]

theorem documentedInits_all : InitializesAll documentedInits := by
  intro c
  cases c with
  | led l => cases l <;> decide
  | button | pirSensor | motor => decide

theorem undivided_lt : 0 < 16 := by decide

/-- No prescaler of the AHB clock. -/
def undivided : Fin 16 := ⟨0, undivided_lt⟩

/-- The board of the documentation after its initializations. -/
def documentedStart : Door :=
  startedDoor documentedConfig undivided documentedInits 0#32

end StartedDoor

end AutomaticDoor.PeripheralSetup
