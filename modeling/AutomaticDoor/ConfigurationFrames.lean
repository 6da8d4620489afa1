import AutomaticDoor.ActionEffects
import AutomaticDoor.DoorSystem

/-!
What the initializations configure, no later step of the firmware changes.
-/

namespace AutomaticDoor.ConfigurationFrames

open AutomaticDoor.ActionEffects
open AutomaticDoor.ActionInterleavings
open AutomaticDoor.BoardRegisters
open AutomaticDoor.DoorStateMachine
open AutomaticDoor.DoorSystem
open AutomaticDoor.Foundations.EventSystems
open AutomaticDoor.Foundations.Interleaving
open AutomaticDoor.Foundations.RegisterWords
open AutomaticDoor.Foundations.RowChoices
open AutomaticDoor.GuardedFiring
open AutomaticDoor.InterruptHandlers
open AutomaticDoor.PortLed
open AutomaticDoor.PortMotor
open AutomaticDoor.RequestPolling
open AutomaticDoor.UpdateInterrupts

structure BlinkSetting where
  urs : Bool
  uie : Bool
  psc : Word
  arr : Word

/-- The configuration of the pins, of their lines and interrupts, of the clocks
and of the blink timers, and the output bits of all pins but those of the
LEDs. -/
@[ext]
structure Setup where
  moder : GpioPort → Word
  pupdr : GpioPort → Word
  afr : GpioPort → Fin 2 → Word
  spareOdr : GpioPort → Nat → Bool
  exticr : Fin 4 → Word
  rtsr : Word
  ftsr : Word
  emr : Word
  imr : Word
  nvic : Irqn → NvicLine
  rcc : RccRegs
  systemCoreClock : Word
  arpe : Timer → Bool
  blink : DoorLed → BlinkSetting

def isLedPin (leds : DoorLeds) (port : GpioPort) (i : Nat) : Bool :=
  decide (port = (leds.hw .opening).pPort ∧ i = (leds.hw .opening).pin) ||
    decide (port = (leds.hw .closing).pPort ∧ i = (leds.hw .closing).pin)

def blinkSetting (r : TimRegs) : BlinkSetting := ⟨r.urs, r.uie, r.psc, r.arr⟩

def setupOf (leds : DoorLeds) (b : Board) : Setup where
  moder port := (b.gpio port).moder
  pupdr port := (b.gpio port).pupdr
  afr port := (b.gpio port).afr
  spareOdr port i := !isLedPin leds port i && (b.gpio port).odr.getLsbD i
  exticr := b.exticr
  rtsr := b.exti.rtsr
  ftsr := b.exti.ftsr
  emr := b.exti.emr
  imr := b.exti.imr
  nvic := b.nvic
  rcc := b.rcc
  systemCoreClock := b.systemCoreClock
  arpe t := (b.tim t).arpe
  blink l := blinkSetting (b.tim l.timer)

section Parts

variable (leds : DoorLeds) {b b' : Board}

theorem onGpio_get {α : Type} (get : GpioRegs → α) {f : GpioRegs → GpioRegs}
    (h : ∀ r, get (f r) = get r) (p q : GpioPort) (b : Board) :
    get ((b.onGpio p f).gpio q) = get (b.gpio q) := by
  by_cases hq : q = p
  · rw [hq, Board.onGpio_gpio_self, h]
  · rw [Board.onGpio_gpio_of_ne _ _ _ _ hq]

theorem onTim_get {α : Type} (get : TimRegs → α) {f : TimRegs → TimRegs}
    (h : ∀ r, get (f r) = get r) (t u : Timer) (b : Board) :
    get ((b.onTim t f).tim u) = get (b.tim u) := by
  rw [onTim_tim]
  split
  · exact h _
  · rfl

/-- An operation on the timers that keeps the setting of a timer keeps the
configuration. -/
theorem setupOf_onTim (t : Timer) {f : TimRegs → TimRegs}
    (harpe : ∀ r, (f r).arpe = r.arpe)
    (hblink : t ≠ .TIM2 → ∀ r, blinkSetting (f r) = blinkSetting r) (b : Board) :
    setupOf leds (b.onTim t f) = setupOf leds b := by
  have harpe' : ∀ u, ((b.onTim t f).tim u).arpe = (b.tim u).arpe := fun u =>
    onTim_get TimRegs.arpe harpe t u b
  have hblink' : ∀ l : DoorLed, blinkSetting ((b.onTim t f).tim l.timer) =
      blinkSetting (b.tim l.timer) := by
    intro l
    rw [onTim_tim]
    split
    · rename_i h
      exact hblink (by rw [← h]; cases l <;> decide) _
    · rfl
  exact Setup.ext rfl rfl rfl rfl rfl rfl rfl rfl rfl rfl rfl rfl
    (funext harpe') (funext hblink')

/-- An operation on an LED's output that acts on the bit of its pin alone keeps
the configuration. -/
theorem setupOf_combineOdr (combine : Word → Word → Word)
    (hlocal : ∀ (i j : Nat) (x : Word), i ≠ j →
      (combine x (BitVec.twoPow 32 i)).getLsbD j = x.getLsbD j)
    (l : DoorLed) (b : Board) :
    setupOf leds (combineOdr combine (leds.hw l) b) = setupOf leds b := by
  have hodr : ∀ port i,
      (!isLedPin leds port i &&
          ((combineOdr combine (leds.hw l) b).gpio port).odr.getLsbD i) =
        (!isLedPin leds port i && (b.gpio port).odr.getLsbD i) := by
    intro port i
    by_cases hport : port = (leds.hw l).pPort
    · by_cases hpin : i = (leds.hw l).pin
      · have hled : isLedPin leds port i = true := by
          cases l <;> simp [isLedPin, hport, hpin]
        simp [hled]
      · rw [hport, combineOdr_odr, hlocal _ _ _ (Ne.symm hpin)]
    · rw [combineOdr_odr_of_ne _ _ hport]
  refine Setup.ext ?_ ?_ ?_ (funext fun port => funext (hodr port))
    rfl rfl rfl rfl rfl rfl rfl rfl rfl rfl
  · exact funext fun port => onGpio_get GpioRegs.moder (by intro r; rfl) _ port b
  · exact funext fun port => onGpio_get GpioRegs.pupdr (by intro r; rfl) _ port b
  · exact funext fun port => onGpio_get GpioRegs.afr (by intro r; rfl) _ port b

theorem setupOf_portLedToggle (l : DoorLed) (b : Board) :
    setupOf leds (portLedToggle (leds.hw l) b) = setupOf leds b :=
  setupOf_combineOdr leds (fun odr mask => odr ^^^ mask)
    (fun _ _ x h => getLsbD_xor_twoPow_of_ne h x) l b

theorem setupOf_overflow (t : Timer) (b : Board) :
    setupOf leds (b.onTim t TimRegs.overflow) = setupOf leds b :=
  setupOf_onTim leds t (by intro r; rfl) (by intro _ r; rfl) b

theorem setupOf_clearUpdateFlag (t : Timer) (b : Board) :
    setupOf leds (clearUpdateFlag t b) = setupOf leds b :=
  setupOf_onTim leds t (by intro r; rfl) (by intro _ r; rfl) b

end Parts

section Steps

variable (leds : DoorLeds)

theorem setupOf_motorTimeoutTimerActivate (timeoutMs : Word) (b : Board) :
    setupOf leds (portMotorTimeoutTimerActivate motorAutomaticDoor timeoutMs b) =
      setupOf leds b := by
  have htim := exec_tim leds b (.motorTimeoutTimerActivate timeoutMs)
  obtain ⟨hclock, -⟩ := exec_variables leds b (.motorTimeoutTimerActivate timeoutMs)
  obtain ⟨hexti, hexticr, hnvic, hrcc⟩ :=
    exec_registers leds b (.motorTimeoutTimerActivate timeoutMs)
  simp only [PortCall.exec, onTimer] at htim hclock hexti hexticr hnvic hrcc
  have harpe : ∀ t, ((portMotorTimeoutTimerActivate motorAutomaticDoor timeoutMs
      b).tim t).arpe = (b.tim t).arpe := by
    intro t
    rw [htim]
    split <;> rfl
  have hblink : ∀ l : DoorLed, (portMotorTimeoutTimerActivate motorAutomaticDoor
      timeoutMs b).tim l.timer = b.tim l.timer := by
    intro l
    rw [htim, if_neg (by cases l <;> decide)]
  simp only [setupOf, portMotorTimeoutTimerActivate_gpio, hclock, hexti, hexticr,
    hnvic, hrcc, harpe, hblink]

theorem setupOf_exec (b : Board) (c : PortCall) :
    setupOf leds (c.exec leds b) = setupOf leds b := by
  cases c with
  | ledOn l =>
      exact setupOf_combineOdr leds (fun odr mask => odr ||| mask)
        (fun _ _ x h => getLsbD_or_twoPow_of_ne h x) l b
  | ledOff l =>
      exact setupOf_combineOdr leds (fun odr mask => odr &&& ~~~mask)
        (fun _ _ x h => getLsbD_and_not_twoPow_of_ne h x) l b
  | ledTimerActivate l | ledTimerDeactivate l =>
      exact setupOf_onTim leds _ (by intro r; rfl) (by intro _ r; rfl) b
  | motorTimeoutTimerActivate timeoutMs =>
      exact setupOf_motorTimeoutTimerActivate leds timeoutMs b
  | motorTimeoutTimerDeactivate =>
      exact setupOf_onTim leds .TIM2 (by intro r; rfl) (by intro _ r; rfl) b

theorem setupOf_action (cfg : DoorConfig) (row : Row) (d : Door) :
    setupOf cfg.leds (row.action cfg d).board = setupOf cfg.leds d.board :=
  view_action cfg row d (setupOf cfg.leds) (setupOf_exec cfg.leds)

theorem setupOf_exti15_10IrqHandler (b : Board) :
    setupOf leds (exti15_10IrqHandler b) = setupOf leds b := by
  have hupdate : ∀ l high (c : Board),
      setupOf leds (updateFlags l high c) = setupOf leds c := by
    intro l high c
    cases l <;> cases high <;> simp only [updateFlags]
    · rfl
    · split <;> rfl
    · rfl
    · rfl
  have hserve : ∀ l c, setupOf leds (serveLine l c) = setupOf leds c := by
    intro l c
    rw [serveLine]
    split
    · exact hupdate l _ c
    · rfl
  rw [exti15_10IrqHandler, hserve, hserve]

theorem setupOf_timIrqHandler (t : Timer) (b : Board) :
    setupOf leds (timIrqHandler leds t b) = setupOf leds b := by
  cases t with
  | TIM2 =>
      rw [timIrqHandler, tim2IrqHandler]
      split
      · rw [setupOf_clearUpdateFlag]
        exact setupOf_onTim leds .TIM2 (f := fun r => { r with uie := false })
          (by intro r; rfl) (fun h => absurd rfl h) b
      · rfl
  | TIM3 =>
      rw [timIrqHandler, tim3IrqHandler, setupOf_clearUpdateFlag,
        setupOf_portLedToggle]
  | TIM4 =>
      rw [timIrqHandler, tim4IrqHandler, setupOf_clearUpdateFlag,
        setupOf_portLedToggle]

theorem setupOf_interruptStep {b b' : Board} {i : Interrupt}
    (h : interruptStep leds b i = some b') : setupOf leds b' = setupOf leds b := by
  cases i with
  | sysTick =>
      obtain rfl := Option.some.inj h
      rfl
  | exti15_10 =>
      obtain rfl := Option.some.inj h
      exact setupOf_exti15_10IrqHandler leds b
  | tim t =>
      rw [interruptStep, Option.ite_none_right_eq_some] at h
      obtain rfl := Option.some.inj h.2
      rw [setupOf_timIrqHandler, setupOf_overflow]

theorem setupOf_countTimer {b b' : Board} {t : Timer}
    (h : countTimer leds t b = some b') : setupOf leds b' = setupOf leds b := by
  refine view_countTimer (setupOf leds) (setupOf_timIrqHandler leds t)
    (setupOf_overflow leds t) ?_ h
  exact setupOf_onTim leds t (by intro r; rfl) (by intro _ r; rfl)

/-- The level of a pin is the only register of its port that a request
changes. -/
theorem presentLine_get {α : Type} (get : GpioRegs → α)
    (h : ∀ (r : GpioRegs) idr, get { r with idr := idr } = get r)
    (s : Service) (port : GpioPort) (b : Board) :
    get ((presentLine s b).gpio port) = get (b.gpio port) := by
  simp only [presentLine]
  apply onGpio_get get
  intro r
  exact h r _

theorem setupOf_presentLine (s : Service) (b : Board) :
    setupOf leds (presentLine s b) = setupOf leds b := by
  have hmoder := presentLine_get GpioRegs.moder (by intro r idr; rfl) s
  have hpupdr := presentLine_get GpioRegs.pupdr (by intro r idr; rfl) s
  have hafr := presentLine_get GpioRegs.afr (by intro r idr; rfl) s
  have hodr := presentLine_get GpioRegs.odr (by intro r idr; rfl) s
  simp only [setupOf, hmoder, hpupdr, hafr, hodr]
  rfl

end Steps

section Runs

variable {cfg : DoorConfig} {choice : RowChoice Row}

/-- What neither the calls of the actions nor the handlers of the timers change,
a poll keeps. -/
theorem view_poll {α : Type} (view : Board → α) {d d' : Door}
    (hexec : ∀ b c, view (PortCall.exec cfg.leds b c) = view b)
    (hhandler : ∀ t b, view (timIrqHandler cfg.leds t b) = view b)
    (hpoll : poll cfg choice d = some d') : view d'.board = view d.board := by
  obtain ⟨fired, hfire, rfl⟩ := poll_eq_some_iff.mp hpoll
  refine (view_serveUpdates view hhandler).trans ?_
  rw [fireChosen] at hfire
  cases hrow : choice.choose (enabled d) with
  | none =>
      rw [hrow] at hfire
      obtain rfl := Option.some.inj hfire
      rfl
  | some row =>
      rw [hrow] at hfire
      obtain ⟨-, rfl⟩ := fsmFire_some_eq_some_iff.mp hfire
      exact view_action cfg row d view hexec

theorem setupOf_systemStep (d : Door) (e : SystemEvent) (d' : Door)
    (hstep : systemStep cfg choice d e = some d') :
    setupOf cfg.leds d'.board = setupOf cfg.leds d.board := by
  cases e with
  | serve s =>
      obtain rfl := Option.some.inj hstep
      exact (setupOf_exti15_10IrqHandler _ _).trans (setupOf_presentLine _ s _)
  | sysTick =>
      obtain rfl := Option.some.inj hstep
      rfl
  | count t =>
      obtain ⟨b, hb, rfl⟩ := Option.map_eq_some_iff.mp hstep
      exact setupOf_countTimer cfg.leds hb
  | fire =>
      exact view_poll (setupOf cfg.leds) (setupOf_exec cfg.leds)
        (setupOf_timIrqHandler cfg.leds) hstep

theorem setupOf_boardStep {leds : DoorLeds} (b : Board)
    (e : ThreadEvent PortCall Interrupt) (b' : Board)
    (hstep : boardStep leds b e = some b') : setupOf leds b' = setupOf leds b := by
  cases e with
  | call c =>
      obtain rfl : c.exec leds b = b' := Option.some.inj hstep
      exact setupOf_exec leds b c
  | interrupt i => exact setupOf_interruptStep leds hstep

theorem setupOf_run {d d' : Door} {events : List SystemEvent}
    (hrun : runEvents (systemStep cfg choice) d events = some d') :
    setupOf cfg.leds d'.board = setupOf cfg.leds d.board := by
  have hstep : ∀ s e t, setupOf cfg.leds s.board = setupOf cfg.leds d.board →
      systemStep cfg choice s e = some t →
        setupOf cfg.leds t.board = setupOf cfg.leds d.board := fun s e t hs ht =>
    (setupOf_systemStep s e t ht).trans hs
  exact invariant_of_runEvents' hstep rfl hrun

theorem setupOf_boardRun {leds : DoorLeds} {b b' : Board}
    {events : List (ThreadEvent PortCall Interrupt)}
    (hrun : runEvents (boardStep leds) b events = some b') :
    setupOf leds b' = setupOf leds b := by
  have hstep : ∀ s e t, setupOf leds s = setupOf leds b →
      boardStep leds s e = some t → setupOf leds t = setupOf leds b :=
    fun s e t hs ht => (setupOf_boardStep s e t ht).trans hs
  exact invariant_of_runEvents' hstep rfl hrun

/-- No run of the firmware, and no interleaving of interrupts with calls of its
actions, changes the configuration. -/
theorem configuration_kept (cfg : DoorConfig) (choice : RowChoice Row) :
    (∀ (d d' : Door) (events : List SystemEvent),
      runEvents (systemStep cfg choice) d events = some d' →
        setupOf cfg.leds d'.board = setupOf cfg.leds d.board) ∧
      ∀ (b b' : Board) (events : List (ThreadEvent PortCall Interrupt)),
        runEvents (boardStep cfg.leds) b events = some b' →
          setupOf cfg.leds b' = setupOf cfg.leds b :=
  ⟨fun _ _ _ => setupOf_run, fun _ _ _ => setupOf_boardRun⟩

def resetDoor : Door := ⟨Board.reset, ⟨.CLOSED, false, 0⟩⟩

theorem configuration_kept_resetDoor :
    (∃ d, runEvents (systemStep documentedConfig documentedChoice) resetDoor
        [.serve ⟨.pir, true⟩, .fire] = some d ∧
      setupOf documentedLeds d.board = setupOf documentedLeds resetDoor.board) ∧
      ∃ b, runEvents (boardStep documentedLeds) Board.reset
          [.call (.ledTimerActivate .opening), .interrupt (.tim .TIM3)] = some b ∧
        setupOf documentedLeds b = setupOf documentedLeds Board.reset :=
  ⟨⟨_, rfl, (configuration_kept documentedConfig documentedChoice).1 resetDoor _
      [.serve ⟨.pir, true⟩, .fire] rfl⟩,
    _, rfl, (configuration_kept documentedConfig documentedChoice).2 Board.reset _
      [.call (.ledTimerActivate .opening), .interrupt (.tim .TIM3)] rfl⟩

end Runs

end AutomaticDoor.ConfigurationFrames
