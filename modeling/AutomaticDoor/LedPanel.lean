import AutomaticDoor.DoorStateMachine

/-!
What a person in front of the door can see: which LEDs are lit, which of them
blink, and whether the motor timer runs.  Each function of the port layer acts
on this panel alone, whatever the registers behind it hold.
-/

namespace AutomaticDoor.LedPanel

open AutomaticDoor.BoardRegisters
open AutomaticDoor.DoorStateMachine
open AutomaticDoor.InterruptHandlers
open AutomaticDoor.PortInputs
open AutomaticDoor.PortLed
open AutomaticDoor.PortMotor
open AutomaticDoor.PortSystem

@[ext]
structure Panel where
  lit : DoorLed → Bool
  blinking : DoorLed → Bool
  motor : Bool

namespace Panel

def light (l : DoorLed) (on : Bool) (p : Panel) : Panel :=
  { p with lit := fun m => if m = l then on else p.lit m }

def toggle (l : DoorLed) (p : Panel) : Panel :=
  { p with lit := fun m => if m = l then !p.lit m else p.lit m }

def blink (l : DoorLed) (running : Bool) (p : Panel) : Panel :=
  { p with blinking := fun m => if m = l then running else p.blinking m }

def runMotor (running : Bool) (p : Panel) : Panel :=
  { p with motor := running }

/-- The panel after an interrupt.  Only the blink interrupts show. -/
def interrupt : Interrupt → Panel → Panel
  | .tim .TIM3, p => p.toggle .opening
  | .tim .TIM4, p => p.toggle .closing
  | .sysTick, p | .exti15_10, p | .tim .TIM2, p => p

def enables (p : Panel) : Interrupt → Bool
  | .sysTick | .exti15_10 => true
  | .tim .TIM2 => p.motor
  | .tim .TIM3 => p.blinking .opening
  | .tim .TIM4 => p.blinking .closing

end Panel

def panelOf (leds : DoorLeds) (b : Board) : Panel where
  lit l := ledLit (leds.hw l) b
  blinking l := ledTimerRunning (leds.hw l) b
  motor := (b.tim .TIM2).cen

section PortLayer

variable (leds : DoorLeds) (l : DoorLed) (b : Board)

theorem panelOf_congr {b b' : Board} (hgpio : b'.gpio = b.gpio)
    (htim : b'.tim = b.tim) : panelOf leds b' = panelOf leds b := by
  simp only [panelOf, ledLit, ledTimerRunning, hgpio, htim]

theorem pTimer_ne_TIM2 : (leds.hw l).pTimer ≠ .TIM2 := by
  rw [leds.pTimer_eq]
  cases l <;> simp [DoorLed.timer]

@[simp] theorem panelOf_portLedOn :
    panelOf leds (portLedOn (leds.hw l) b) = (panelOf leds b).light l true :=
  Panel.ext (funext fun m => leds.ledLit_portLedOn l m b) rfl rfl

@[simp] theorem panelOf_portLedOff :
    panelOf leds (portLedOff (leds.hw l) b) = (panelOf leds b).light l false :=
  Panel.ext (funext fun m => leds.ledLit_portLedOff l m b) rfl rfl

@[simp] theorem panelOf_portLedToggle :
    panelOf leds (portLedToggle (leds.hw l) b) = (panelOf leds b).toggle l :=
  Panel.ext (funext fun m => leds.ledLit_portLedToggle l m b) rfl rfl

@[simp] theorem panelOf_portLedTimerActivate :
    panelOf leds (portLedTimerActivate (leds.hw l) b) =
      (panelOf leds b).blink l true := by
  refine Panel.ext rfl
    (funext fun m => leds.ledTimerRunning_portLedTimerActivate l m b) ?_
  exact congrArg TimRegs.cen
    (Board.onTim_tim_of_ne _ _ _ _ (pTimer_ne_TIM2 leds l).symm)

@[simp] theorem panelOf_portLedTimerDeactivate :
    panelOf leds (portLedTimerDeactivate (leds.hw l) b) =
      (panelOf leds b).blink l false := by
  refine Panel.ext rfl
    (funext fun m => leds.ledTimerRunning_portLedTimerDeactivate l m b) ?_
  exact congrArg TimRegs.cen
    (Board.onTim_tim_of_ne _ _ _ _ (pTimer_ne_TIM2 leds l).symm)

@[simp] theorem panelOf_portMotorTimeoutTimerActivate (timeoutMs : Word) :
    panelOf leds
        (portMotorTimeoutTimerActivate motorAutomaticDoor timeoutMs b) =
      (panelOf leds b).runMotor true := by
  have hgpio := portMotorTimeoutTimerActivate_gpio motorAutomaticDoor timeoutMs b
  have htim : ∀ m, (portMotorTimeoutTimerActivate motorAutomaticDoor timeoutMs
      b).tim (leds.hw m).pTimer = b.tim (leds.hw m).pTimer := fun m =>
    portMotorTimeoutTimerActivate_tim_of_ne _ _ _ (pTimer_ne_TIM2 leds m)
  have hcen : ((portMotorTimeoutTimerActivate motorAutomaticDoor timeoutMs
      b).tim .TIM2).cen = true :=
    portMotorTimeoutTimerActivate_cen motorAutomaticDoor timeoutMs b
  simp only [panelOf, ledLit, ledTimerRunning, Panel.runMotor, hgpio, htim, hcen]

@[simp] theorem panelOf_portMotorTimeoutTimerDeactivate :
    panelOf leds (portMotorTimeoutTimerDeactivate motorAutomaticDoor b) =
      (panelOf leds b).runMotor false := by
  refine Panel.ext rfl ?_ ?_
  · funext m
    exact congrArg TimRegs.cen
      (portMotorTimeoutTimerDeactivate_tim_of_ne _ _ (pTimer_ne_TIM2 leds m))
  · exact portMotorTimeoutTimerDeactivate_cen motorAutomaticDoor b

end PortLayer

section Interrupts

variable (leds : DoorLeds) (b : Board)

theorem panelOf_onTim_of_cen (t : Timer) {f : TimRegs → TimRegs}
    (hf : ∀ r, (f r).cen = r.cen) :
    panelOf leds (b.onTim t f) = panelOf leds b := by
  have hcen : ∀ u, ((b.onTim t f).tim u).cen = (b.tim u).cen := by
    intro u
    by_cases hu : u = t
    · rw [hu, Board.onTim_tim_self, hf]
    · rw [Board.onTim_tim_of_ne _ _ _ _ hu]
  exact Panel.ext rfl (funext fun m => hcen _) (hcen _)

theorem panelOf_overflow (t : Timer) :
    panelOf leds (b.onTim t TimRegs.overflow) = panelOf leds b :=
  panelOf_onTim_of_cen leds b t fun _ => rfl

theorem panelOf_clearUpdateFlag (t : Timer) :
    panelOf leds (clearUpdateFlag t b) = panelOf leds b :=
  panelOf_onTim_of_cen leds b t fun _ => rfl

theorem panelOf_exti15_10IrqHandler :
    panelOf leds (exti15_10IrqHandler b) = panelOf leds b := by
  have hserve : ∀ l c, panelOf leds (serveLine l c) = panelOf leds c := by
    intro l c
    rw [serveLine]
    split
    · exact panelOf_congr leds (by simp) (by simp)
    · rfl
  rw [exti15_10IrqHandler, hserve, hserve]

theorem panelOf_tim2IrqHandler :
    panelOf leds (tim2IrqHandler b) = panelOf leds b := by
  rw [tim2IrqHandler]
  split
  · rw [panelOf_clearUpdateFlag]
    exact panelOf_onTim_of_cen leds b .TIM2
      (f := fun r => { r with uie := false }) fun _ => rfl
  · rfl

theorem panelOf_blinking (l : DoorLed) :
    (panelOf leds b).blinking l = (b.tim l.timer).cen := by
  simp only [panelOf, ledTimerRunning, leds.pTimer_eq]

/-- A blink interrupt, from the overflow of its timer on. -/
theorem panelOf_blinkIrqHandler (l : DoorLed) :
    panelOf leds (clearUpdateFlag l.timer
        (portLedToggle (leds.hw l) (b.onTim l.timer TimRegs.overflow))) =
      (panelOf leds b).toggle l := by
  rw [panelOf_clearUpdateFlag, panelOf_portLedToggle, panelOf_overflow]

/-- An interrupt acts on the panel as the abstract one does. -/
theorem interruptStep_panelOf {b' : Board} {i : Interrupt}
    (h : interruptStep leds b i = some b') :
    (panelOf leds b).enables i = true ∧
      panelOf leds b' = (panelOf leds b).interrupt i := by
  cases i with
  | sysTick =>
      cases h
      exact ⟨rfl, panelOf_congr leds rfl rfl⟩
  | exti15_10 =>
      cases h
      exact ⟨rfl, panelOf_exti15_10IrqHandler leds b⟩
  | tim t =>
      simp only [interruptStep, Option.ite_none_right_eq_some,
        Option.some.injEq] at h
      obtain ⟨hcen, rfl⟩ := h
      cases t with
      | TIM2 =>
          refine ⟨hcen, ?_⟩
          rw [timIrqHandler, panelOf_tim2IrqHandler, panelOf_overflow]
          rfl
      | TIM3 =>
          exact ⟨(panelOf_blinking leds b .opening).trans hcen,
            panelOf_blinkIrqHandler leds b .opening⟩
      | TIM4 =>
          exact ⟨(panelOf_blinking leds b .closing).trans hcen,
            panelOf_blinkIrqHandler leds b .closing⟩

end Interrupts

end AutomaticDoor.LedPanel
