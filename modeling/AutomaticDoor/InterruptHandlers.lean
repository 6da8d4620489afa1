import AutomaticDoor.PortInputs
import AutomaticDoor.PortMotor

/-!
The interrupt service routines of `interr.c`.
-/

namespace AutomaticDoor.InterruptHandlers

open AutomaticDoor.BoardRegisters
open AutomaticDoor.Foundations.RegisterWords
open AutomaticDoor.PortInputs
open AutomaticDoor.PortLed
open AutomaticDoor.PortMotor
open AutomaticDoor.PortSystem

def sysTickHandler (b : Board) : Board :=
  portSystemSetMillis (portSystemGetMillis b + 1) b

/-- The two lines that `EXTI15_10_IRQHandler` serves. -/
inductive Line
  | button
  | pir
deriving DecidableEq

def Line.port : Line → GpioPort
  | .button => buttonEmergency.pPort
  | .pir => pirSensorAutomaticDoor.pPort

def Line.pin : Line → Pin
  | .button => buttonEmergency.pin
  | .pir => pirSensorAutomaticDoor.pin

/-- `EXTI->PR & BIT_POS_TO_MASK(pin)` -/
def linePending (l : Line) (b : Board) : Bool :=
  decide (b.exti.pr &&& bitPosToMask l.pin ≠ 0)

def lineHigh : Line → Board → Bool
  | .button => portButtonReadGpio buttonEmergency
  | .pir => portPirSensorReadGpio pirSensorAutomaticDoor

def updateFlags : Line → Bool → Board → Board
  | .button, true, b =>
      if b.flagPressed then { b with flagReleased := true, flagPressed := false }
      else b
  | .button, false, b => { b with flagReleased := false, flagPressed := true }
  | .pir, high, b => portPirSensorSetStatus high b

/-- `EXTI->PR |= BIT_POS_TO_MASK(pin)`, on a register in which the bits
written as one are cleared. -/
def acknowledge (l : Line) (b : Board) : Board :=
  let written := b.exti.pr ||| bitPosToMask l.pin
  { b with exti := { b.exti with pr := writeOneToClear b.exti.pr written } }

def serveLine (l : Line) (b : Board) : Board :=
  if linePending l b then acknowledge l (updateFlags l (lineHigh l b) b) else b

def exti15_10IrqHandler (b : Board) : Board :=
  serveLine .pir (serveLine .button b)

/-- `TIMx->SR &= ~TIM_SR_UIF` -/
def clearUpdateFlag (t : Timer) : Board → Board :=
  Board.onTim t fun r => { r with uif := false }

def tim2IrqHandler (b : Board) : Board :=
  if (b.tim .TIM2).uif then
    clearUpdateFlag .TIM2 (portMotorSetTimeoutStatus motorAutomaticDoor true b)
  else b

section Leds

variable (leds : DoorLeds)

def tim3IrqHandler (b : Board) : Board :=
  clearUpdateFlag .TIM3 (portLedToggle (leds.hw .opening) b)

def tim4IrqHandler (b : Board) : Board :=
  clearUpdateFlag .TIM4 (portLedToggle (leds.hw .closing) b)

def timIrqHandler : Timer → Board → Board
  | .TIM2 => tim2IrqHandler
  | .TIM3 => tim3IrqHandler leds
  | .TIM4 => tim4IrqHandler leds

inductive Interrupt
  | sysTick
  | exti15_10
  | tim (t : Timer)
deriving DecidableEq

/-- One interrupt is taken and its handler runs to the end.  A timer interrupt
needs a running timer, whose overflow has set the update flag. -/
def interruptStep (b : Board) : Interrupt → Option Board
  | .sysTick => some (sysTickHandler b)
  | .exti15_10 => some (exti15_10IrqHandler b)
  | .tim t =>
      if (b.tim t).cen then
        some (timIrqHandler leds t (b.onTim t TimRegs.overflow))
      else none

end Leds

section Lines

variable (l : Line) (b : Board)

theorem linePending_eq : linePending l b = b.exti.pr.getLsbD l.pin :=
  decide_and_bitPosToMask _ _

theorem lineHigh_eq : lineHigh l b = (b.gpio l.port).idr.getLsbD l.pin := by
  cases l
  · exact portButtonReadGpio_eq _ _
  · exact portPirSensorReadGpio_eq _ _

@[simp] theorem acknowledge_pr : (acknowledge l b).exti.pr = 0 :=
  writeOneToClear_or_self _ _

@[simp] theorem acknowledge_gpio : (acknowledge l b).gpio = b.gpio := rfl

@[simp] theorem acknowledge_tim : (acknowledge l b).tim = b.tim := rfl

@[simp] theorem updateFlags_registers (high : Bool) :
    (updateFlags l high b).gpio = b.gpio ∧
      (updateFlags l high b).exti = b.exti ∧
      (updateFlags l high b).tim = b.tim := by
  cases l <;> cases high
  · exact ⟨rfl, rfl, rfl⟩
  · rw [updateFlags]
    split <;> exact ⟨rfl, rfl, rfl⟩
  · exact ⟨rfl, rfl, rfl⟩
  · exact ⟨rfl, rfl, rfl⟩

end Lines

end AutomaticDoor.InterruptHandlers
