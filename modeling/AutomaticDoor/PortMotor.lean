import AutomaticDoor.PortLed

/-!
The functions of `port_motor.c`.
-/

namespace AutomaticDoor.PortMotor

open AutomaticDoor.BoardRegisters
open AutomaticDoor.PortLed
open AutomaticDoor.PortSystem
open AutomaticDoor.TimerSetting

structure PortMotorHw where
  pTimerTimeout : Timer

/-- `motor_automatic_door`, wired to `MOTOR_AUTOMATIC_DOOR_TIMEOUT_TIMER`.  Its
`timeout` flag is a field of the board. -/
def motorAutomaticDoor : PortMotorHw := ⟨.TIM2⟩

/-- `_motor_timeout_timer_init` -/
def motorTimeoutTimerInit (motor : PortMotorHw) (b : Board) : Board :=
  let t := motor.pTimerTimeout
  let b := if t = .TIM2 then enableTimClock .TIM2 b else b
  let b := b.onTim t fun r => { r with cen := false }
  let b := b.onTim t fun r => { r with arpe := true }
  let b := b.onTim t fun r => { r with psc := 0 }
  let b := b.onTim t fun r => { r with arr := 0xFFFF }
  let b := b.onTim t fun r => { r with uif := false }
  if t = .TIM2 then
    nvicEnableIrq (.TIM .TIM2) (nvicSetPriority (.TIM .TIM2) 2 0 b)
  else b

def portMotorSetTimeoutStatus (motor : PortMotorHw) (timeout : Bool)
    (b : Board) : Board :=
  let b := if timeout then
      b.onTim motor.pTimerTimeout fun r => { r with uie := false }
    else b
  { b with timeout := timeout }

def portMotorTimeoutTimerActivate (motor : PortMotorHw) (timeoutMs : Word)
    (b : Board) : Board :=
  let t := motor.pTimerTimeout
  let b := b.onTim t fun r => { r with cen := false }
  let b := portMotorSetTimeoutStatus motor false b
  let b := b.onTim t fun r => { r with cnt := 0 }
  let arr := loadedArr b.systemCoreClock.toNat timeoutMs.toNat
  let psc := loadedPsc b.systemCoreClock.toNat timeoutMs.toNat
  let b := b.onTim t fun r => { r with arr := arr }
  let b := b.onTim t fun r => { r with psc := psc }
  let b := b.onTim t fun r => { r with cen := true }
  let b := b.onTim t TimRegs.updateGeneration
  let b := b.onTim t fun r => { r with uif := false }
  let b := b.onTim t fun r => { r with urs := true }
  b.onTim t fun r => { r with uie := true }

def portMotorTimeoutTimerDeactivate (motor : PortMotorHw) : Board → Board :=
  Board.onTim motor.pTimerTimeout fun r => { r with cen := false }

def portMotorInit (motor : PortMotorHw) (b : Board) : Board :=
  motorTimeoutTimerInit motor b

section Effects

variable (motor : PortMotorHw) (timeoutMs : Word) (b : Board)

@[simp] theorem portMotorTimeoutTimerActivate_gpio :
    (portMotorTimeoutTimerActivate motor timeoutMs b).gpio = b.gpio := by
  simp [portMotorTimeoutTimerActivate, portMotorSetTimeoutStatus]

@[simp] theorem portMotorTimeoutTimerActivate_msTicks :
    (portMotorTimeoutTimerActivate motor timeoutMs b).msTicks = b.msTicks := by
  simp [portMotorTimeoutTimerActivate, portMotorSetTimeoutStatus]

theorem portMotorTimeoutTimerActivate_tim_self :
    (portMotorTimeoutTimerActivate motor timeoutMs b).tim motor.pTimerTimeout =
      { b.tim motor.pTimerTimeout with
        cen := true
        urs := true
        uie := true
        uif := false
        cnt := 0
        arr := loadedArr b.systemCoreClock.toNat timeoutMs.toNat
        psc := loadedPsc b.systemCoreClock.toNat timeoutMs.toNat } := by
  simp [portMotorTimeoutTimerActivate, portMotorSetTimeoutStatus,
    TimRegs.updateGeneration]

theorem portMotorTimeoutTimerActivate_cen :
    ((portMotorTimeoutTimerActivate motor timeoutMs b).tim
      motor.pTimerTimeout).cen = true := by
  rw [portMotorTimeoutTimerActivate_tim_self]

theorem portMotorTimeoutTimerActivate_tim_of_ne {t : Timer}
    (h : t ≠ motor.pTimerTimeout) :
    (portMotorTimeoutTimerActivate motor timeoutMs b).tim t = b.tim t := by
  simp [portMotorTimeoutTimerActivate, portMotorSetTimeoutStatus,
    Board.onTim_tim_of_ne, h]

@[simp] theorem portMotorTimeoutTimerDeactivate_msTicks :
    (portMotorTimeoutTimerDeactivate motor b).msTicks = b.msTicks := rfl

theorem portMotorTimeoutTimerDeactivate_cen :
    ((portMotorTimeoutTimerDeactivate motor b).tim motor.pTimerTimeout).cen =
      false := by
  simp [portMotorTimeoutTimerDeactivate]

theorem portMotorTimeoutTimerDeactivate_tim_of_ne {t : Timer}
    (h : t ≠ motor.pTimerTimeout) :
    (portMotorTimeoutTimerDeactivate motor b).tim t = b.tim t :=
  Board.onTim_tim_of_ne _ _ _ _ h

end Effects

end AutomaticDoor.PortMotor
