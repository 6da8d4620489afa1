import AutomaticDoor.ActionInterleavings
import AutomaticDoor.Foundations.CallReplays

/-!
What the calls of the actions do to the timers, to the timeout flag and to the
configuration of the board.
-/

namespace AutomaticDoor.ActionEffects

open AutomaticDoor.ActionInterleavings
open AutomaticDoor.BoardRegisters
open AutomaticDoor.DoorStateMachine
open AutomaticDoor.Foundations.CallReplays
open AutomaticDoor.PortLed
open AutomaticDoor.PortMotor
open AutomaticDoor.TimerSetting

/-- A one-shot of the given time, from its start. -/
def armed (clock : Nat) (timeoutMs : Word) (r : TimRegs) : TimRegs :=
  { r with
    cen := true
    urs := true
    uie := true
    uif := false
    cnt := 0
    arr := loadedArr clock timeoutMs.toNat
    psc := loadedPsc clock timeoutMs.toNat }

def started (r : TimRegs) : TimRegs := { r with cen := true }.updateGeneration

def stopped (r : TimRegs) : TimRegs := { r with cen := false }

/-- What a call does to the registers of a timer. -/
def onTimer (clock : Nat) (t : Timer) (r : TimRegs) : PortCall → TimRegs
  | .ledOn _ | .ledOff _ => r
  | .ledTimerActivate l => if t = l.timer then started r else r
  | .ledTimerDeactivate l => if t = l.timer then stopped r else r
  | .motorTimeoutTimerActivate timeoutMs =>
      if t = .TIM2 then armed clock timeoutMs r else r
  | .motorTimeoutTimerDeactivate => if t = .TIM2 then stopped r else r

def armedWith (cfg : DoorConfig) : Row → Option Word
  | .openDoor | .closeDoor | .stopClosingDoor => some cfg.openingClosingTimeoutMs
  | .stayOpen | .keepOpen => some cfg.inactivityTimeoutMs
  | .stayClosed => none

def startedLed : Row → Option DoorLed
  | .openDoor | .stopClosingDoor => some .opening
  | .closeDoor => some .closing
  | .stayOpen | .keepOpen | .stayClosed => none

def stoppedLed : Row → Option DoorLed
  | .stayOpen => some .opening
  | .stayClosed | .stopClosingDoor => some .closing
  | .openDoor | .keepOpen | .closeDoor => none

section Calls

variable (leds : DoorLeds) (b : Board) (c : PortCall) (t : Timer)

theorem onTim_tim (f : TimRegs → TimRegs) (u : Timer) :
    (b.onTim u f).tim t = if t = u then f (b.tim t) else b.tim t := by
  split
  · rename_i h
    rw [h, Board.onTim_tim_self]
  · rename_i h
    rw [Board.onTim_tim_of_ne _ _ _ _ h]

theorem exec_tim :
    (c.exec leds b).tim t = onTimer b.systemCoreClock.toNat t (b.tim t) c := by
  cases c with
  | ledOn l | ledOff l => rfl
  | ledTimerActivate l | ledTimerDeactivate l =>
      rw [PortCall.exec, onTimer, ← leds.pTimer_eq]
      exact onTim_tim b t _ _
  | motorTimeoutTimerActivate timeoutMs =>
      rw [PortCall.exec, onTimer]
      split
      · rename_i h
        rw [h]
        exact portMotorTimeoutTimerActivate_tim_self motorAutomaticDoor timeoutMs b
      · rename_i h
        exact portMotorTimeoutTimerActivate_tim_of_ne _ _ _ h
  | motorTimeoutTimerDeactivate =>
      exact onTim_tim b t (fun r => { r with cen := false }) .TIM2

/-- Only an activation of the motor timer resets the timeout flag. -/
theorem exec_timeout :
    (c.exec leds b).timeout =
      match c with
      | .motorTimeoutTimerActivate _ => false
      | _ => b.timeout := by
  cases c with
  | motorTimeoutTimerActivate timeoutMs =>
      simp [PortCall.exec, portMotorTimeoutTimerActivate,
        portMotorSetTimeoutStatus]
  | _ => rfl

@[simp] theorem onTim_flags (f : TimRegs → TimRegs) :
    (b.onTim t f).flagPressed = b.flagPressed ∧
      (b.onTim t f).sensorStatus = b.sensorStatus :=
  ⟨rfl, rfl⟩

@[simp] theorem onTim_registers (f : TimRegs → TimRegs) :
    (b.onTim t f).exti = b.exti ∧ (b.onTim t f).exticr = b.exticr ∧
      (b.onTim t f).nvic = b.nvic ∧ (b.onTim t f).rcc = b.rcc :=
  ⟨rfl, rfl, rfl, rfl⟩

/-- The variables that no call of an action changes. -/
theorem exec_variables :
    (c.exec leds b).systemCoreClock = b.systemCoreClock ∧
      (c.exec leds b).msTicks = b.msTicks ∧
      (c.exec leds b).flagPressed = b.flagPressed ∧
      (c.exec leds b).sensorStatus = b.sensorStatus := by
  cases c with
  | motorTimeoutTimerActivate timeoutMs =>
      simp [PortCall.exec, portMotorTimeoutTimerActivate,
        portMotorSetTimeoutStatus]
  | _ => exact ⟨rfl, rfl, rfl, rfl⟩

/-- The registers that no call of an action changes. -/
theorem exec_registers :
    (c.exec leds b).exti = b.exti ∧ (c.exec leds b).exticr = b.exticr ∧
      (c.exec leds b).nvic = b.nvic ∧ (c.exec leds b).rcc = b.rcc := by
  cases c with
  | motorTimeoutTimerActivate timeoutMs =>
      simp [PortCall.exec, portMotorTimeoutTimerActivate,
        portMotorSetTimeoutStatus]
  | _ => exact ⟨rfl, rfl, rfl, rfl⟩

end Calls

section Actions

variable (cfg : DoorConfig) (row : Row) (d : Door)

theorem action_board :
    (row.action cfg d).board =
      (portCalls cfg row).foldl (PortCall.exec cfg.leds) d.board := by
  cases row <;> rfl

/-- What no call changes, an action keeps. -/
theorem view_action {α : Type} (view : Board → α)
    (h : ∀ b c, view (PortCall.exec cfg.leds b c) = view b) :
    view (row.action cfg d).board = view d.board := by
  rw [action_board]
  exact view_foldl_of_unchanged view h _ _

theorem action_motorTimer :
    (row.action cfg d).board.tim .TIM2 =
      (armedWith cfg row).elim (stopped (d.board.tim .TIM2))
        fun ms => armed d.board.systemCoreClock.toNat ms (d.board.tim .TIM2) := by
  have hclock := fun b c => (exec_variables cfg.leds b c).1
  rw [action_board]
  cases row <;>
    simp [portCalls, openDoorCalls, exec_tim, onTimer, hclock, armedWith,
      DoorLed.timer, armed, stopped]

theorem action_blinkTimer (l : DoorLed) :
    (row.action cfg d).board.tim l.timer =
      if startedLed row = some l then started (d.board.tim l.timer)
      else if stoppedLed row = some l then stopped (d.board.tim l.timer)
      else d.board.tim l.timer := by
  rw [action_board]
  cases row <;> cases l <;>
    simp [portCalls, openDoorCalls, exec_tim, onTimer, startedLed, stoppedLed,
      DoorLed.timer]

theorem action_timeout :
    (row.action cfg d).board.timeout =
      (armedWith cfg row).elim d.board.timeout fun _ => false := by
  rw [action_board]
  cases row <;>
    simp [portCalls, openDoorCalls, exec_timeout, armedWith]

theorem action_variables :
    (row.action cfg d).board.systemCoreClock = d.board.systemCoreClock ∧
      (row.action cfg d).board.msTicks = d.board.msTicks ∧
      (row.action cfg d).board.flagPressed = d.board.flagPressed ∧
      (row.action cfg d).board.sensorStatus = d.board.sensorStatus := by
  have hexec := exec_variables cfg.leds
  exact ⟨view_action cfg row d Board.systemCoreClock fun b c => (hexec b c).1,
    view_action cfg row d Board.msTicks fun b c => (hexec b c).2.1,
    view_action cfg row d Board.flagPressed fun b c => (hexec b c).2.2.1,
    view_action cfg row d Board.sensorStatus fun b c => (hexec b c).2.2.2⟩

/-- An opening records the time at which it is executed. -/
theorem action_lastTime :
    (row.action cfg d).fsm.lastTimePresenceOrButton =
      if row.opensDoor then d.board.msTicks
      else d.fsm.lastTimePresenceOrButton := by
  have hticks := (action_variables cfg row d).2.1
  cases row with
  | openDoor | stopClosingDoor => exact hticks
  | stayOpen | keepOpen | closeDoor | stayClosed => rfl

end Actions

end AutomaticDoor.ActionEffects
