import AutomaticDoor.Foundations.Interleaving
import AutomaticDoor.InterruptHandlers

/-!
The calls on the motor timer statement by statement, with overflows of the
counter and `TIM2_IRQHandler` between the statements.
-/

namespace AutomaticDoor.MotorStatements

open AutomaticDoor.BoardRegisters
open AutomaticDoor.Foundations.EventSystems
open AutomaticDoor.Foundations.Interleaving
open AutomaticDoor.InterruptHandlers
open AutomaticDoor.PortLed
open AutomaticDoor.PortMotor
open AutomaticDoor.PortSystem
open AutomaticDoor.TimerSetting

/-- The statements of `port_motor.c` that write to the timer, or for it. -/
inductive MotorStmt
  | enableClock
  | setPriority
  | enableIrq
  | clearCen
  | setArpe
  | writePsc (psc : Word)
  | writeArr (arr : Word)
  | clearSr
  | setTimeoutStatus (timeout : Bool)
  | clearCnt
  | setCen
  | generateUpdate
  | clearUif
  | setUrs
  | setUie
deriving DecidableEq

def MotorStmt.exec (b : Board) : MotorStmt → Board
  | enableClock => enableTimClock .TIM2 b
  | setPriority => nvicSetPriority (.TIM .TIM2) 2 0 b
  | enableIrq => nvicEnableIrq (.TIM .TIM2) b
  | clearCen => b.onTim .TIM2 fun r => { r with cen := false }
  | setArpe => b.onTim .TIM2 fun r => { r with arpe := true }
  | writePsc psc => b.onTim .TIM2 fun r => { r with psc := psc }
  | writeArr arr => b.onTim .TIM2 fun r => { r with arr := arr }
  | clearSr | clearUif => b.onTim .TIM2 fun r => { r with uif := false }
  | setTimeoutStatus timeout =>
      portMotorSetTimeoutStatus motorAutomaticDoor timeout b
  | clearCnt => b.onTim .TIM2 fun r => { r with cnt := 0 }
  | setCen => b.onTim .TIM2 fun r => { r with cen := true }
  | generateUpdate => b.onTim .TIM2 TimRegs.updateGeneration
  | setUrs => b.onTim .TIM2 fun r => { r with urs := true }
  | setUie => b.onTim .TIM2 fun r => { r with uie := true }

/-- The calls on the motor timer.  The values that an activation loads are left
open. -/
inductive MotorCall
  | init
  | activate (arr psc : Word)
  | deactivate
deriving DecidableEq

def MotorCall.body : MotorCall → List MotorStmt
  | init =>
      [.enableClock, .clearCen, .setArpe, .writePsc 0, .writeArr 0xFFFF,
        .clearSr, .setPriority, .enableIrq]
  | activate arr psc =>
      [.clearCen, .setTimeoutStatus false, .clearCnt, .writeArr arr,
        .writePsc psc, .setCen, .generateUpdate, .clearUif, .setUrs, .setUie]
  | deactivate => [.clearCen]

def MotorStmt.afterEnable : MotorStmt → Bool
  | generateUpdate | clearUif | setUrs | setUie => true
  | _ => false

abbrev MotorThread := Thread Board MotorStmt

def preempt (b : Board) : Board :=
  if (b.tim .TIM2).uif && (b.tim .TIM2).uie then tim2IrqHandler b else b

inductive MotorEvent
  | call (c : MotorCall)
  | advance
  | overflow
deriving DecidableEq

/-- The counter can overflow while it is enabled, but a full count does not
elapse before the activation that has enabled it returns. -/
def canOverflow (t : MotorThread) : Bool :=
  (t.store.tim .TIM2).cen && !t.todo.head?.any MotorStmt.afterEnable

def motorStep (t : MotorThread) : MotorEvent → Option MotorThread
  | .call c => if t.todo = [] then some { t with todo := c.body } else none
  | .advance =>
      (t.advance fun b stmt => (stmt.exec b, [])).map fun next =>
        { next with store := preempt next.store }
  | .overflow =>
      if canOverflow t then
        some { t with store := preempt (t.store.onTim .TIM2 TimRegs.overflow) }
      else none

section Bodies

variable (b : Board)

/-- The statements of each call are all that the call does. -/
theorem foldl_init_body :
    MotorCall.init.body.foldl MotorStmt.exec b =
      portMotorInit motorAutomaticDoor b := rfl

theorem foldl_activate_body (timeoutMs : Word) :
    (MotorCall.activate
        (loadedArr b.systemCoreClock.toNat timeoutMs.toNat)
        (loadedPsc b.systemCoreClock.toNat timeoutMs.toNat)).body.foldl
        MotorStmt.exec b =
      portMotorTimeoutTimerActivate motorAutomaticDoor timeoutMs b := by
  simp only [MotorCall.body, List.foldl, MotorStmt.exec,
    portMotorTimeoutTimerActivate, portMotorSetTimeoutStatus,
    motorAutomaticDoor]
  simp

theorem foldl_deactivate_body :
    MotorCall.deactivate.body.foldl MotorStmt.exec b =
      portMotorTimeoutTimerDeactivate motorAutomaticDoor b := rfl

end Bodies

end AutomaticDoor.MotorStatements
