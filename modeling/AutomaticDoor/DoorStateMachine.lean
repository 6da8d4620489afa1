import AutomaticDoor.InterruptHandlers

/-!
The finite state machine of `fsm_automatic_door.c`: its guards, its actions,
and the transition graph of the documentation.
-/

namespace AutomaticDoor.DoorStateMachine

open AutomaticDoor.BoardRegisters
open AutomaticDoor.InterruptHandlers
open AutomaticDoor.PortInputs
open AutomaticDoor.PortLed
open AutomaticDoor.PortMotor
open AutomaticDoor.PortSystem

/-- What the headers leave to be filled in: the LEDs, and
`AUTOMATIC_DOOR_OPENING_CLOSING_TIMEOUT_MS` and
`AUTOMATIC_DOOR_INACTIVITY_TIMEOUT_MS`. -/
structure DoorConfig where
  leds : DoorLeds
  openingClosingTimeoutMs : Word
  inactivityTimeoutMs : Word

/-- Five seconds to open or close, ten seconds of inactivity. -/
def documentedConfig : DoorConfig := ⟨documentedLeds, 5000, 10000⟩

inductive DoorState
  | CLOSED
  | OPENING
  | OPEN
  | CLOSING
deriving DecidableEq

/-- The fields of `fsm_automatic_door_t` that change.  The pointers are those
of the port layer's global variables. -/
structure FsmAutomaticDoor where
  currentState : DoorState
  presenceOrButtonStatus : Bool
  lastTimePresenceOrButton : Word

structure Door where
  board : Board
  fsm : FsmAutomaticDoor

section Guards

variable (d : Door)

def checkOpen : Bool :=
  let pirStatus := portPirSensorGetStatus d.board
  let buttonStatus := portButtonIsPressed d.board
  pirStatus || buttonStatus

def checkOpeningTimeout : Bool := d.board.timeout

def checkKeepOpen : Bool := checkOpen d

def checkInactivityTimeout : Bool := d.board.timeout

def checkPresenceOrButton : Bool := checkOpen d

def checkClosingTimeout : Bool := d.board.timeout

end Guards

section Actions

variable (cfg : DoorConfig) (d : Door)

def doOpenDoor : Door :=
  let b := portLedOff (cfg.leds.hw .closing) d.board
  let b := portLedTimerActivate (cfg.leds.hw .opening) b
  let b := portMotorTimeoutTimerActivate motorAutomaticDoor
    cfg.openingClosingTimeoutMs b
  { board := b
    fsm :=
      { d.fsm with
        presenceOrButtonStatus := true
        lastTimePresenceOrButton := portSystemGetMillis b } }

def doStayOpen : Door :=
  let b := portLedOn (cfg.leds.hw .opening) d.board
  let b := portLedTimerDeactivate (cfg.leds.hw .opening) b
  let b := portMotorTimeoutTimerActivate motorAutomaticDoor
    cfg.inactivityTimeoutMs b
  { d with board := b }

def doKeepOpen : Door :=
  let b := portMotorTimeoutTimerActivate motorAutomaticDoor
    cfg.inactivityTimeoutMs d.board
  { d with board := b }

def doCloseDoor : Door :=
  let b := portLedOff (cfg.leds.hw .opening) d.board
  let b := portLedTimerActivate (cfg.leds.hw .closing) b
  let b := portMotorTimeoutTimerActivate motorAutomaticDoor
    cfg.openingClosingTimeoutMs b
  { board := b, fsm := { d.fsm with presenceOrButtonStatus := false } }

def doStopClosingDoor : Door :=
  let b := portLedTimerDeactivate (cfg.leds.hw .closing) d.board
  let b := portMotorTimeoutTimerDeactivate motorAutomaticDoor b
  doOpenDoor cfg { d with board := b }

def doStayClosed : Door :=
  let b := portLedOn (cfg.leds.hw .closing) d.board
  let b := portLedTimerDeactivate (cfg.leds.hw .closing) b
  let b := portMotorTimeoutTimerDeactivate motorAutomaticDoor b
  { d with board := b }

end Actions

/-- The arcs of the documented transition graph.  The array
`fsm_trans_automatic_door` itself is left empty. -/
inductive Row
  | openDoor
  | stayOpen
  | keepOpen
  | closeDoor
  | stayClosed
  | stopClosingDoor
deriving DecidableEq

namespace Row

def origin : Row → DoorState
  | openDoor => .CLOSED
  | stayOpen => .OPENING
  | keepOpen | closeDoor => .OPEN
  | stayClosed | stopClosingDoor => .CLOSING

def destination : Row → DoorState
  | openDoor | stopClosingDoor => .OPENING
  | stayOpen | keepOpen => .OPEN
  | closeDoor => .CLOSING
  | stayClosed => .CLOSED

def action (cfg : DoorConfig) : Row → Door → Door
  | openDoor => doOpenDoor cfg
  | stayOpen => doStayOpen cfg
  | keepOpen => doKeepOpen cfg
  | closeDoor => doCloseDoor cfg
  | stayClosed => doStayClosed cfg
  | stopClosingDoor => doStopClosingDoor cfg

def opensDoor : Row → Bool
  | openDoor | stopClosingDoor => true
  | stayOpen | keepOpen | closeDoor | stayClosed => false

end Row

/-- One `fsm_fire` that finds no enabled row, or that executes one.  Which row
it is depends on the values of the guards, which are left open. -/
def fsmFire (cfg : DoorConfig) (d : Door) : Option Row → Option Door
  | none => some d
  | some row =>
      if d.fsm.currentState = row.origin then
        let done := row.action cfg d
        some { done with
          fsm := { done.fsm with currentState := row.destination } }
      else none

def fsmAutomaticDoorGetLastTimePresence (d : Door) : Word :=
  d.fsm.lastTimePresenceOrButton

def fsmAutomaticDoorGetPresenceStatus (d : Door) : Bool :=
  d.fsm.presenceOrButtonStatus

inductive DoorEvent
  | interrupt (i : Interrupt)
  | fire (row : Row)

def interruptDoor (cfg : DoorConfig) (d : Door) (i : Interrupt) : Option Door :=
  (interruptStep cfg.leds d.board i).map fun b => { d with board := b }

def doorStep (cfg : DoorConfig) (d : Door) : DoorEvent → Option Door
  | .interrupt i => interruptDoor cfg d i
  | .fire row => fsmFire cfg d (some row)

theorem fsmFire_some_eq_some_iff {cfg : DoorConfig} {d d' : Door} {row : Row} :
    fsmFire cfg d (some row) = some d' ↔
      d.fsm.currentState = row.origin ∧
        d' = { row.action cfg d with
          fsm :=
            { (row.action cfg d).fsm with currentState := row.destination } } := by
  simp only [fsmFire]
  split
  · rename_i horigin
    simp only [Option.some.injEq, horigin, true_and]
    exact eq_comm
  · rename_i horigin
    simp [horigin]

theorem interruptDoor_eq_some_iff {cfg : DoorConfig} {d d' : Door}
    {i : Interrupt} :
    interruptDoor cfg d i = some d' ↔
      ∃ b, interruptStep cfg.leds d.board i = some b ∧
        d' = { d with board := b } := by
  rw [interruptDoor, Option.map_eq_some_iff]
  constructor
  · rintro ⟨b, hb, rfl⟩
    exact ⟨b, hb, rfl⟩
  · rintro ⟨b, hb, rfl⟩
    exact ⟨b, hb, rfl⟩

end AutomaticDoor.DoorStateMachine
