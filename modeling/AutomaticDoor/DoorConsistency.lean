import AutomaticDoor.Foundations.EventSystems
import AutomaticDoor.LedPanel

/-!
The panel agrees with the state of the door in every reachable state.
-/

namespace AutomaticDoor.DoorConsistency

open AutomaticDoor.BoardRegisters
open AutomaticDoor.DoorStateMachine
open AutomaticDoor.Foundations.EventSystems
open AutomaticDoor.InterruptHandlers
open AutomaticDoor.LedPanel
open AutomaticDoor.PortLed

inductive LedMode
  | off
  | on
  | blinking
deriving DecidableEq

/-- The indication of a pin level and a blink timer.  A blinking LED is in
either phase. -/
def LedMode.Shown : LedMode → (lit running : Bool) → Prop
  | off, lit, running => lit = false ∧ running = false
  | on, lit, running => lit = true ∧ running = false
  | blinking, _, running => running = true

/-- The green LED tells the opening and the open door, the red LED the closing
and the closed one. -/
def ledMode : DoorState → DoorLed → LedMode
  | .CLOSED, .opening => .off
  | .CLOSED, .closing => .on
  | .OPENING, .opening => .blinking
  | .OPENING, .closing => .off
  | .OPEN, .opening => .on
  | .OPEN, .closing => .off
  | .CLOSING, .opening => .off
  | .CLOSING, .closing => .blinking

def motorTimed : DoorState → Bool
  | .CLOSED => false
  | .OPENING | .OPEN | .CLOSING => true

def presenceReported : DoorState → Bool
  | .CLOSED | .CLOSING => false
  | .OPENING | .OPEN => true

structure Consistent (cfg : DoorConfig) (d : Door) : Prop where
  leds : ∀ l, (ledMode d.fsm.currentState l).Shown
    (ledLit (cfg.leds.hw l) d.board) (ledTimerRunning (cfg.leds.hw l) d.board)
  motor : (d.board.tim .TIM2).cen = motorTimed d.fsm.currentState
  presence : d.fsm.presenceOrButtonStatus = presenceReported d.fsm.currentState

/-- The documented initial state: closed, red LED on, green LED off, all timers
stopped and no presence. -/
structure DocumentedStart (cfg : DoorConfig) (d : Door) : Prop where
  state : d.fsm.currentState = .CLOSED
  red : ledLit (cfg.leds.hw .closing) d.board = true
  green : ledLit (cfg.leds.hw .opening) d.board = false
  timers : ∀ t, (d.board.tim t).cen = false
  presence : d.fsm.presenceOrButtonStatus = false

def PanelFits (s : DoorState) (p : Panel) : Prop :=
  (∀ l, (ledMode s l).Shown (p.lit l) (p.blinking l)) ∧ p.motor = motorTimed s

theorem consistent_iff {cfg : DoorConfig} {d : Door} :
    Consistent cfg d ↔
      PanelFits d.fsm.currentState (panelOf cfg.leds d.board) ∧
        d.fsm.presenceOrButtonStatus = presenceReported d.fsm.currentState :=
  ⟨fun h => ⟨⟨h.leds, h.motor⟩, h.presence⟩, fun h => ⟨h.1.1, h.1.2, h.2⟩⟩

theorem consistent_of_documentedStart {cfg : DoorConfig} {d : Door}
    (h : DocumentedStart cfg d) : Consistent cfg d where
  leds l := by
    rw [h.state]
    cases l with
    | opening => exact ⟨h.green, h.timers _⟩
    | closing => exact ⟨h.red, h.timers _⟩
  motor := by
    rw [h.state]
    exact h.timers _
  presence := by
    rw [h.state]
    exact h.presence

/-- A blink interrupt changes the phase of an LED whose timer runs, and no
mode depends on that phase. -/
theorem panelFits_interrupt {s : DoorState} {p : Panel} {i : Interrupt}
    (hfits : PanelFits s p) (henabled : p.enables i = true) :
    PanelFits s (p.interrupt i) := by
  obtain ⟨hleds, hmotor⟩ := hfits
  have htoggle : ∀ l, p.blinking l = true → PanelFits s (p.toggle l) := by
    intro l hrunning
    refine ⟨?_, hmotor⟩
    intro m
    have hm := hleds m
    by_cases hml : m = l
    · subst m
      cases hmode : ledMode s l <;> rw [hmode] at hm <;>
        simp_all [LedMode.Shown, Panel.toggle]
    · simpa [Panel.toggle, hml] using hm
  cases i with
  | sysTick | exti15_10 => exact ⟨hleds, hmotor⟩
  | tim t =>
      cases t with
      | TIM2 => exact ⟨hleds, hmotor⟩
      | TIM3 => exact htoggle .opening henabled
      | TIM4 => exact htoggle .closing henabled

def rowOnPanel : Row → Panel → Panel
  | .openDoor, p => ((p.light .closing false).blink .opening true).runMotor true
  | .stayOpen, p => ((p.light .opening true).blink .opening false).runMotor true
  | .keepOpen, p => p.runMotor true
  | .closeDoor, p => ((p.light .opening false).blink .closing true).runMotor true
  | .stayClosed, p =>
      ((p.light .closing true).blink .closing false).runMotor false
  | .stopClosingDoor, p =>
      ((((p.blink .closing false).runMotor false).light .closing false).blink
        .opening true).runMotor true

theorem panelOf_action (cfg : DoorConfig) (row : Row) (d : Door) :
    panelOf cfg.leds (row.action cfg d).board =
      rowOnPanel row (panelOf cfg.leds d.board) := by
  cases row <;>
    simp [Row.action, doOpenDoor, doStayOpen, doKeepOpen, doCloseDoor,
      doStayClosed, doStopClosingDoor, rowOnPanel]

theorem panelFits_row {row : Row} {p : Panel} (hfits : PanelFits row.origin p) :
    PanelFits row.destination (rowOnPanel row p) := by
  obtain ⟨hleds, hmotor⟩ := hfits
  have hopening := hleds .opening
  have hclosing := hleds .closing
  constructor
  · intro l
    cases row <;> cases l <;>
      simp_all [Row.origin, Row.destination, rowOnPanel, ledMode, LedMode.Shown,
        Panel.light, Panel.blink, Panel.runMotor]
  · cases row <;> rfl

theorem presence_action (cfg : DoorConfig) (row : Row) {d : Door}
    (h : d.fsm.presenceOrButtonStatus = presenceReported row.origin) :
    (row.action cfg d).fsm.presenceOrButtonStatus =
      presenceReported row.destination := by
  cases row <;> first | rfl | exact h

theorem consistent_doorStep {cfg : DoorConfig} (d : Door) (e : DoorEvent)
    (d' : Door) (hd : Consistent cfg d) (hstep : doorStep cfg d e = some d') :
    Consistent cfg d' := by
  rw [consistent_iff] at hd ⊢
  obtain ⟨hfits, hpresence⟩ := hd
  cases e with
  | interrupt i =>
      obtain ⟨b, hb, rfl⟩ := interruptDoor_eq_some_iff.mp hstep
      obtain ⟨henabled, hpanel⟩ := interruptStep_panelOf cfg.leds d.board hb
      refine ⟨?_, hpresence⟩
      rw [hpanel]
      exact panelFits_interrupt hfits henabled
  | fire row =>
      obtain ⟨horigin, rfl⟩ := fsmFire_some_eq_some_iff.mp hstep
      rw [horigin] at hfits hpresence
      refine ⟨?_, presence_action cfg row hpresence⟩
      rw [panelOf_action]
      exact panelFits_row hfits

/-- From the documented initial state, whatever transitions fire and whatever
interrupts are taken between them, the LEDs, their blink timers, the motor
timer and the presence flag are those of the state that the door is in. -/
theorem reachable_consistent (cfg : DoorConfig) (d₀ d : Door)
    (events : List DoorEvent) (hstart : DocumentedStart cfg d₀)
    (hrun : runEvents (doorStep cfg) d₀ events = some d) : Consistent cfg d :=
  invariant_of_runEvents' consistent_doorStep
    (consistent_of_documentedStart hstart) hrun

def documentedDoor : Door where
  board := portLedOn (documentedLeds.hw .closing) Board.reset
  fsm := ⟨.CLOSED, false, 0⟩

theorem documentedDoor_start : DocumentedStart documentedConfig documentedDoor where
  state := rfl
  red := by decide
  green := by decide
  timers t := by cases t <;> rfl
  presence := rfl

def reversalRun : List DoorEvent :=
  [.fire .openDoor, .interrupt (.tim .TIM3), .interrupt (.tim .TIM2),
    .fire .stayOpen, .fire .closeDoor, .interrupt (.tim .TIM4),
    .fire .stopClosingDoor]

theorem reachable_consistent_reversalRun :
    ∃ d, runEvents (doorStep documentedConfig) documentedDoor reversalRun =
        some d ∧
      d.fsm.currentState = .OPENING ∧ Consistent documentedConfig d :=
  ⟨_, rfl, rfl, reachable_consistent documentedConfig documentedDoor _
    reversalRun documentedDoor_start rfl⟩

end AutomaticDoor.DoorConsistency
