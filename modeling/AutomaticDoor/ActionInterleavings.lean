import Mathlib.Algebra.Group.Nat.Even
import AutomaticDoor.Foundations.Interleaving
import AutomaticDoor.LedPanel

/-!
The actions of the door call by call, with interrupts taken between the calls.
An LED that is lit before its blink timer is stopped can be toggled once more;
one whose timer is stopped first cannot.
-/

namespace AutomaticDoor.ActionInterleavings

open AutomaticDoor.BoardRegisters
open AutomaticDoor.DoorStateMachine
open AutomaticDoor.Foundations.EventSystems
open AutomaticDoor.Foundations.Interleaving
open AutomaticDoor.InterruptHandlers
open AutomaticDoor.LedPanel
open AutomaticDoor.PortLed
open AutomaticDoor.PortMotor

inductive PortCall
  | ledOn (l : DoorLed)
  | ledOff (l : DoorLed)
  | ledTimerActivate (l : DoorLed)
  | ledTimerDeactivate (l : DoorLed)
  | motorTimeoutTimerActivate (timeoutMs : Word)
  | motorTimeoutTimerDeactivate

namespace PortCall

def exec (leds : DoorLeds) (b : Board) : PortCall → Board
  | ledOn l => portLedOn (leds.hw l) b
  | ledOff l => portLedOff (leds.hw l) b
  | ledTimerActivate l => portLedTimerActivate (leds.hw l) b
  | ledTimerDeactivate l => portLedTimerDeactivate (leds.hw l) b
  | motorTimeoutTimerActivate timeoutMs =>
      portMotorTimeoutTimerActivate motorAutomaticDoor timeoutMs b
  | motorTimeoutTimerDeactivate =>
      portMotorTimeoutTimerDeactivate motorAutomaticDoor b

def target : PortCall → Option DoorLed
  | ledOn l | ledOff l | ledTimerActivate l | ledTimerDeactivate l => some l
  | motorTimeoutTimerActivate _ | motorTimeoutTimerDeactivate => none

def onPanel (p : Panel) : PortCall → Panel
  | ledOn l => p.light l true
  | ledOff l => p.light l false
  | ledTimerActivate l => p.blink l true
  | ledTimerDeactivate l => p.blink l false
  | motorTimeoutTimerActivate _ => p.runMotor true
  | motorTimeoutTimerDeactivate => p.runMotor false

end PortCall

def openDoorCalls (cfg : DoorConfig) : List PortCall :=
  [.ledOff .closing, .ledTimerActivate .opening,
    .motorTimeoutTimerActivate cfg.openingClosingTimeoutMs]

def portCalls (cfg : DoorConfig) : Row → List PortCall
  | .openDoor => openDoorCalls cfg
  | .stayOpen =>
      [.ledOn .opening, .ledTimerDeactivate .opening,
        .motorTimeoutTimerActivate cfg.inactivityTimeoutMs]
  | .keepOpen => [.motorTimeoutTimerActivate cfg.inactivityTimeoutMs]
  | .closeDoor =>
      [.ledOff .opening, .ledTimerActivate .closing,
        .motorTimeoutTimerActivate cfg.openingClosingTimeoutMs]
  | .stayClosed =>
      [.ledOn .closing, .ledTimerDeactivate .closing,
        .motorTimeoutTimerDeactivate]
  | .stopClosingDoor =>
      .ledTimerDeactivate .closing :: .motorTimeoutTimerDeactivate ::
        openDoorCalls cfg

def boardStep (leds : DoorLeds) :
    Board → ThreadEvent PortCall Interrupt → Option Board :=
  threadStep (PortCall.exec leds) (interruptStep leds)

/-- The calls are all that an action does to the board. -/
theorem runEvents_portCalls (cfg : DoorConfig) (row : Row) (d : Door) :
    runEvents (boardStep cfg.leds) d.board
        (weave (portCalls cfg row) fun _ => []) =
      some (row.action cfg d).board := by
  rw [boardStep, runEvents_weave_quiet]
  cases row <;> rfl

def panelInterrupt (p : Panel) (i : Interrupt) : Option Panel :=
  if p.enables i then some (p.interrupt i) else none

def panelStep : Panel → ThreadEvent PortCall Interrupt → Option Panel :=
  threadStep PortCall.onPanel panelInterrupt

theorem panelOf_exec (leds : DoorLeds) (b : Board) (c : PortCall) :
    panelOf leds (c.exec leds b) = c.onPanel (panelOf leds b) := by
  cases c <;> simp [PortCall.exec, PortCall.onPanel]

/-- Every interleaving on the board is one on the panel. -/
theorem runEvents_panelOf {leds : DoorLeds} {b b' : Board}
    {events : List (ThreadEvent PortCall Interrupt)}
    (hrun : runEvents (boardStep leds) b events = some b') :
    runEvents panelStep (panelOf leds b) events = some (panelOf leds b') := by
  have hstep : ∀ p c e c', p = panelOf leds c → boardStep leds c e = some c' →
      ∃ q, panelStep p e = some q ∧ q = panelOf leds c' := by
    rintro p c e c' rfl he
    cases e with
    | call call =>
        obtain rfl : call.exec leds c = c' := Option.some.inj he
        exact ⟨_, rfl, (panelOf_exec leds c call).symm⟩
    | interrupt i =>
        obtain ⟨henabled, hpanel⟩ := interruptStep_panelOf leds c he
        exact ⟨_, if_pos henabled, hpanel.symm⟩
  obtain ⟨q, hq, rfl⟩ := runEvents_simulated hstep rfl hrun
  exact hq

section Panels

variable {p q : Panel} {l : DoorLed} {on : Bool}

theorem panelInterrupt_cases {i : Interrupt} (l : DoorLed)
    (h : panelInterrupt p i = some q) :
    q.blinking l = p.blinking l ∧
      ((i = .tim l.timer ∧ p.blinking l = true ∧ q.lit l = !p.lit l) ∨
        (i ≠ .tim l.timer ∧ q.lit l = p.lit l)) := by
  simp only [panelInterrupt, Option.ite_none_right_eq_some,
    Option.some.injEq] at h
  obtain ⟨henabled, rfl⟩ := h
  cases i with
  | sysTick | exti15_10 => exact ⟨rfl, Or.inr ⟨by simp, rfl⟩⟩
  | tim t =>
      cases t <;> cases l <;>
        simp_all [Panel.interrupt, Panel.enables, Panel.toggle, DoorLed.timer]

/-- Interrupts start and stop no blink timer, and every second interrupt of an
LED's timer undoes the first. -/
theorem runEvents_panelInterrupt {interrupts : List Interrupt} (l : DoorLed)
    (hrun : runEvents panelInterrupt p interrupts = some q) :
    q.blinking l = p.blinking l ∧
      q.lit l =
        if Even (interrupts.count (.tim l.timer)) then p.lit l else !p.lit l := by
  induction interrupts generalizing p with
  | nil =>
      obtain rfl : p = q := by simpa using hrun
      simp
  | cons i interrupts ih =>
      obtain ⟨r, hr, hrest⟩ := runEvents_cons_eq_some_iff.mp hrun
      obtain ⟨hblink, hlit⟩ := ih hrest
      obtain ⟨hblink', hcases⟩ := panelInterrupt_cases l hr
      refine ⟨hblink.trans hblink', ?_⟩
      rcases hcases with ⟨rfl, _, hflip⟩ | ⟨hne, hsame⟩
      · rw [hlit, hflip, List.count_cons_self]
        by_cases heven : Even (interrupts.count (.tim l.timer)) <;>
          simp [heven, Nat.even_add_one]
      · rw [hlit, hsame, List.count_cons_of_ne hne]

def Steady (l : DoorLed) (on : Bool) (p : Panel) : Prop :=
  p.lit l = on ∧ p.blinking l = false

theorem steady_call {c : PortCall} (h : Steady l on p)
    (hother : c.target ≠ some l) : Steady l on (c.onPanel p) := by
  obtain ⟨hlit, hblink⟩ := h
  cases c <;>
    simp_all [PortCall.target, PortCall.onPanel, Steady, Panel.light,
      Panel.blink, Panel.runMotor, Ne.symm]

theorem steady_interrupt {i : Interrupt} (h : Steady l on p)
    (hstep : panelInterrupt p i = some q) : Steady l on q := by
  obtain ⟨hlit, hblink⟩ := h
  obtain ⟨hblink', hcases⟩ := panelInterrupt_cases l hstep
  rcases hcases with ⟨_, hrunning, _⟩ | ⟨_, hsame⟩
  · exact absurd (hrunning.symm.trans hblink) (by simp)
  · exact ⟨hsame.trans hlit, hblink'.trans hblink⟩

theorem steady_run {events : List (ThreadEvent PortCall Interrupt)}
    (h : Steady l on p)
    (hother : ∀ c, .call c ∈ events → c.target ≠ some l)
    (hrun : runEvents panelStep p events = some q) : Steady l on q := by
  have hstep : ∀ s e t, (∀ c, e = .call c → c.target ≠ some l) →
      Steady l on s → panelStep s e = some t → Steady l on t := by
    intro s e t hallowed hs hstep
    cases e with
    | call c =>
        obtain rfl : c.onPanel s = t := Option.some.inj hstep
        exact steady_call hs (hallowed c rfl)
    | interrupt i => exact steady_interrupt hs hstep
  have hallowed : ∀ e ∈ events, ∀ c, e = .call c → c.target ≠ some l := by
    rintro e he c rfl
    exact hother c he
  exact invariant_of_runEvents hstep hallowed h hrun

variable {gaps : Nat → List Interrupt} {rest : List PortCall}

/-- Lighting the LED before stopping its timer leaves it lit exactly when the
interrupts between the two calls cancel out. -/
theorem steady_of_on_then_deactivate
    (hother : ∀ c ∈ rest, c.target ≠ some l)
    (hrun : runEvents panelStep p
      (weave (.ledOn l :: .ledTimerDeactivate l :: rest) gaps) = some q) :
    Steady l (decide (Even ((gaps 1).count (.tim l.timer)))) q := by
  obtain ⟨r, _, hrun⟩ := runEvents_weave_cons_eq_some_iff.mp hrun
  obtain ⟨s, hgap, hrun⟩ := runEvents_weave_cons_eq_some_iff.mp hrun
  have hlit := (runEvents_panelInterrupt l hgap).2
  have hstopped : Steady l (decide (Even ((gaps 1).count (.tim l.timer))))
      (PortCall.onPanel s (.ledTimerDeactivate l)) := by
    refine ⟨?_, by simp [PortCall.onPanel, Panel.blink]⟩
    change s.lit l = _
    rw [hlit]
    by_cases heven : Even ((gaps 1).count (.tim l.timer)) <;>
      simp [heven, PortCall.onPanel, Panel.light]
  exact steady_run hstopped
    (fun c hc => hother c (call_mem_weave_iff.mp hc)) hrun

theorem steady_of_deactivate_then_off {c : PortCall} (hc : c.target ≠ some l)
    (hother : ∀ c ∈ rest, c.target ≠ some l)
    (hrun : runEvents panelStep p
      (weave (.ledTimerDeactivate l :: c :: .ledOff l :: rest) gaps) = some q) :
    Steady l false q := by
  obtain ⟨r, _, hrun⟩ := runEvents_weave_cons_eq_some_iff.mp hrun
  obtain ⟨s, hgap, hrun⟩ := runEvents_weave_cons_eq_some_iff.mp hrun
  obtain ⟨t, hgap', hrun⟩ := runEvents_weave_cons_eq_some_iff.mp hrun
  have hstopped : s.blinking l = false := by
    rw [(runEvents_panelInterrupt l hgap).1]
    simp [PortCall.onPanel, Panel.blink]
  have hsteady : Steady l (s.lit l) s := ⟨rfl, hstopped⟩
  have hblink : t.blinking l = false := by
    rw [(runEvents_panelInterrupt l hgap').1]
    exact (steady_call hsteady hc).2
  have hoff : Steady l false (PortCall.onPanel t (.ledOff l)) :=
    ⟨by simp [PortCall.onPanel, Panel.light], hblink⟩
  exact steady_run hoff (fun c hc => hother c (call_mem_weave_iff.mp hc)) hrun

end Panels

section Boards

variable {leds : DoorLeds} {l : DoorLed} {on shown : Bool} {b : Board}

/-- The LED shows `on`, and goes on showing it through all later interrupts and
calls, up to a call that acts on it. -/
def StaysLit (leds : DoorLeds) (l : DoorLed) (on : Bool) (b : Board) : Prop :=
  ledLit (leds.hw l) b = on ∧
    ∀ (events : List (ThreadEvent PortCall Interrupt)) (b' : Board),
      (∀ c, .call c ∈ events → c.target ≠ some l) →
      runEvents (boardStep leds) b events = some b' → ledLit (leds.hw l) b' = on

theorem staysLit_iff_of_steady (h : Steady l shown (panelOf leds b)) :
    StaysLit leds l on b ↔ shown = on := by
  constructor
  · exact fun hstays => h.1.symm.trans hstays.1
  · rintro rfl
    exact ⟨h.1, fun events b' hother hrun =>
      (steady_run h hother (runEvents_panelOf hrun)).1⟩

end Boards

/-- The opened door shows a steady green LED, and the closed door a steady red
LED, exactly when the blink timer interrupts an even number of times between
the call that lights the LED and the call that stops the timer.  The reversal
stops the timer first, and always leaves the red LED off. -/
theorem action_leaves_steady_led_iff (cfg : DoorConfig) (b b' : Board)
    (gaps : Nat → List Interrupt) (row : Row)
    (hrun : runEvents (boardStep cfg.leds) b (weave (portCalls cfg row) gaps) =
      some b') :
    (row = .stayOpen →
      (StaysLit cfg.leds .opening true b' ↔
        Even ((gaps 1).count (.tim .TIM3)))) ∧
    (row = .stayClosed →
      (StaysLit cfg.leds .closing true b' ↔
        Even ((gaps 1).count (.tim .TIM4)))) ∧
    (row = .stopClosingDoor → StaysLit cfg.leds .closing false b') := by
  have hpanel := runEvents_panelOf hrun
  refine ⟨?_, ?_, ?_⟩
  · rintro rfl
    have hsteady := steady_of_on_then_deactivate (l := .opening)
      (by simp [PortCall.target]) hpanel
    rw [staysLit_iff_of_steady hsteady, decide_eq_true_iff]
    rfl
  · rintro rfl
    have hsteady := steady_of_on_then_deactivate (l := .closing)
      (by simp [PortCall.target]) hpanel
    rw [staysLit_iff_of_steady hsteady, decide_eq_true_iff]
    rfl
  · rintro rfl
    have hsteady := steady_of_deactivate_then_off (l := .closing)
      (c := .motorTimeoutTimerDeactivate) (by simp [PortCall.target])
      (by simp [PortCall.target]) hpanel
    exact (staysLit_iff_of_steady hsteady).mpr rfl

def interruptsAt (k : Nat) (interrupts : List Interrupt) :
    Nat → List Interrupt :=
  fun j => if j = k then interrupts else []

def blinkingBoard (l : DoorLed) : Board :=
  portLedTimerActivate (documentedLeds.hw l) Board.reset

theorem action_leaves_steady_led_two_toggles :
    ∃ b', runEvents (boardStep documentedLeds) (blinkingBoard .opening)
        (weave (portCalls documentedConfig .stayOpen)
          (interruptsAt 1 [.tim .TIM3, .tim .TIM3])) = some b' ∧
      StaysLit documentedLeds .opening true b' :=
  ⟨_, rfl, ((action_leaves_steady_led_iff documentedConfig
    (blinkingBoard .opening) _ (interruptsAt 1 [.tim .TIM3, .tim .TIM3])
    .stayOpen rfl).1 rfl).mpr (by decide)⟩

theorem dark_of_one_interrupt {l : DoorLed} {rest : List PortCall} {b' : Board}
    (hother : ∀ c ∈ rest, c.target ≠ some l)
    (hrun : runEvents (boardStep documentedLeds) (blinkingBoard l)
      (weave (.ledOn l :: .ledTimerDeactivate l :: rest)
        (interruptsAt 1 [.tim l.timer])) = some b') :
    ¬ StaysLit documentedLeds l true b' ∧
      ledLit (documentedLeds.hw l) b' = false := by
  have hsteady := steady_of_on_then_deactivate hother (runEvents_panelOf hrun)
  have hodd : ¬ Even ((interruptsAt 1 [Interrupt.tim l.timer] 1).count
      (.tim l.timer)) := by
    simp [interruptsAt]
  rw [decide_eq_false hodd] at hsteady
  refine ⟨?_, hsteady.1⟩
  intro hstays
  exact absurd (hsteady.1.symm.trans hstays.1) (by decide)

theorem stay_actions_leave_led_off :
    (∃ b', runEvents (boardStep documentedLeds) (blinkingBoard .opening)
        (weave (portCalls documentedConfig .stayOpen)
          (interruptsAt 1 [.tim .TIM3])) = some b' ∧
      ¬ StaysLit documentedLeds .opening true b' ∧
      ledLit (documentedLeds.hw .opening) b' = false) ∧
    ∃ b', runEvents (boardStep documentedLeds) (blinkingBoard .closing)
        (weave (portCalls documentedConfig .stayClosed)
          (interruptsAt 1 [.tim .TIM4])) = some b' ∧
      ¬ StaysLit documentedLeds .closing true b' ∧
      ledLit (documentedLeds.hw .closing) b' = false := by
  constructor
  · obtain ⟨b', hrun⟩ : ∃ b', runEvents (boardStep documentedLeds)
        (blinkingBoard .opening)
        (weave (portCalls documentedConfig .stayOpen)
          (interruptsAt 1 [.tim .TIM3])) = some b' := ⟨_, rfl⟩
    exact ⟨b', hrun, dark_of_one_interrupt (by simp [PortCall.target]) hrun⟩
  · obtain ⟨b', hrun⟩ : ∃ b', runEvents (boardStep documentedLeds)
        (blinkingBoard .closing)
        (weave (portCalls documentedConfig .stayClosed)
          (interruptsAt 1 [.tim .TIM4])) = some b' := ⟨_, rfl⟩
    exact ⟨b', hrun, dark_of_one_interrupt (by simp [PortCall.target]) hrun⟩

end AutomaticDoor.ActionInterleavings
