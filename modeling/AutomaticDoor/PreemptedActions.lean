import AutomaticDoor.ActionEffects
import AutomaticDoor.DoorConsistency

/-!
Whole runs of the door in which interrupts preempt the actions: every call to
the port layer is a step of its own.
-/

namespace AutomaticDoor.PreemptedActions

open AutomaticDoor.ActionEffects
open AutomaticDoor.ActionInterleavings
open AutomaticDoor.BoardRegisters
open AutomaticDoor.DoorConsistency
open AutomaticDoor.DoorStateMachine
open AutomaticDoor.Foundations.EventSystems
open AutomaticDoor.InterruptHandlers
open AutomaticDoor.LedPanel
open AutomaticDoor.PortLed
open AutomaticDoor.PortSystem

/-- A transition that is being executed, and the calls that its action has yet
to make. -/
structure Transition where
  row : Row
  todo : List PortCall

structure BusyDoor where
  door : Door
  transition : Option Transition

inductive BusyEvent
  | start (row : Row)
  | call
  | finish
  | interrupt (i : Interrupt)

/-- The fields of the FSM once an action has returned.  No interrupt reads
them, so they are written together. -/
def recorded (row : Row) (b : Board) (f : FsmAutomaticDoor) : FsmAutomaticDoor :=
  match row with
  | .openDoor | .stopClosingDoor =>
      { currentState := row.destination
        presenceOrButtonStatus := true
        lastTimePresenceOrButton := portSystemGetMillis b }
  | .closeDoor =>
      { f with currentState := row.destination, presenceOrButtonStatus := false }
  | .stayOpen | .keepOpen | .stayClosed => { f with currentState := row.destination }

def busyStep (cfg : DoorConfig) : BusyDoor → BusyEvent → Option BusyDoor
  | ⟨d, none⟩, .start row =>
      if d.fsm.currentState = row.origin then
        some ⟨d, some ⟨row, portCalls cfg row⟩⟩
      else none
  | ⟨d, some ⟨row, c :: todo⟩⟩, .call =>
      some ⟨{ d with board := c.exec cfg.leds d.board }, some ⟨row, todo⟩⟩
  | ⟨d, some ⟨row, []⟩⟩, .finish =>
      some ⟨{ d with fsm := recorded row d.board d.fsm }, none⟩
  | ⟨d, transition⟩, .interrupt i =>
      (interruptDoor cfg d i).map fun d' => ⟨d', transition⟩
  | _, _ => none

section Unpreempted

variable (cfg : DoorConfig) (d : Door)

theorem recorded_action (row : Row) :
    recorded row (row.action cfg d).board d.fsm =
      { (row.action cfg d).fsm with currentState := row.destination } := by
  cases row <;> rfl

theorem runEvents_calls (row : Row) (todo : List PortCall) :
    runEvents (busyStep cfg) ⟨d, some ⟨row, todo⟩⟩
        (List.replicate todo.length .call) =
      some ⟨{ d with board := todo.foldl (PortCall.exec cfg.leds) d.board },
        some ⟨row, []⟩⟩ := by
  induction todo generalizing d with
  | nil => rfl
  | cons c todo ih =>
      rw [List.length_cons, List.replicate_succ, runEvents_cons]
      exact ih { d with board := c.exec cfg.leds d.board }

/-- Without interrupts the calls make the transition that `fsmFire` makes. -/
theorem runEvents_unpreempted (row : Row) :
    runEvents (busyStep cfg) ⟨d, none⟩
        (.start row :: (List.replicate (portCalls cfg row).length .call ++ [.finish])) =
      (fsmFire cfg d (some row)).map fun d' => ⟨d', none⟩ := by
  rw [runEvents_cons, busyStep, fsmFire]
  split
  · rw [Option.bind_some, runEvents_append, runEvents_calls, Option.bind_some,
      runEvents_singleton, Option.map_some, ← action_board]
    simp only [busyStep, recorded_action]
  · rfl

end Unpreempted

section Bounds

/-- The panel in which every LED is lit that the blink timers may light. -/
def shaken (p : Panel) : Panel :=
  { p with lit := fun l => p.lit l || p.blinking l }

/-- The timers that run are known, and what may be lit. -/
structure Within (bound p : Panel) : Prop where
  blinking : p.blinking = bound.blinking
  motor : p.motor = bound.motor
  lit : ∀ l, p.lit l = true → bound.lit l = true

def callBound (bound : Panel) (c : PortCall) : Panel := shaken (c.onPanel bound)

/-- A steady LED is not known to be lit. -/
def boundOf (s : DoorState) : Panel where
  lit l := decide (ledMode s l ≠ .off)
  blinking l := decide (ledMode s l = .blinking)
  motor := motorTimed s

variable {bound p q : Panel}

theorem shaken_shaken (p : Panel) : shaken (shaken p) = shaken p := by
  refine Panel.ext (funext fun l => ?_) rfl rfl
  simp [shaken]

theorem shaken_boundOf (s : DoorState) : shaken (boundOf s) = boundOf s := by
  refine Panel.ext (funext fun l => ?_) rfl rfl
  cases s <;> cases l <;> rfl

theorem within_call (c : PortCall) (h : Within bound p) :
    Within (callBound bound c) (c.onPanel p) := by
  obtain ⟨hblinking, hmotor, hlit⟩ := h
  have hshaken : ∀ l, (c.onPanel bound).lit l = true →
      (callBound bound c).lit l = true := by
    intro l hl
    simp [callBound, shaken, hl]
  refine ⟨?_, ?_, fun l hl => hshaken l ?_⟩
  · cases c <;>
      simp only [callBound, shaken, PortCall.onPanel, Panel.light, Panel.blink,
        Panel.runMotor, hblinking]
  · cases c <;>
      simp only [callBound, shaken, PortCall.onPanel, Panel.light, Panel.blink,
        Panel.runMotor, hmotor]
  · cases c with
    | ledOn m =>
        simp only [PortCall.onPanel, Panel.light] at hl ⊢
        split
        · rfl
        · rename_i hlm
          rw [if_neg hlm] at hl
          exact hlit l hl
    | ledOff m =>
        simp only [PortCall.onPanel, Panel.light] at hl ⊢
        by_cases hlm : l = m
        · rw [if_pos hlm] at hl
          cases hl
        · rw [if_neg hlm] at hl ⊢
          exact hlit l hl
    | ledTimerActivate | ledTimerDeactivate | motorTimeoutTimerActivate |
      motorTimeoutTimerDeactivate => exact hlit l hl

theorem within_interrupt {i : Interrupt} (hshaken : shaken bound = bound)
    (h : Within bound p) (hstep : panelInterrupt p i = some q) : Within bound q := by
  obtain ⟨hblinking, hmotor, hlit⟩ := h
  refine ⟨?_, ?_, ?_⟩
  · rw [← hblinking]
    exact funext fun l => (panelInterrupt_cases l hstep).1
  · rw [← hmotor]
    rw [panelInterrupt, Option.ite_none_right_eq_some] at hstep
    obtain ⟨-, hq⟩ := hstep
    obtain rfl := Option.some.inj hq
    cases i with
    | sysTick | exti15_10 => rfl
    | tim t => cases t <;> rfl
  · intro l hl
    rcases (panelInterrupt_cases l hstep).2 with ⟨-, hrunning, -⟩ | ⟨-, hsame⟩
    · rw [hblinking] at hrunning
      rw [← hshaken]
      simp [shaken, hrunning]
    · exact hlit l (hsame ▸ hl)

/-- The calls of an action take what may be seen in its origin to what may be
seen in its destination. -/
theorem foldl_callBound (cfg : DoorConfig) (row : Row) :
    (portCalls cfg row).foldl callBound (boundOf row.origin) =
      boundOf row.destination := by
  cases row <;>
    exact Panel.ext (funext fun l => by cases l <;> rfl)
      (funext fun l => by cases l <;> rfl) rfl

end Bounds

/-- The panel is within what the calls that are left make the panel of the
destination. -/
def PanelBounded (s : DoorState) (p : Panel) : Option Transition → Prop
  | none => Within (boundOf s) p
  | some ⟨row, todo⟩ =>
      s = row.origin ∧ ∃ bound, shaken bound = bound ∧ Within bound p ∧
        todo.foldl callBound bound = boundOf row.destination

/-- All that `Consistent` says but that the steady LEDs are lit. -/
structure ConsistentButSteady (cfg : DoorConfig) (d : Door) : Prop where
  blinking : ∀ l, ledTimerRunning (cfg.leds.hw l) d.board =
    decide (ledMode d.fsm.currentState l = .blinking)
  dark : ∀ l, ledMode d.fsm.currentState l = .off →
    ledLit (cfg.leds.hw l) d.board = false
  motor : (d.board.tim .TIM2).cen = motorTimed d.fsm.currentState
  presence : d.fsm.presenceOrButtonStatus = presenceReported d.fsm.currentState

structure BusyInvariant (cfg : DoorConfig) (s : BusyDoor) : Prop where
  panel : PanelBounded s.door.fsm.currentState (panelOf cfg.leds s.door.board)
    s.transition
  presence : s.door.fsm.presenceOrButtonStatus =
    presenceReported s.door.fsm.currentState

section Runs

variable {cfg : DoorConfig} {d : Door}

theorem shown_iff {mode : LedMode} {lit running : Bool} :
    mode.Shown lit running ↔ running = decide (mode = .blinking) ∧
      (mode = .off → lit = false) ∧ (mode = .on → lit = true) := by
  cases mode <;> simp [LedMode.Shown, and_comm]

theorem consistent_iff_steady_lit :
    Consistent cfg d ↔ ConsistentButSteady cfg d ∧
      ∀ l, ledMode d.fsm.currentState l = .on →
        ledLit (cfg.leds.hw l) d.board = true := by
  constructor
  · intro h
    have hleds := fun l => shown_iff.mp (h.leds l)
    exact ⟨⟨fun l => (hleds l).1, fun l => (hleds l).2.1, h.motor, h.presence⟩,
      fun l => (hleds l).2.2⟩
  · rintro ⟨h, hlit⟩
    exact ⟨fun l => shown_iff.mpr ⟨h.blinking l, h.dark l, hlit l⟩, h.motor,
      h.presence⟩

theorem within_boundOf_iff {s : DoorState} {p : Panel} :
    Within (boundOf s) p ↔ (∀ l, p.blinking l = decide (ledMode s l = .blinking)) ∧
      (∀ l, ledMode s l = .off → p.lit l = false) ∧ p.motor = motorTimed s := by
  have hdark : ∀ l, (p.lit l = true → (boundOf s).lit l = true) ↔
      (ledMode s l = .off → p.lit l = false) := by
    intro l
    simp only [boundOf, decide_eq_true_iff]
    cases p.lit l <;> simp
  constructor
  · intro h
    exact ⟨congrFun h.blinking, fun l => (hdark l).mp (h.lit l), h.motor⟩
  · rintro ⟨hblinking, hoff, hmotor⟩
    exact ⟨funext hblinking, hmotor, fun l => (hdark l).mpr (hoff l)⟩

theorem consistentButSteady_iff :
    ConsistentButSteady cfg d ↔
      Within (boundOf d.fsm.currentState) (panelOf cfg.leds d.board) ∧
        d.fsm.presenceOrButtonStatus = presenceReported d.fsm.currentState := by
  rw [within_boundOf_iff]
  exact ⟨fun h => ⟨⟨h.blinking, h.dark, h.motor⟩, h.presence⟩,
    fun h => ⟨h.1.1, h.1.2.1, h.1.2.2, h.2⟩⟩

theorem presence_recorded (row : Row) (b : Board) {f : FsmAutomaticDoor}
    (h : f.presenceOrButtonStatus = presenceReported row.origin) :
    (recorded row b f).presenceOrButtonStatus =
      presenceReported row.destination := by
  cases row <;> first | rfl | exact h

theorem currentState_recorded (row : Row) (b : Board) (f : FsmAutomaticDoor) :
    (recorded row b f).currentState = row.destination := by
  cases row <;> rfl

theorem busyStep_cases {s s' : BusyDoor} {e : BusyEvent}
    (h : busyStep cfg s e = some s') :
    (∃ row, s.transition = none ∧ s.door.fsm.currentState = row.origin ∧
      s' = ⟨s.door, some ⟨row, portCalls cfg row⟩⟩) ∨
    (∃ row c todo, s.transition = some ⟨row, c :: todo⟩ ∧
      s' = ⟨{ s.door with board := c.exec cfg.leds s.door.board },
        some ⟨row, todo⟩⟩) ∨
    (∃ row, s.transition = some ⟨row, []⟩ ∧
      s' = ⟨{ s.door with fsm := recorded row s.door.board s.door.fsm }, none⟩) ∨
    ∃ i b, interruptStep cfg.leds s.door.board i = some b ∧
      s' = ⟨{ s.door with board := b }, s.transition⟩ := by
  obtain ⟨d, transition⟩ := s
  cases e with
  | start row =>
      rcases transition with - | ⟨row', - | ⟨c, todo⟩⟩
      · simp only [busyStep, Option.ite_none_right_eq_some] at h
        exact Or.inl ⟨row, rfl, h.1, (Option.some.inj h.2).symm⟩
      · cases h
      · cases h
  | call =>
      rcases transition with - | ⟨row, - | ⟨c, todo⟩⟩
      · cases h
      · cases h
      · exact Or.inr (Or.inl ⟨row, c, todo, rfl, (Option.some.inj h).symm⟩)
  | finish =>
      rcases transition with - | ⟨row, - | ⟨c, todo⟩⟩
      · cases h
      · exact Or.inr (Or.inr (Or.inl ⟨row, rfl, (Option.some.inj h).symm⟩))
      · cases h
  | interrupt i =>
      have hstep : (interruptDoor cfg d i).map (fun d' => ⟨d', transition⟩) =
          some s' := by
        rcases transition with - | ⟨row, - | ⟨c, todo⟩⟩ <;> exact h
      obtain ⟨d', hd', rfl⟩ := Option.map_eq_some_iff.mp hstep
      obtain ⟨b, hb, rfl⟩ := interruptDoor_eq_some_iff.mp hd'
      exact Or.inr (Or.inr (Or.inr ⟨i, b, hb, rfl⟩))

theorem panelBounded_interrupt {s : DoorState} {p q : Panel} {i : Interrupt}
    {transition : Option Transition} (h : PanelBounded s p transition)
    (hstep : panelInterrupt p i = some q) : PanelBounded s q transition := by
  cases transition with
  | none => exact within_interrupt (shaken_boundOf s) h hstep
  | some transition =>
      obtain ⟨hstate, bound, hshaken, hwithin, hcalls⟩ := h
      exact ⟨hstate, bound, hshaken, within_interrupt hshaken hwithin hstep, hcalls⟩

theorem busyInvariant_step (s : BusyDoor) (e : BusyEvent) (s' : BusyDoor)
    (h : BusyInvariant cfg s) (hstep : busyStep cfg s e = some s') :
    BusyInvariant cfg s' := by
  obtain ⟨d, transition⟩ := s
  obtain ⟨hpanel, hpresence⟩ := h
  rcases busyStep_cases hstep with ⟨row, rfl, horigin, rfl⟩ |
    ⟨row, c, todo, rfl, rfl⟩ | ⟨row, rfl, rfl⟩ | ⟨i, b, hb, rfl⟩
  · refine ⟨⟨horigin, boundOf row.origin, shaken_boundOf _, ?_,
      foldl_callBound cfg row⟩, hpresence⟩
    rw [← horigin]
    exact hpanel
  · obtain ⟨horigin, bound, -, hwithin, hcalls⟩ := hpanel
    refine ⟨⟨horigin, callBound bound c, shaken_shaken _, ?_, hcalls⟩, hpresence⟩
    rw [panelOf_exec]
    exact within_call c hwithin
  · obtain ⟨horigin, bound, -, hwithin, hcalls⟩ := hpanel
    obtain rfl : bound = boundOf row.destination := hcalls
    constructor
    · show Within (boundOf (recorded row d.board d.fsm).currentState)
        (panelOf cfg.leds d.board)
      rw [currentState_recorded]
      exact hwithin
    · rw [horigin] at hpresence
      exact (presence_recorded row d.board hpresence).trans
        (congrArg presenceReported (currentState_recorded row d.board d.fsm).symm)
  · obtain ⟨henabled, hb'⟩ := interruptStep_panelOf cfg.leds d.board hb
    refine ⟨panelBounded_interrupt hpanel (i := i) ?_, hpresence⟩
    rw [hb', panelInterrupt, if_pos henabled]

/-- Between the transitions of every run, whatever interrupts have preempted
the actions, the timers, the dark LEDs and the presence flag are those of the
state of the door.  Only an LED that should be lit steadily may be dark. -/
theorem preempted_door_consistent_but_steady (cfg : DoorConfig) (d : Door)
    (s : BusyDoor) (events : List BusyEvent) (hstart : DocumentedStart cfg d)
    (hrun : runEvents (busyStep cfg) ⟨d, none⟩ events = some s)
    (hrest : s.transition = none) : ConsistentButSteady cfg s.door := by
  have hconsistent := consistent_of_documentedStart hstart
  obtain ⟨hwithin, hpresence⟩ :=
    consistentButSteady_iff.mp (consistent_iff_steady_lit.mp hconsistent).1
  obtain ⟨hpanel, hpresence'⟩ := invariant_of_runEvents' busyInvariant_step
    (⟨hwithin, hpresence⟩ : BusyInvariant cfg ⟨d, none⟩) hrun
  rw [hrest] at hpanel
  exact consistentButSteady_iff.mpr ⟨hpanel, hpresence'⟩

/-- The blink timer interrupts once between the two calls of `do_stay_open`
that light the green LED and stop its timer. -/
def lateToggleRun : List BusyEvent :=
  [.start .openDoor, .call, .call, .call, .finish, .start .stayOpen, .call,
    .interrupt (.tim .TIM3), .call, .call, .finish]

theorem preempted_door_consistent_but_steady_lateToggle :
    ∃ s, runEvents (busyStep documentedConfig) ⟨documentedDoor, none⟩
        lateToggleRun = some s ∧
      ConsistentButSteady documentedConfig s.door ∧
      ledLit (documentedLeds.hw .opening) s.door.board = false :=
  ⟨_, rfl, preempted_door_consistent_but_steady documentedConfig documentedDoor _
    lateToggleRun documentedDoor_start rfl rfl, by decide⟩

end Runs

end AutomaticDoor.PreemptedActions
