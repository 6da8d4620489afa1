import AutomaticDoor.PeripheralSetup

/-!
Which edges reach `EXTI15_10_IRQHandler`.  An edge on a pin sets the pending
bit of its number where the line of that number listens to the port and to the
direction of the edge.
-/

namespace AutomaticDoor.ExtiRouting

open AutomaticDoor.ActionEffects
open AutomaticDoor.BoardRegisters
open AutomaticDoor.ConfigurationFrames
open AutomaticDoor.DoorStateMachine
open AutomaticDoor.DoorSystem
open AutomaticDoor.ExtiLines
open AutomaticDoor.Foundations.CallReplays
open AutomaticDoor.Foundations.EventSystems
open AutomaticDoor.Foundations.PackedFields
open AutomaticDoor.Foundations.RegisterWords
open AutomaticDoor.Foundations.RowChoices
open AutomaticDoor.GuardedFiring
open AutomaticDoor.InterruptEnabling
open AutomaticDoor.InterruptHandlers
open AutomaticDoor.PeripheralSetup
open AutomaticDoor.PinConfiguration
open AutomaticDoor.PortInputs
open AutomaticDoor.PortLed
open AutomaticDoor.RequestPolling

section Hardware

variable (port : GpioPort) (pin : Pin) (b : Board)

def listens (rising : Bool) : Bool :=
  decide ((Field.exticr pin).read b = exticrCode port) &&
    decide ((if rising then Field.rtsr pin else Field.ftsr pin).read b = 1)

/-- The level of a pin changes.  That of an LED's pin follows its output, and its
change is an edge like any other. -/
def edge : Board :=
  let rising := !(b.gpio port).idr.getLsbD pin
  let changed := b.onGpio port fun r => { r with idr := r.idr ^^^ bitPosToMask pin }
  if listens port pin b rising then
    { changed with exti := { b.exti with pr := b.exti.pr ||| bitPosToMask pin } }
  else changed

/-- A pending bit that reaches the processor. -/
def interrupts : Bool :=
  b.exti.pr.getLsbD pin && decide ((Field.imr pin).read b = 1) &&
    (b.nvic (extiIrqn pin)).enabled

end Hardware

section Lines

variable {l : Line} {b : Board}

/-- On a line that is ready, an edge in either direction is what the handler
expects of it. -/
theorem edge_eq_pinEdge (h : LineReady l b) : edge l.port l.pin b = pinEdge l b := by
  have hlistens : ∀ rising, listens l.port l.pin b rising = true := by
    intro rising
    have htrigger : (if rising then Field.rtsr l.pin else Field.ftsr l.pin).read b =
        1 := by
      cases rising
      · exact h.ftsr
      · exact h.rtsr
    rw [listens, h.exticr, htrigger]
    simp
  rw [edge, if_pos (hlistens _)]
  rfl

end Lines

section Started

variable {leds : DoorLeds} {b b' : Board} {calls : List InitCall} {pin : Pin}

/-- The fields are part of the configuration. -/
theorem read_of_setupOf (h : setupOf leds b' = setupOf leds b) (f : Field) :
    f.read b' = f.read b := by
  cases f with
  | moder port pin =>
      exact congrArg (fieldAt 2 pin) (congrFun (congrArg Setup.moder h) port)
  | pupdr port pin =>
      exact congrArg (fieldAt 2 pin) (congrFun (congrArg Setup.pupdr h) port)
  | afr port pin =>
      have hafr := congrFun (congrFun (congrArg Setup.afr h) port) (afrIndex pin)
      exact congrArg (fieldAt 4 (pin % 8)) hafr
  | exticr pin =>
      have hexticr := congrFun (congrArg Setup.exticr h) (exticrIndex pin)
      exact congrArg (fieldAt 4 (pin % 4)) hexticr
  | rtsr pin => exact congrArg (fieldAt 1 pin) (congrArg Setup.rtsr h)
  | ftsr pin => exact congrArg (fieldAt 1 pin) (congrArg Setup.ftsr h)
  | emr pin => exact congrArg (fieldAt 1 pin) (congrArg Setup.emr h)
  | imr pin => exact congrArg (fieldAt 1 pin) (congrArg Setup.imr h)

theorem lineReady_of_setupOf {l : Line} (h : setupOf leds b' = setupOf leds b)
    (hready : LineReady l b) : LineReady l b' := by
  have hread := read_of_setupOf h
  obtain ⟨h₁, h₂, h₃, h₄, h₅, hserved⟩ := hready
  refine ⟨(hread _).trans h₁, (hread _).trans h₂, (hread _).trans h₃,
    (hread _).trans h₄, (hread _).trans h₅, ?_⟩
  have hnvic := congrFun (congrArg Setup.nvic h) (extiIrqn l.pin)
  exact (congrArg NvicLine.enabled hnvic).trans hserved

/-- The lines are ready, and the other pin numbers have no trigger. -/
structure Wired (b : Board) : Prop where
  ready : ∀ l, LineReady l b
  silent : ∀ pin : Pin, (∀ l : Line, pin ≠ l.pin) →
    (Field.rtsr pin).read b = 0 ∧ (Field.ftsr pin).read b = 0

theorem wired_of_setupOf (h : setupOf leds b' = setupOf leds b) (hwired : Wired b) :
    Wired b' := by
  have hread := read_of_setupOf h
  refine ⟨fun l => lineReady_of_setupOf h (hwired.ready l), ?_⟩
  intro pin hpin
  obtain ⟨hrtsr, hftsr⟩ := hwired.silent pin hpin
  exact ⟨(hread _).trans hrtsr, (hread _).trans hftsr⟩

/-- The triggers of a pin number that no initialization configures stay as they
are. -/
theorem applyInits_trigger_of_ne (hpin : ∀ l : Line, pin ≠ l.pin) {f : Field}
    (hf : f = .rtsr pin ∨ f = .ftsr pin) (b : Board) :
    f.read (applyInits leds b calls) = f.read b := by
  apply view_foldl_of_unchanged fun b => f.read b
  intro b c
  have hbutton : pin ≠ buttonEmergency.pin := hpin .button
  have hpir : pin ≠ pirSensorAutomaticDoor.pin := hpin .pir
  have hnone : initWrite leds f c = none := by
    rcases hf with rfl | rfl <;> cases c <;>
      simp [initWrite, initConfig, lineConfig, inputConfig, bothEdges, outputConfig,
        ConfigCall.write, Line.pin, hbutton, hpir]
  rw [applyInit_read, hnone]
  rfl

theorem startedDoor_wired (cfg : DoorConfig) (hpre : Fin 16)
    (hall : InitializesAll calls) (lastTime : Word) :
    Wired (startedDoor cfg hpre calls lastTime).board := by
  refine ⟨startedDoor_lineReady cfg hpre hall lastTime, ?_⟩
  intro pin hpin
  have hzero : ∀ f : Field, f = .rtsr pin ∨ f = .ftsr pin →
      f.read (startedDoor cfg hpre calls lastTime).board = 0 := by
    intro f hf
    rw [startedDoor_read, applyInits_trigger_of_ne hpin hf]
    rcases hf with rfl | rfl <;> exact fieldAt_zero 1 pin
  exact ⟨hzero _ (Or.inl rfl), hzero _ (Or.inr rfl)⟩

theorem exticrCode_ne {p q : GpioPort} (h : p ≠ q) :
    exticrCode p ≠ exticrCode q := by
  cases p <;> cases q <;> first | exact absurd rfl h | decide

/-- The line of a pin number listens to at most one port. -/
theorem listens_of_other_pin {port : GpioPort} (rising : Bool) (hwired : Wired b)
    (hother : ∀ l : Line, ¬ (port = l.port ∧ pin = l.pin)) :
    listens port pin b rising = false := by
  rw [listens, Bool.and_eq_false_iff, decide_eq_false_iff_not,
    decide_eq_false_iff_not]
  by_cases hpin : ∃ l : Line, pin = l.pin
  · obtain ⟨l, rfl⟩ := hpin
    left
    rw [(hwired.ready l).exticr]
    exact exticrCode_ne fun h => hother l ⟨h.symm, rfl⟩
  · rw [not_exists] at hpin
    obtain ⟨hrtsr, hftsr⟩ := hwired.silent pin hpin
    right
    cases rising
    · rw [if_neg (by decide), hftsr]
      decide
    · rw [if_pos rfl, hrtsr]
      decide

theorem edge_exti_of_other {port : GpioPort} (hwired : Wired b)
    (hother : ∀ l : Line, ¬ (port = l.port ∧ pin = l.pin)) :
    (edge port pin b).exti = b.exti := by
  rw [edge, listens_of_other_pin _ hwired hother]
  rfl

theorem serveLine_pr (l : Line) (b : Board) :
    (serveLine l b).exti.pr = if linePending l b then 0 else b.exti.pr := by
  rw [serveLine]
  split
  · exact acknowledge_pr l _
  · rfl

theorem service_pr (s : Service) (b : Board) :
    (pollStep b (.serve s)).exti.pr = 0 := by
  have hpending := linePending_presentLine s b
  rw [pollStep, exti15_10IrqHandler, serveLine_pr]
  split
  · rfl
  · rename_i hpir
    -- a PIR line that is not pending, or has been acknowledged with the button
    rw [serveLine_pr]
    split
    · rfl
    · rename_i hbutton
      rw [serveLine, if_neg hbutton, hpending] at hpir
      rw [hpending] at hbutton
      obtain ⟨l, high⟩ := s
      cases l
      · exact absurd rfl hbutton
      · exact absurd rfl hpir

theorem timIrqHandler_exti (leds : DoorLeds) (t : Timer) (b : Board) :
    (timIrqHandler leds t b).exti = b.exti := by
  cases t with
  | TIM2 =>
      rw [timIrqHandler, tim2IrqHandler]
      split <;> rfl
  | TIM3 | TIM4 => rfl

theorem countTimer_exti {t : Timer} (h : countTimer leds t b = some b') :
    b'.exti = b.exti :=
  view_countTimer Board.exti (timIrqHandler_exti leds t) (fun _ => rfl)
    (fun _ => rfl) h

theorem poll_exti {cfg : DoorConfig} {choice : RowChoice Row} {d d' : Door}
    (h : poll cfg choice d = some d') : d'.board.exti = d.board.exti :=
  view_poll Board.exti (fun b c => (exec_registers cfg.leds b c).1)
    (timIrqHandler_exti cfg.leds) h

theorem applyInits_pr (leds : DoorLeds) (calls : List InitCall) (b : Board) :
    (applyInits leds b calls).exti.pr = b.exti.pr := by
  refine view_foldl_of_unchanged (fun b : Board => b.exti.pr) ?_ _ _
  intro b c
  cases c with
  | button | pirSensor => rfl
  | led l =>
      rw [applyInit, portLedInit, portLedTimerSetup_eq]
      rfl
  | motor =>
      rw [applyInit, portMotorInit_eq]
      rfl

end Started

end AutomaticDoor.ExtiRouting
