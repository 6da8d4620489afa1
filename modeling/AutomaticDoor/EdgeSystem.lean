import AutomaticDoor.ExtiRouting

/-!
The firmware on its board: edges on any pin, and the handler of the lines when
a pending one interrupts.  The handler acknowledges both lines and serves one,
and so does the entrance that the board refines.
-/

namespace AutomaticDoor.EdgeSystem

open AutomaticDoor.ActionInterleavings
open AutomaticDoor.BoardRegisters
open AutomaticDoor.ConfigurationFrames
open AutomaticDoor.DoorRefinement
open AutomaticDoor.DoorStateMachine
open AutomaticDoor.DoorSystem
open AutomaticDoor.DoorwayModel
open AutomaticDoor.ExtiLines
open AutomaticDoor.ExtiRouting
open AutomaticDoor.Foundations.EventSystems
open AutomaticDoor.Foundations.RegisterWords
open AutomaticDoor.Foundations.RowChoices
open AutomaticDoor.InterruptHandlers
open AutomaticDoor.PortLed
open AutomaticDoor.PortMotor
open AutomaticDoor.RequestPolling

inductive BoardEvent
  | edge (port : GpioPort) (pin : Pin)
  | exti15_10
  | sysTick
  | count (t : Timer)
  | fire
deriving DecidableEq

/-- A pin that shares the interrupt of the handler interrupts. -/
def exti15_10Requested (b : Board) : Bool :=
  (List.finRange 16).any fun pin =>
    decide (extiIrqn pin = .EXTI15_10) && interrupts pin b

def edgeStep (cfg : DoorConfig) (choice : RowChoice Row) (d : Door) :
    BoardEvent → Option Door
  | .edge port pin => some { d with board := edge port pin d.board }
  | .exti15_10 =>
      if exti15_10Requested d.board then
        some { d with board := exti15_10IrqHandler d.board }
      else none
  | .sysTick => systemStep cfg choice d .sysTick
  | .count t => systemStep cfg choice d (.count t)
  | .fire => systemStep cfg choice d .fire

/-- A doorway, the level of each line, and the lines that the handler has not
acknowledged. -/
structure Entrance where
  doorway : Doorway
  level : Line → Bool
  pending : Line → Bool

def lineOf (port : GpioPort) (pin : Pin) : Option Line :=
  if port = Line.button.port ∧ pin = Line.button.pin then some .button
  else if port = Line.pir.port ∧ pin = Line.pir.pin then some .pir
  else none

namespace Entrance

def change (v : Entrance) (l : Line) : Entrance :=
  { v with
    level := fun m => if m = l then !v.level m else v.level m
    pending := fun m => if m = l then true else v.pending m }

/-- The button comes first. -/
def firstPending (v : Entrance) : Option Line :=
  if v.pending .button then some .button
  else if v.pending .pir then some .pir
  else none

def handle (v : Entrance) (l : Line) : Entrance where
  doorway := v.doorway.serve ⟨l, v.level l⟩
  level := v.level
  pending _ := false

def inDoorway (v : Entrance) (w : Option Doorway) : Option Entrance :=
  w.map fun w => { v with doorway := w }

def step (timing : Timing) (choice : RowChoice Row) (v : Entrance) :
    BoardEvent → Option Entrance
  | .edge port pin => some ((lineOf port pin).elim v v.change)
  | .exti15_10 => v.firstPending.map v.handle
  | .sysTick => v.inDoorway (v.doorway.step timing choice .sysTick)
  | .count t => v.inDoorway (v.doorway.step timing choice (.count t))
  | .fire => v.inDoorway (v.doorway.step timing choice .fire)

end Entrance

section Lines

theorem lineOf_eq_some_iff {port : GpioPort} {pin : Pin} {l : Line} :
    lineOf port pin = some l ↔ port = l.port ∧ pin = l.pin := by
  rw [lineOf]
  constructor
  · intro h
    split at h
    · rename_i hbutton
      obtain rfl := Option.some.inj h
      exact hbutton
    · split at h
      · rename_i hpir
        obtain rfl := Option.some.inj h
        exact hpir
      · cases h
  · rintro ⟨rfl, rfl⟩
    cases l <;> decide

theorem lineOf_eq_none_iff {port : GpioPort} {pin : Pin} :
    lineOf port pin = none ↔ ∀ l : Line, ¬ (port = l.port ∧ pin = l.pin) := by
  rw [Option.eq_none_iff_forall_ne_some]
  simp only [ne_eq, lineOf_eq_some_iff]

end Lines

theorem firstPending_eq_some_iff {v : Entrance} {l : Line} :
    v.firstPending = some l ↔
      v.pending l = true ∧ (l = .pir → v.pending .button = false) := by
  rw [Entrance.firstPending]
  cases l <;> cases v.pending .button <;> cases v.pending .pir <;> decide

theorem firstPending_eq_none_iff {v : Entrance} :
    v.firstPending = none ↔ ∀ l, v.pending l = false := by
  rw [Option.eq_none_iff_forall_ne_some]
  constructor
  · intro h l
    by_contra hpending
    rw [Bool.not_eq_false] at hpending
    cases hbutton : v.pending .button
    · exact h l (firstPending_eq_some_iff.mpr ⟨hpending, fun _ => hbutton⟩)
    · exact h .button (firstPending_eq_some_iff.mpr ⟨hbutton, nofun⟩)
  · intro h l hl
    have hpending := (firstPending_eq_some_iff.mp hl).1
    rw [h l] at hpending
    cases hpending

section Handler

variable {l : Line} {b : Board}

theorem acknowledge_eq (l : Line) (b : Board) :
    acknowledge l b = { b with exti := { b.exti with pr := 0 } } := by
  rw [acknowledge]
  simp only [writeOneToClear_or_self]
  rfl

/-- A line at its own level changes no pin. -/
theorem presentLine_lineHigh (l : Line) (b : Board) :
    presentLine ⟨l, lineHigh l b⟩ b =
      { b with exti := { b.exti with pr := bitPosToMask l.pin } } := by
  have hidr : (if lineHigh l b then (b.gpio l.port).idr ||| bitPosToMask l.pin
      else (b.gpio l.port).idr &&& ~~~bitPosToMask l.pin) = (b.gpio l.port).idr := by
    rw [lineHigh_eq, bitPosToMask_eq_twoPow]
    split
    · rename_i hhigh
      exact or_twoPow_of_getLsbD hhigh
    · rename_i hlow
      exact and_not_twoPow_of_getLsbD (Bool.eq_false_iff.mpr hlow)
  simp only [presentLine, Board.onGpio, hidr, Function.update_eq_self]

theorem updateFlags_exti (l : Line) (high : Bool) (exti : ExtiRegs) (b : Board) :
    updateFlags l high { b with exti := exti } =
      { updateFlags l high b with exti := exti } := by
  cases l <;> cases high <;> simp only [updateFlags]
  · split <;> rfl
  · rfl
  · rfl

/-- The handler serves the first pending line as if it were alone. -/
theorem handler_eq_serve (hpending : linePending l b = true)
    (hfirst : l = .pir → linePending .button b = false) :
    exti15_10IrqHandler b = pollStep b (.serve ⟨l, lineHigh l b⟩) := by
  have hhandler : exti15_10IrqHandler b =
      acknowledge l (updateFlags l (lineHigh l b) b) := by
    cases l with
    | button =>
        rw [exti15_10IrqHandler_of_button b hpending,
          serveLine_of_pending _ _ hpending]
    | pir =>
        rw [exti15_10IrqHandler_of_not_button b (hfirst rfl),
          serveLine_of_pending _ _ hpending]
  have hserved := linePending_presentLine ⟨l, lineHigh l b⟩ b
  have halone : ∀ m, m ≠ l → linePending m (presentLine ⟨l, lineHigh l b⟩ b) = false :=
    fun m hm => (hserved m).trans (decide_eq_false hm)
  have hserve : pollStep b (.serve ⟨l, lineHigh l b⟩) = acknowledge l
      { updateFlags l (lineHigh l b) b with
        exti := { b.exti with pr := bitPosToMask l.pin } } := by
    rw [← updateFlags_exti, ← presentLine_lineHigh, pollStep,
      exti15_10IrqHandler_of_one ((hserved l).trans (decide_eq_true rfl)) halone,
      lineHigh_presentLine ⟨l, lineHigh l b⟩ b]
  rw [hhandler, hserve, acknowledge_eq, acknowledge_eq]
  simp only [(updateFlags_registers l b (lineHigh l b)).2.1]

theorem exti15_10IrqHandler_gpio (b : Board) :
    (exti15_10IrqHandler b).gpio = b.gpio := by
  have hserve : ∀ l c, (serveLine l c).gpio = c.gpio := by
    intro l c
    rw [serveLine]
    split
    · exact (updateFlags_registers l c _).1
    · rfl
  rw [exti15_10IrqHandler, hserve, hserve]

end Handler

section Edges

variable {leds : DoorLeds} {port : GpioPort} {pin : Pin} {b b' : Board}

theorem edge_gpio (port : GpioPort) (pin : Pin) (b : Board) :
    (edge port pin b).gpio =
      (b.onGpio port fun r => { r with idr := r.idr ^^^ bitPosToMask pin }).gpio := by
  rw [edge]
  split <;> rfl

/-- The level of a pin is the only register of its port that an edge
changes. -/
theorem edge_get {α : Type} (get : GpioRegs → α)
    (h : ∀ (r : GpioRegs) idr, get { r with idr := idr } = get r)
    (port : GpioPort) (pin : Pin) (q : GpioPort) (b : Board) :
    get ((edge port pin b).gpio q) = get (b.gpio q) := by
  rw [edge_gpio]
  apply onGpio_get get
  intro r
  exact h r _

/-- Of the rest of the board it changes the pending bits. -/
theorem edge_rest (port : GpioPort) (pin : Pin) (b : Board) :
    ∃ pr, edge port pin b =
      { b with
        gpio := (edge port pin b).gpio
        exti := { b.exti with pr := pr } } := by
  rw [edge_gpio, edge]
  split
  · exact ⟨_, rfl⟩
  · exact ⟨b.exti.pr, rfl⟩

theorem setupOf_edge (leds : DoorLeds) (port : GpioPort) (pin : Pin) (b : Board) :
    setupOf leds (edge port pin b) = setupOf leds b := by
  have hodr := edge_get GpioRegs.odr (by intro r idr; rfl) port pin
  have hmoder := edge_get GpioRegs.moder (by intro r idr; rfl) port pin
  have hpupdr := edge_get GpioRegs.pupdr (by intro r idr; rfl) port pin
  have hafr := edge_get GpioRegs.afr (by intro r idr; rfl) port pin
  obtain ⟨pr, hedge⟩ := edge_rest port pin b
  simp only [setupOf, hodr, hmoder, hpupdr, hafr]
  rw [hedge]

theorem getLsbD_idr_edge (port q : GpioPort) (pin i : Pin) (b : Board) :
    ((edge port pin b).gpio q).idr.getLsbD i =
      if port = q ∧ pin = i then !(b.gpio q).idr.getLsbD i
      else (b.gpio q).idr.getLsbD i := by
  rw [edge_gpio]
  by_cases hport : port = q
  · subst hport
    rw [Board.onGpio_gpio_self, bitPosToMask_eq_twoPow]
    by_cases hpin : pin = i
    · subst hpin
      rw [if_pos ⟨rfl, rfl⟩]
      exact getLsbD_xor_twoPow_self (by omega) _
    · rw [if_neg fun h => hpin h.2]
      exact getLsbD_xor_twoPow_of_ne (fun h => hpin (Fin.ext h)) _
  · rw [if_neg fun h => hport h.1, Board.onGpio_gpio_of_ne _ _ _ _ (Ne.symm hport)]

theorem lineHigh_edge (port : GpioPort) (pin : Pin) (l : Line) (b : Board) :
    lineHigh l (edge port pin b) =
      if lineOf port pin = some l then !lineHigh l b else lineHigh l b := by
  simp only [lineHigh_eq, getLsbD_idr_edge, lineOf_eq_some_iff]

theorem pr_edge (hwired : Wired b) (port : GpioPort) (pin i : Pin) :
    (edge port pin b).exti.pr.getLsbD i =
      if (lineOf port pin).isSome && decide (pin = i) then true
      else b.exti.pr.getLsbD i := by
  cases hline : lineOf port pin with
  | none =>
      rw [edge_exti_of_other hwired (lineOf_eq_none_iff.mp hline)]
      rfl
  | some l =>
      obtain ⟨rfl, rfl⟩ := lineOf_eq_some_iff.mp hline
      rw [edge_eq_pinEdge (hwired.ready l), pinEdge, bitPosToMask_eq_twoPow,
        Option.isSome_some, Bool.true_and]
      by_cases hpin : l.pin = i
      · subst hpin
        rw [if_pos (decide_eq_true rfl)]
        exact getLsbD_or_twoPow_self (by omega) _
      · rw [if_neg (by simpa using hpin)]
        exact getLsbD_or_twoPow_of_ne (fun h => hpin (Fin.ext h)) _

theorem linePending_edge (hwired : Wired b) (port : GpioPort) (pin : Pin) (l : Line) :
    linePending l (edge port pin b) =
      if lineOf port pin = some l then true else linePending l b := by
  rw [linePending_eq, linePending_eq, pr_edge hwired]
  cases hline : lineOf port pin with
  | none => rfl
  | some m =>
      obtain ⟨-, rfl⟩ := lineOf_eq_some_iff.mp hline
      cases l <;> cases m <;> rfl

/-- The handler runs exactly when a line is pending. -/
theorem exti15_10Requested_iff (hwired : Wired b)
    (hquiet : ∀ pin : Pin, (∀ l : Line, pin ≠ l.pin) →
      b.exti.pr.getLsbD pin = false) :
    exti15_10Requested b = true ↔ ∃ l, linePending l b = true := by
  rw [exti15_10Requested, List.any_eq_true]
  constructor
  · rintro ⟨pin, -, hpin⟩
    rw [interrupts, Bool.and_eq_true, Bool.and_eq_true, Bool.and_eq_true] at hpin
    obtain ⟨-, ⟨hpr, -⟩, -⟩ := hpin
    by_contra hnone
    have hother : ∀ l : Line, pin ≠ l.pin := by
      rintro l rfl
      exact hnone ⟨l, (linePending_eq l b).trans hpr⟩
    rw [hquiet pin hother] at hpr
    cases hpr
  · rintro ⟨l, hl⟩
    rw [linePending_eq] at hl
    have himr := (hwired.ready l).imr
    have hserved := (hwired.ready l).served
    have hpin : extiIrqn l.pin = .EXTI15_10 := by cases l <;> decide
    refine ⟨l.pin, List.mem_finRange _, ?_⟩
    rw [interrupts, hl, himr, hserved, decide_eq_true hpin]
    rfl

end Edges

section Watching

/-- The door is one that the entrance describes, down to the levels of its pins
and the lines that are pending. -/
structure Watches (cfg : DoorConfig) (clock : Nat) (v : Entrance) (d : Door) :
    Prop where
  doorway : Represents cfg clock v.doorway d
  level : ∀ l, lineHigh l d.board = v.level l
  pending : ∀ l, linePending l d.board = v.pending l
  quiet : ∀ pin : Pin, (∀ l : Line, pin ≠ l.pin) →
    d.board.exti.pr.getLsbD pin = false
  wired : Wired d.board

variable {cfg : DoorConfig} {clock : Nat} {choice : RowChoice Row} {w : Doorway}
  {v : Entrance} {d : Door}

/-- The firmware sees an edge only through the handler. -/
theorem represents_edge (port : GpioPort) (pin : Pin)
    (h : Represents cfg clock w d) :
    Represents cfg clock w
      { d with board := edge port pin d.board } := by
  have hodr := edge_get GpioRegs.odr (by intro r idr; rfl) port pin
  obtain ⟨pr, hedge⟩ := edge_rest port pin d.board
  refine ⟨h.state, ?_, ?_, ?_, h.presence, h.openedAt, ?_, ?_, h.safe⟩
  · have hworks := h.works
    simp only [worksOf, ledLit, hodr] at hworks ⊢
    rw [hedge]
    exact hworks
  · intro l
    rw [← h.high, hedge]
    cases l <;> rfl
  · rw [hedge]
    exact h.ticks
  · rw [setupOf_edge]
    exact h.prepared
  · intro t
    rw [hedge]
    exact h.idle t

theorem watches_edge (h : Watches cfg clock v d) (port : GpioPort) (pin : Pin) :
    Watches cfg clock ((lineOf port pin).elim v v.change)
      { d with board := edge port pin d.board } where
  doorway := by
    have hdoorway : ((lineOf port pin).elim v v.change).doorway = v.doorway := by
      cases lineOf port pin <;> rfl
    rw [hdoorway]
    exact represents_edge port pin h.doorway
  level l := by
    rw [lineHigh_edge, h.level]
    cases hline : lineOf port pin with
    | none => rfl
    | some m => cases l <;> cases m <;> rfl
  pending l := by
    rw [linePending_edge h.wired, h.pending]
    cases hline : lineOf port pin with
    | none => rfl
    | some m => cases l <;> cases m <;> rfl
  quiet i hi := by
    rw [pr_edge h.wired, h.quiet i hi, if_neg]
    rw [Bool.and_eq_true, decide_eq_true_iff, Option.isSome_iff_exists]
    rintro ⟨⟨l, hl⟩, rfl⟩
    exact hi l (lineOf_eq_some_iff.mp hl).2
  wired := wired_of_setupOf (setupOf_edge cfg.leds port pin d.board) h.wired

theorem watches_handle (h : Watches cfg clock v d) {l : Line}
    (hfirst : v.firstPending = some l) :
    Watches cfg clock (v.handle l)
      { d with board := exti15_10IrqHandler d.board } := by
  obtain ⟨hpending, hbefore⟩ : v.pending l = true ∧
      (l = .pir → v.pending .button = false) := firstPending_eq_some_iff.mp hfirst
  rw [← h.pending] at hpending
  rw [← h.pending] at hbefore
  have hserve := handler_eq_serve hpending hbefore
  have hpr : (exti15_10IrqHandler d.board).exti.pr = 0 := by
    rw [hserve]
    exact service_pr _ d.board
  refine ⟨?_, ?_, ?_, ?_, ?_⟩
  · rw [hserve, h.level]
    exact represents_serve ⟨l, v.level l⟩ h.doorway
  · intro m
    have hgpio : (exti15_10IrqHandler d.board).gpio = d.board.gpio :=
      exti15_10IrqHandler_gpio d.board
    rw [lineHigh_congr m hgpio]
    exact h.level m
  · intro m
    rw [linePending_eq, hpr]
    exact BitVec.getLsbD_zero
  · intro pin _
    rw [hpr]
    exact BitVec.getLsbD_zero
  · exact wired_of_setupOf (setupOf_exti15_10IrqHandler cfg.leds d.board) h.wired

theorem combineOdr_idr (combine : Word → Word → Word) (led : PortLedHw) (b : Board)
    (port : GpioPort) :
    ((combineOdr combine led b).gpio port).idr = (b.gpio port).idr :=
  onGpio_get GpioRegs.idr (by intro r; rfl) _ port b

theorem exec_idr (leds : DoorLeds) (b : Board) (c : PortCall) (port : GpioPort) :
    ((c.exec leds b).gpio port).idr = (b.gpio port).idr := by
  cases c with
  | ledOn l => exact combineOdr_idr _ (leds.hw l) b port
  | ledOff l =>
      exact combineOdr_idr (fun odr mask => odr &&& ~~~mask) (leds.hw l) b port
  | ledTimerActivate | ledTimerDeactivate | motorTimeoutTimerDeactivate => rfl
  | motorTimeoutTimerActivate timeoutMs =>
      exact congrArg (fun gpio => (gpio port).idr)
        (portMotorTimeoutTimerActivate_gpio motorAutomaticDoor timeoutMs b)

theorem timIrqHandler_idr (leds : DoorLeds) (port : GpioPort) (t : Timer) (b : Board) :
    ((timIrqHandler leds t b).gpio port).idr = (b.gpio port).idr := by
  cases t with
  | TIM2 =>
      rw [timIrqHandler, tim2IrqHandler]
      split <;> rfl
  | TIM3 | TIM4 => exact combineOdr_idr _ _ b port

theorem countTimer_idr {leds : DoorLeds} {t : Timer} {b b' : Board}
    (h : countTimer leds t b = some b') (port : GpioPort) :
    (b'.gpio port).idr = (b.gpio port).idr :=
  view_countTimer (fun b : Board => (b.gpio port).idr)
    (timIrqHandler_idr leds port t) (fun _ => rfl) (fun _ => rfl) h

theorem poll_idr {d' : Door} (h : poll cfg choice d = some d') (port : GpioPort) :
    (d'.board.gpio port).idr = (d.board.gpio port).idr :=
  view_poll (fun b => (b.gpio port).idr) (fun b c => exec_idr cfg.leds b c port)
    (timIrqHandler_idr cfg.leds port) h

/-- The other events leave the lines and the levels of the pins alone. -/
theorem systemStep_lines {e : SystemEvent} {d' : Door} (hserve : ∀ s, e ≠ .serve s)
    (hstep : systemStep cfg choice d e = some d') :
    d'.board.exti = d.board.exti ∧
      ∀ port, (d'.board.gpio port).idr = (d.board.gpio port).idr := by
  cases e with
  | serve s => exact absurd rfl (hserve s)
  | sysTick =>
      obtain rfl := Option.some.inj hstep
      exact ⟨rfl, fun _ => rfl⟩
  | count t =>
      obtain ⟨b, hb, rfl⟩ := Option.map_eq_some_iff.mp hstep
      exact ⟨countTimer_exti hb, countTimer_idr hb⟩
  | fire => exact ⟨poll_exti hstep, poll_idr hstep⟩

theorem watches_of_represents {e : SystemEvent} {d' : Door} {w' : Doorway}
    (h : Watches cfg clock v d) (hserve : ∀ s, e ≠ .serve s)
    (hstep : systemStep cfg choice d e = some d')
    (hdoorway : Represents cfg clock w' d') :
    Watches cfg clock { v with doorway := w' } d' := by
  obtain ⟨hexti, hidr⟩ := systemStep_lines hserve hstep
  refine ⟨hdoorway, ?_, ?_, ?_, ?_⟩
  · intro l
    rw [lineHigh_eq, hidr, ← lineHigh_eq]
    exact h.level l
  · intro l
    rw [linePending_eq, hexti, ← linePending_eq]
    exact h.pending l
  · intro pin hpin
    rw [hexti]
    exact h.quiet pin hpin
  · exact wired_of_setupOf (setupOf_systemStep d e d' hstep) h.wired

theorem watches_inDoorway {e : SystemEvent} (h : Watches cfg clock v d)
    (hserve : ∀ s, e ≠ .serve s) :
    Option.Rel (Watches cfg clock)
      (v.inDoorway (v.doorway.step (timingOf cfg clock) choice e))
      (systemStep cfg choice d e) := by
  have hrel : Option.Rel (Represents cfg clock)
      (v.doorway.step (timingOf cfg clock) choice e) (systemStep cfg choice d e) :=
    represents_step v.doorway d e h.doorway
  rw [Entrance.inDoorway]
  cases hstep : systemStep cfg choice d e with
  | none =>
      rw [hstep] at hrel
      rw [eq_none_of_rel_none hrel]
      exact .none
  | some d' =>
      rw [hstep] at hrel
      obtain ⟨w', hw', hrepresents⟩ := exists_of_rel_some hrel
      rw [hw']
      exact .some (watches_of_represents h hserve hstep hrepresents)

theorem watches_step (v : Entrance) (d : Door) (e : BoardEvent)
    (h : Watches cfg clock v d) :
    Option.Rel (Watches cfg clock) (v.step (timingOf cfg clock) choice e)
      (edgeStep cfg choice d e) := by
  cases e with
  | edge port pin => exact .some (watches_edge h port pin)
  | exti15_10 =>
      have hrequested := exti15_10Requested_iff h.wired h.quiet
      simp only [h.pending] at hrequested
      rw [Entrance.step, edgeStep]
      cases hfirst : v.firstPending with
      | none =>
          rw [if_neg]
          · exact .none
          · rw [hrequested]
            rintro ⟨l, hl⟩
            rw [firstPending_eq_none_iff.mp hfirst l] at hl
            cases hl
      | some l =>
          rw [if_pos (hrequested.mpr ⟨l, (firstPending_eq_some_iff.mp hfirst).1⟩)]
          exact .some (watches_handle h hfirst)
  | sysTick => exact watches_inDoorway h (by intro s; nofun)
  | count t => exact watches_inDoorway h (by intro s; nofun)
  | fire => exact watches_inDoorway h (by intro s; nofun)

end Watching

end AutomaticDoor.EdgeSystem
