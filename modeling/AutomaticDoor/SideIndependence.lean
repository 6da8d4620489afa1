import AutomaticDoor.EdgeSystem
import AutomaticDoor.Foundations.Commutation

/-!
The two sides of the board.  The pins of the lines, their handler and the ticks
on the one side, and the calls of the actions and the timers on the other, can
be interleaved in any way: neither side notices the other.
-/

namespace AutomaticDoor.SideIndependence

open AutomaticDoor.ActionEffects
open AutomaticDoor.ActionInterleavings
open AutomaticDoor.BoardRegisters
open AutomaticDoor.DoorSystem
open AutomaticDoor.EdgeSystem
open AutomaticDoor.ExtiRouting
open AutomaticDoor.Foundations.Commutation
open AutomaticDoor.Foundations.EventSystems
open AutomaticDoor.InterruptHandlers
open AutomaticDoor.PinConfiguration
open AutomaticDoor.PortLed
open AutomaticDoor.PortMotor
open AutomaticDoor.UpdateInterrupts

/-- What the pins, the handler of the lines and the ticks write. -/
@[ext]
structure Inputs where
  levels : GpioPort → Word
  exti : ExtiRegs
  msTicks : Word
  flagPressed : Bool
  flagReleased : Bool
  sensorStatus : Bool

def inputsOf (b : Board) : Inputs where
  levels p := (b.gpio p).idr
  exti := b.exti
  msTicks := b.msTicks
  flagPressed := b.flagPressed
  flagReleased := b.flagReleased
  sensorStatus := b.sensorStatus

def Inputs.onto (x : Inputs) (b : Board) : Board :=
  { b with
    gpio := fun p => { b.gpio p with idr := x.levels p }
    exti := x.exti
    msTicks := x.msTicks
    flagPressed := x.flagPressed
    flagReleased := x.flagReleased
    sensorStatus := x.sensorStatus }

def inputPart : Part Board Inputs where
  view := inputsOf
  put := Inputs.onto
  put_view _ := rfl
  view_put _ _ := rfl

/-- What the input side reads besides. -/
def routing (b : Board) : (Fin 4 → Word) × (Irqn → NvicLine) := (b.exticr, b.nvic)

/-- An edge on a pin, the handler of the lines and a tick; a call of an action, a
count of a timer, and the update interrupt that a call has raised. -/
inductive SideEvent
  | edge (port : GpioPort) (pin : Pin)
  | exti15_10
  | sysTick
  | call (c : PortCall)
  | count (t : Timer)
  | update (t : Timer)

def SideEvent.isInput : SideEvent → Bool
  | .edge _ _ | .exti15_10 | .sysTick => true
  | .call _ | .count _ | .update _ => false

def sideStep (leds : DoorLeds) (b : Board) : SideEvent → Option Board
  | .edge port pin => some (edge port pin b)
  | .exti15_10 =>
      if exti15_10Requested b then some (exti15_10IrqHandler b) else none
  | .sysTick => some (sysTickHandler b)
  | .call c => some (c.exec leds b)
  | .count t => countTimer leds t b
  | .update t => if updatePending t b then some (timIrqHandler leds t b) else none

section InputSide

variable {b b' : Board}

theorem inside_sysTick :
    Inside inputPart routing fun b => some (sysTickHandler b) where
  writes := by
    rintro b _ ⟨⟩
    rfl
  looks := by
    intro b b' hview _
    have hticks : b.msTicks = b'.msTicks := congrArg Inputs.msTicks hview
    have hrest : ∀ c : Board, inputPart.view (sysTickHandler c) =
        { inputPart.view c with msTicks := c.msTicks + 1 } := fun _ => rfl
    rw [Option.map_some, Option.map_some, hrest, hrest, hview, hticks]

/-- An edge changes the level of its pin and the pending bit of its number. -/
theorem inputsOf_edge (port : GpioPort) (pin : Pin) (b : Board) :
    inputsOf (edge port pin b) =
      { inputsOf b with
        levels := fun p =>
          if p = port then (b.gpio p).idr ^^^ bitPosToMask pin else (b.gpio p).idr
        exti :=
          if listens port pin b (!(b.gpio port).idr.getLsbD pin) then
            { b.exti with pr := b.exti.pr ||| bitPosToMask pin }
          else b.exti } := by
  have hlevels : ∀ p, ((edge port pin b).gpio p).idr =
      if p = port then (b.gpio p).idr ^^^ bitPosToMask pin else (b.gpio p).idr := by
    intro p
    rw [edge_gpio]
    split
    · rename_i hp
      rw [hp, Board.onGpio_gpio_self]
    · rename_i hp
      rw [Board.onGpio_gpio_of_ne _ _ _ _ hp]
  obtain ⟨pr, hedge⟩ := edge_rest port pin b
  refine Inputs.ext (funext hlevels) ?_ ?_ ?_ ?_ ?_
  · show (edge port pin b).exti = _
    rw [edge]
    split <;> rfl
  all_goals
    simp only [inputsOf]
    rw [hedge]

theorem edge_eq_onto (port : GpioPort) (pin : Pin) (b : Board) :
    edge port pin b = (inputsOf (edge port pin b)).onto b := by
  have hgpio : (edge port pin b).gpio =
      fun p => { b.gpio p with idr := ((edge port pin b).gpio p).idr } := by
    funext p
    rw [edge_gpio]
    by_cases hp : p = port
    · rw [hp, Board.onGpio_gpio_self]
    · rw [Board.onGpio_gpio_of_ne _ _ _ _ hp]
  have hrest : edge port pin b =
      { b with gpio := (edge port pin b).gpio, exti := (edge port pin b).exti } := by
    rw [edge]
    split <;> rfl
  generalize edge port pin b = c at hgpio hrest ⊢
  rw [hrest]
  exact congrArg (fun gpio => { b with gpio := gpio, exti := c.exti }) hgpio

theorem listens_congr (hexti : b.exti = b'.exti) (hexticr : b.exticr = b'.exticr)
    (port : GpioPort) (pin : Pin) (rising : Bool) :
    listens port pin b rising = listens port pin b' rising := by
  have hport : (Field.exticr pin).read b = (Field.exticr pin).read b' := by
    simp only [Field.read, hexticr]
  have htrigger : (if rising then Field.rtsr pin else Field.ftsr pin).read b =
      (if rising then Field.rtsr pin else Field.ftsr pin).read b' := by
    cases rising <;> simp only [Field.read, hexti] <;> rfl
  rw [listens, listens, hport, htrigger]

theorem inside_edge (port : GpioPort) (pin : Pin) :
    Inside inputPart routing fun b => some (edge port pin b) where
  writes := by
    rintro b _ ⟨⟩
    exact edge_eq_onto port pin b
  looks := by
    intro b b' hview hrouting
    have hlevels : ∀ p, (b.gpio p).idr = (b'.gpio p).idr := fun p =>
      congrFun (congrArg Inputs.levels hview) p
    have hexti : b.exti = b'.exti := congrArg Inputs.exti hview
    have hexticr : b.exticr = b'.exticr := congrArg Prod.fst hrouting
    have hinputs : inputsOf b = inputsOf b' := hview
    show some (inputsOf (edge port pin b)) = some (inputsOf (edge port pin b'))
    rw [inputsOf_edge, inputsOf_edge, hinputs, hexti,
      listens_congr hexti hexticr port pin]
    simp only [hlevels]

theorem serveLine_eq_onto (l : Line) (b : Board) :
    serveLine l b = (inputsOf (serveLine l b)).onto b := by
  rw [serveLine]
  split
  · cases l <;> cases lineHigh _ b <;> simp only [updateFlags]
    · rfl
    · split <;> rfl
    · rfl
    · rfl
  · rfl

theorem inputsOf_serveLine_onto (l : Line) (x : Inputs) (b b' : Board) :
    inputsOf (serveLine l (x.onto b)) = inputsOf (serveLine l (x.onto b')) := by
  have hpending : linePending l (x.onto b) = linePending l (x.onto b') := rfl
  have hhigh : lineHigh l (x.onto b) = lineHigh l (x.onto b') := by cases l <;> rfl
  have hpressed : ∀ c, (x.onto c).flagPressed = x.flagPressed := fun _ => rfl
  rw [serveLine, serveLine, hpending, hhigh]
  split
  · cases l <;> cases lineHigh _ (x.onto b') <;> simp only [updateFlags, hpressed]
    · rfl
    · split <;> rfl
    · rfl
    · rfl
  · rfl

theorem inputsOf_serveLine_congr (h : inputsOf b = inputsOf b') (l : Line) :
    inputsOf (serveLine l b) = inputsOf (serveLine l b') := by
  have honto := inputsOf_serveLine_onto l (inputsOf b) b b'
  rw [h] at honto
  have hb : (inputsOf b').onto b = b := by
    rw [← h]
    rfl
  rw [hb] at honto
  exact honto

theorem exti15_10IrqHandler_eq_onto (b : Board) :
    exti15_10IrqHandler b = (inputsOf (exti15_10IrqHandler b)).onto b := by
  have hbutton := serveLine_eq_onto .button b
  have hpir := serveLine_eq_onto .pir (serveLine .button b)
  rw [exti15_10IrqHandler]
  refine hpir.trans ?_
  rw [hbutton]
  rfl

theorem exti15_10Requested_congr (hexti : b.exti = b'.exti) (hnvic : b.nvic = b'.nvic) :
    exti15_10Requested b = exti15_10Requested b' := by
  have himr : ∀ pin, (Field.imr pin).read b = (Field.imr pin).read b' := by
    intro pin
    simp only [Field.read, hexti]
  simp only [exti15_10Requested, interrupts, himr, hexti, hnvic]

theorem inside_exti15_10 :
    Inside inputPart routing fun b =>
      if exti15_10Requested b then some (exti15_10IrqHandler b) else none where
  writes := by
    intro b t h
    rw [Option.ite_none_right_eq_some] at h
    obtain rfl := Option.some.inj h.2
    exact exti15_10IrqHandler_eq_onto b
  looks := by
    intro b b' hview hrouting
    have hexti : b.exti = b'.exti := congrArg Inputs.exti hview
    have hnvic : b.nvic = b'.nvic := congrArg Prod.snd hrouting
    have hbutton := inputsOf_serveLine_congr hview .button
    have hpir : inputsOf (exti15_10IrqHandler b) = inputsOf (exti15_10IrqHandler b') :=
      inputsOf_serveLine_congr hbutton .pir
    rw [exti15_10Requested_congr hexti hnvic]
    split
    · exact congrArg some hpir
    · rfl

end InputSide

section OutputSide

theorem onto_onGpio (x : Inputs) (p : GpioPort) {f : GpioRegs → GpioRegs}
    (h : ∀ (r : GpioRegs) idr, f { r with idr := idr } = { f r with idr := idr })
    (b : Board) : (x.onto b).onGpio p f = x.onto (b.onGpio p f) := by
  have hgpio : ((x.onto b).onGpio p f).gpio =
      fun q => { (b.onGpio p f).gpio q with idr := x.levels q } := by
    funext q
    by_cases hq : q = p
    · subst hq
      rw [Board.onGpio_gpio_self, Board.onGpio_gpio_self]
      exact h _ _
    · rw [Board.onGpio_gpio_of_ne _ _ _ _ hq, Board.onGpio_gpio_of_ne _ _ _ _ hq]
      rfl
  exact congrArg (fun gpio => { x.onto b with gpio := gpio }) hgpio

theorem onto_combineOdr (x : Inputs) (combine : Word → Word → Word) (led : PortLedHw)
    (b : Board) :
    combineOdr combine led (x.onto b) = x.onto (combineOdr combine led b) :=
  onto_onGpio x led.pPort (by intro r idr; rfl) b

theorem onto_onTim (x : Inputs) (t : Timer) (f : TimRegs → TimRegs) (b : Board) :
    (x.onto b).onTim t f = x.onto (b.onTim t f) := rfl

theorem onto_setTimeoutStatus (x : Inputs) (timeout : Bool) (b : Board) :
    portMotorSetTimeoutStatus motorAutomaticDoor timeout (x.onto b) =
      x.onto (portMotorSetTimeoutStatus motorAutomaticDoor timeout b) := by
  cases timeout <;> rfl

theorem onto_systemCoreClock (x : Inputs) (b : Board) :
    (x.onto b).systemCoreClock = b.systemCoreClock := rfl

theorem outside_exec (leds : DoorLeds) (c : PortCall) :
    Outside inputPart routing fun b => some (c.exec leds b) where
  blind := by
    intro x b
    show some _ = some _
    apply congrArg some
    cases c with
    | ledOn l => exact onto_combineOdr x _ (leds.hw l) b
    | ledOff l =>
        exact onto_combineOdr x (fun odr mask => odr &&& ~~~mask) (leds.hw l) b
    | ledTimerActivate | ledTimerDeactivate | motorTimeoutTimerDeactivate => rfl
    | motorTimeoutTimerActivate timeoutMs =>
        show portMotorTimeoutTimerActivate motorAutomaticDoor timeoutMs (x.onto b) =
          x.onto (portMotorTimeoutTimerActivate motorAutomaticDoor timeoutMs b)
        simp only [portMotorTimeoutTimerActivate, onto_onTim, onto_setTimeoutStatus,
          onto_systemCoreClock]
  keeps := by
    rintro b _ ⟨⟩
    obtain ⟨-, hexticr, hnvic, -⟩ := exec_registers leds b c
    exact Prod.ext hexticr hnvic

theorem onto_timIrqHandler (leds : DoorLeds) (t : Timer) (x : Inputs) (b : Board) :
    timIrqHandler leds t (x.onto b) = x.onto (timIrqHandler leds t b) := by
  have htoggle : ∀ l, portLedToggle (leds.hw l) (x.onto b) =
      x.onto (portLedToggle (leds.hw l) b) := fun l =>
    onto_combineOdr x (fun odr mask => odr ^^^ mask) (leds.hw l) b
  cases t with
  | TIM2 =>
      have hflag : ((x.onto b).tim .TIM2).uif = (b.tim .TIM2).uif := rfl
      rw [timIrqHandler, tim2IrqHandler, tim2IrqHandler, hflag]
      split
      · rw [onto_setTimeoutStatus]
        rfl
      · rfl
  | TIM3 =>
      rw [timIrqHandler, tim3IrqHandler, htoggle]
      rfl
  | TIM4 =>
      rw [timIrqHandler, tim4IrqHandler, htoggle]
      rfl

theorem routing_timIrqHandler (leds : DoorLeds) (t : Timer) (b : Board) :
    routing (timIrqHandler leds t b) = routing b := by
  cases t with
  | TIM2 =>
      rw [timIrqHandler, tim2IrqHandler]
      split <;> rfl
  | TIM3 | TIM4 => rfl

theorem onto_serveUpdate (leds : DoorLeds) (t : Timer) (x : Inputs) (b : Board) :
    serveUpdate leds t (x.onto b) = x.onto (serveUpdate leds t b) := by
  have hpending : updatePending t (x.onto b) = updatePending t b := rfl
  rw [serveUpdate, serveUpdate, hpending]
  split
  · exact onto_timIrqHandler leds t x b
  · rfl

theorem outside_count (leds : DoorLeds) (t : Timer) :
    Outside inputPart routing (countTimer leds t) where
  blind := by
    intro x b
    have htim : (x.onto b).tim = b.tim := rfl
    show countTimer leds t (x.onto b) = (countTimer leds t b).map x.onto
    simp only [countTimer, htim, onto_onTim, onto_serveUpdate]
    split
    · split <;> rfl
    · rfl
  keeps _ _ h :=
    view_countTimer routing (routing_timIrqHandler leds t) (fun _ => rfl)
      (fun _ => rfl) h

theorem outside_update (leds : DoorLeds) (t : Timer) :
    Outside inputPart routing fun b =>
      if updatePending t b then some (timIrqHandler leds t b) else none where
  blind := by
    intro x b
    have hpending : updatePending t (x.onto b) = updatePending t b := rfl
    show (if updatePending t (x.onto b) then some (timIrqHandler leds t (x.onto b))
      else none) = (if updatePending t b then some (timIrqHandler leds t b)
        else none).map x.onto
    rw [hpending, onto_timIrqHandler]
    split <;> rfl
  keeps b b' h := by
    rw [Option.ite_none_right_eq_some] at h
    obtain rfl := Option.some.inj h.2
    exact routing_timIrqHandler leds t b

end OutputSide

section Runs

variable (leds : DoorLeds)

theorem inside_input {e : SideEvent} (h : e.isInput = true) :
    Inside inputPart routing fun b => sideStep leds b e := by
  cases e with
  | edge port pin => exact inside_edge port pin
  | exti15_10 => exact inside_exti15_10
  | sysTick => exact inside_sysTick
  | call c => contradiction
  | count t => contradiction
  | update t => contradiction

theorem outside_output {e : SideEvent} (h : e.isInput = false) :
    Outside inputPart routing fun b => sideStep leds b e := by
  cases e with
  | edge port pin => contradiction
  | exti15_10 => contradiction
  | sysTick => contradiction
  | call c => exact outside_exec leds c
  | count t => exact outside_count leds t
  | update t => exact outside_update leds t

theorem commutes_sides {e f : SideEvent} (he : e.isInput = true)
    (hf : f.isInput = false) : Commutes (sideStep leds) e f := by
  intro b
  have hcomm := (inside_input leds he).bind_comm (outside_output leds hf) b
  have hpair : ∀ e f, runEvents (sideStep leds) b [e, f] =
      (sideStep leds b e).bind fun next => sideStep leds next f := by
    intro e f
    rw [runEvents_cons]
    exact congrArg _ (funext fun next => runEvents_singleton next f)
  rw [hpair, hpair, hcomm]

/-- Every interleaving of the two sides is the run of the one and then of the
other, in either order. -/
theorem sides_independent (b : Board) (events : List SideEvent) :
    let inputs := events.filter SideEvent.isInput
    let outputs := events.filter fun e => !e.isInput
    runEvents (sideStep leds) b events =
        runEvents (sideStep leds) b (inputs ++ outputs) ∧
      runEvents (sideStep leds) b events =
        runEvents (sideStep leds) b (outputs ++ inputs) := by
  intro inputs outputs
  refine ⟨runEvents_filter_append _ (fun _ _ => commutes_sides leds) b events, ?_⟩
  have hlast : ∀ e f : SideEvent, (!e.isInput) = true → (!f.isInput) = false →
      Commutes (sideStep leds) e f := by
    intro e f he hf
    rw [Bool.not_eq_true'] at he
    rw [Bool.not_eq_false'] at hf
    exact (commutes_sides leds hf he).symm
  simpa only [Bool.not_not] using
    runEvents_filter_append (fun e => !e.isInput) hlast b events

end Runs

end AutomaticDoor.SideIndependence
