import AutomaticDoor.PortSystem
import AutomaticDoor.TimerSetting

/-!
The functions of `port_led.c`, and the two LEDs of the door.
-/

namespace AutomaticDoor.PortLed

open AutomaticDoor.BoardRegisters
open AutomaticDoor.Foundations.RegisterWords
open AutomaticDoor.PortSystem
open AutomaticDoor.TimerSetting

structure PortLedHw where
  pPort : GpioPort
  pin : Pin
  pTimer : Timer
  timerBlinkSemiPeriodMs : Word
deriving DecidableEq

def portLedGetStatus (led : PortLedHw) (b : Board) : Bool :=
  decide ((b.gpio led.pPort).idr &&& bitPosToMask led.pin ≠ 0)

/-- Combine the output register of the LED's port with the mask of its pin. -/
def combineOdr (combine : Word → Word → Word) (led : PortLedHw) :
    Board → Board :=
  Board.onGpio led.pPort fun r =>
    { r with odr := combine r.odr (bitPosToMask led.pin) }

def portLedOn : PortLedHw → Board → Board :=
  combineOdr fun odr mask => odr ||| mask

def portLedOff : PortLedHw → Board → Board :=
  combineOdr fun odr mask => odr &&& ~~~mask

def portLedToggle : PortLedHw → Board → Board :=
  combineOdr fun odr mask => odr ^^^ mask

/-- `RCC->APB1ENR |= RCC_APB1ENR_TIMxEN` -/
def enableTimClock (t : Timer) (b : Board) : Board :=
  { b with rcc :=
      { b.rcc with apb1Tim := Function.update b.rcc.apb1Tim t true } }

def portLedTimerSetup (led : PortLedHw) (b : Board) : Board :=
  let b := if led.pTimer = .TIM3 then enableTimClock .TIM3 b
    else if led.pTimer = .TIM4 then enableTimClock .TIM4 b else b
  let clock := b.systemCoreClock.toNat
  let ms := led.timerBlinkSemiPeriodMs.toNat
  let b := b.onTim led.pTimer fun r =>
    { r with
      cen := false
      arpe := true
      cnt := 0
      arr := loadedArr clock ms
      psc := loadedPsc clock ms
      uif := false
      uie := true }
  if led.pTimer = .TIM3 then
    nvicEnableIrq (.TIM .TIM3) (nvicSetPriority (.TIM .TIM3) 2 0 b)
  else if led.pTimer = .TIM4 then
    nvicEnableIrq (.TIM .TIM4) (nvicSetPriority (.TIM .TIM4) 2 0 b)
  else b

/-- Enables the counter, then forces an update event that loads the preloaded
`PSC` and `ARR`. -/
def portLedTimerActivate (led : PortLedHw) : Board → Board :=
  Board.onTim led.pTimer fun r => { r with cen := true }.updateGeneration

def portLedTimerDeactivate (led : PortLedHw) : Board → Board :=
  Board.onTim led.pTimer fun r => { r with cen := false }

/-- With `GPIO_MODE_OUT` and `GPIO_PUPDR_NOPULL`. -/
def portLedInit (led : PortLedHw) (b : Board) : Board :=
  portLedTimerSetup led (portSystemGpioConfig led.pPort led.pin 0x01 0x00 b)

theorem portLedGetStatus_eq (led : PortLedHw) (b : Board) :
    portLedGetStatus led b = (b.gpio led.pPort).idr.getLsbD led.pin :=
  decide_and_bitPosToMask _ _

theorem combineOdr_odr (combine : Word → Word → Word) (led : PortLedHw)
    (b : Board) :
    ((combineOdr combine led b).gpio led.pPort).odr =
      combine (b.gpio led.pPort).odr (BitVec.twoPow 32 led.pin) := by
  rw [combineOdr, Board.onGpio_gpio_self, bitPosToMask_eq_twoPow]

theorem combineOdr_odr_of_ne (combine : Word → Word → Word) (led : PortLedHw)
    {port : GpioPort} (h : port ≠ led.pPort) (b : Board) :
    ((combineOdr combine led b).gpio port).odr = (b.gpio port).odr := by
  rw [combineOdr, Board.onGpio_gpio_of_ne _ _ _ _ h]

def ledLit (led : PortLedHw) (b : Board) : Bool :=
  (b.gpio led.pPort).odr.getLsbD led.pin

def ledTimerRunning (led : PortLedHw) (b : Board) : Bool :=
  (b.tim led.pTimer).cen

/-- The two LEDs of the door, `led_opening` and `led_closing`. -/
inductive DoorLed
  | opening
  | closing
deriving DecidableEq

def DoorLed.timer : DoorLed → Timer
  | .opening => .TIM3
  | .closing => .TIM4

/-- The wiring of the LEDs.  The header leaves the pins to be filled in; the
documentation gives each LED a pin of its own, and its own timer. -/
structure DoorLeds where
  hw : DoorLed → PortLedHw
  pTimer_eq : ∀ l, (hw l).pTimer = l.timer
  distinct : (hw .opening).pPort = (hw .closing).pPort →
    (hw .opening).pin ≠ (hw .closing).pin

/-- The wiring in the tables of the documentation. -/
def documentedLeds : DoorLeds where
  hw
    | .opening => ⟨.GPIOB, ⟨3, by omega⟩, .TIM3, 500⟩
    | .closing => ⟨.GPIOB, ⟨4, by omega⟩, .TIM4, 100⟩
  pTimer_eq l := by cases l <;> rfl
  distinct := by decide

namespace DoorLeds

variable (leds : DoorLeds) (l m : DoorLed) (b : Board)

theorem hw_distinct {l m : DoorLed} (h : l ≠ m) :
    (leds.hw l).pPort = (leds.hw m).pPort → (leds.hw l).pin ≠ (leds.hw m).pin := by
  cases l <;> cases m
  · exact absurd rfl h
  · exact leds.distinct
  · exact fun hport hpin => leds.distinct hport.symm hpin.symm
  · exact absurd rfl h

theorem pTimer_ne {l m : DoorLed} (h : m ≠ l) :
    (leds.hw m).pTimer ≠ (leds.hw l).pTimer := by
  rw [leds.pTimer_eq, leds.pTimer_eq]
  cases l <;> cases m <;> simp_all [DoorLed.timer]

/-- An operation on an LED's output that acts on the bit of its pin by `g` and
keeps the other bits does so to the LEDs. -/
theorem ledLit_combineOdr {combine : Word → Word → Word} {g : Bool → Bool}
    (hself : ∀ (i : Nat) (x : Word), i < 32 →
      (combine x (BitVec.twoPow 32 i)).getLsbD i = g (x.getLsbD i))
    (hlocal : ∀ (i j : Nat) (x : Word), i ≠ j →
      (combine x (BitVec.twoPow 32 i)).getLsbD j = x.getLsbD j) :
    ledLit (leds.hw m) (combineOdr combine (leds.hw l) b) =
      if m = l then g (ledLit (leds.hw m) b) else ledLit (leds.hw m) b := by
  split
  · subst m
    rw [ledLit, ledLit, combineOdr_odr]
    exact hself _ _ (by omega)
  · rename_i h
    by_cases hport : (leds.hw l).pPort = (leds.hw m).pPort
    · have hpin : ((leds.hw l).pin : Nat) ≠ (leds.hw m).pin := by
        intro heq
        exact leds.hw_distinct (Ne.symm h) hport (Fin.ext heq)
      rw [ledLit, ledLit, ← hport, combineOdr_odr]
      exact hlocal _ _ _ hpin
    · rw [ledLit, ledLit, combineOdr_odr_of_ne _ _ (Ne.symm hport)]

theorem ledLit_portLedOn :
    ledLit (leds.hw m) (portLedOn (leds.hw l) b) =
      if m = l then true else ledLit (leds.hw m) b :=
  leds.ledLit_combineOdr l m b (g := fun _ => true)
    (fun _ x hi => getLsbD_or_twoPow_self hi x)
    (fun _ _ x hij => getLsbD_or_twoPow_of_ne hij x)

theorem ledLit_portLedOff :
    ledLit (leds.hw m) (portLedOff (leds.hw l) b) =
      if m = l then false else ledLit (leds.hw m) b :=
  leds.ledLit_combineOdr l m b (g := fun _ => false)
    (fun _ x hi => getLsbD_and_not_twoPow_self hi x)
    (fun _ _ x hij => getLsbD_and_not_twoPow_of_ne hij x)

theorem ledLit_portLedToggle :
    ledLit (leds.hw m) (portLedToggle (leds.hw l) b) =
      if m = l then !ledLit (leds.hw m) b else ledLit (leds.hw m) b :=
  leds.ledLit_combineOdr l m b (g := fun lit => !lit)
    (fun _ x hi => getLsbD_xor_twoPow_self hi x)
    (fun _ _ x hij => getLsbD_xor_twoPow_of_ne hij x)

theorem ledTimerRunning_onTim {f : TimRegs → TimRegs} {running : Bool}
    (hf : ∀ r, (f r).cen = running) :
    ledTimerRunning (leds.hw m) (b.onTim (leds.hw l).pTimer f) =
      if m = l then running else ledTimerRunning (leds.hw m) b := by
  split
  · subst m
    rw [ledTimerRunning, Board.onTim_tim_self, hf]
  · rename_i h
    exact congrArg TimRegs.cen
      (Board.onTim_tim_of_ne _ _ _ _ (leds.pTimer_ne h))

theorem ledTimerRunning_portLedTimerActivate :
    ledTimerRunning (leds.hw m) (portLedTimerActivate (leds.hw l) b) =
      if m = l then true else ledTimerRunning (leds.hw m) b :=
  leds.ledTimerRunning_onTim l m b fun _ => rfl

theorem ledTimerRunning_portLedTimerDeactivate :
    ledTimerRunning (leds.hw m) (portLedTimerDeactivate (leds.hw l) b) =
      if m = l then false else ledTimerRunning (leds.hw m) b :=
  leds.ledTimerRunning_onTim l m b fun _ => rfl

end DoorLeds

end AutomaticDoor.PortLed
