import AutomaticDoor.DoorConsistency
import AutomaticDoor.DoorSystem
import AutomaticDoor.Foundations.SquareWaves

/-!
What the firmware is for, without its registers: a door that counts the time
since its last transition, and LEDs that are square waves while they blink.
-/

namespace AutomaticDoor.DoorwayModel

open AutomaticDoor.DoorConsistency
open AutomaticDoor.DoorStateMachine
open AutomaticDoor.DoorSystem
open AutomaticDoor.Foundations.RowChoices
open AutomaticDoor.Foundations.SquareWaves
open AutomaticDoor.GuardedFiring
open AutomaticDoor.InterruptHandlers
open AutomaticDoor.PortLed
open AutomaticDoor.RequestPolling

/-- The counts after which the motor timer expires in a state, the cycles of
the clock that one of them lasts, and the counts after which an LED is
toggled. -/
structure Timing where
  stateCounts : DoorState → Nat
  stateCycles : DoorState → Nat
  blinkCounts : DoorLed → Nat

/-- The cycles for which the motor timer runs in a state. -/
def Timing.period (timing : Timing) (s : DoorState) : Nat :=
  timing.stateCounts s * timing.stateCycles s

/-- The counts of the motor timer since the last transition, those of each
blink timer since it was started, the level last served on each line, the time
in ticks, and the time of the last opening. -/
structure Doorway where
  state : DoorState
  elapsed : Nat
  blinked : DoorLed → Nat
  high : Line → Bool
  ticks : Nat
  openedAt : Nat

namespace Doorway

section Views

variable (timing : Timing) (w : Doorway)

def requested : Bool :=
  requests .pir (w.high .pir) || requests .button (w.high .button)

def expired : Bool := decide (timing.stateCounts w.state ≤ w.elapsed)

def blinking (l : DoorLed) : Bool := decide (ledMode w.state l = .blinking)

/-- An LED that starts to blink is lit at once. -/
def lit (l : DoorLed) : Bool :=
  match ledMode w.state l with
  | .off => false
  | .on => true
  | .blinking => !squareWave (timing.blinkCounts l) (w.blinked l)

end Views

def serve (s : Service) (w : Doorway) : Doorway :=
  { w with high := fun l => if l = s.line then s.high else w.high l }

def countMotor (w : Doorway) : Option Doorway :=
  if motorTimed w.state then some { w with elapsed := w.elapsed + 1 } else none

def countedBlink (l : DoorLed) (w : Doorway) : Doorway :=
  { w with blinked := fun m => if m = l then w.blinked m + 1 else w.blinked m }

def countBlink (l : DoorLed) (w : Doorway) : Option Doorway :=
  if w.blinking l then some (w.countedBlink l) else none

def take (row : Row) (w : Doorway) : Doorway :=
  { w with
    state := row.destination
    elapsed := 0
    blinked := fun l =>
      if ledMode row.destination l = .blinking then 0 else w.blinked l
    openedAt := if row.opensDoor then w.ticks else w.openedAt }

def fire (timing : Timing) (choice : RowChoice Row) (w : Doorway) : Doorway :=
  (nextRow choice w.state w.requested (w.expired timing)).elim w fun row =>
    w.take row

def step (timing : Timing) (choice : RowChoice Row) (w : Doorway) :
    SystemEvent → Option Doorway
  | .serve s => some (w.serve s)
  | .sysTick => some { w with ticks := w.ticks + 1 }
  | .count .TIM2 => w.countMotor
  | .count .TIM3 => w.countBlink .opening
  | .count .TIM4 => w.countBlink .closing
  | .fire => some (w.fire timing choice)

section Lights

variable {timing : Timing} {w : Doorway} {l m : DoorLed}

theorem lit_of_blinking (h : w.blinking l = true) :
    w.lit timing l = !squareWave (timing.blinkCounts l) (w.blinked l) := by
  rw [lit, of_decide_eq_true h]

theorem lit_countedBlink_self (h : w.blinking l = true) :
    (w.countedBlink l).lit timing l =
      !squareWave (timing.blinkCounts l) (w.blinked l + 1) := by
  have hblinking : (w.countedBlink l).blinking l = true := h
  rw [lit_of_blinking hblinking]
  simp only [countedBlink, if_true]

theorem lit_countedBlink_of_ne (h : m ≠ l) :
    (w.countedBlink l).lit timing m = w.lit timing m := by
  simp only [lit, countedBlink, if_neg h]

end Lights

end Doorway

end AutomaticDoor.DoorwayModel
