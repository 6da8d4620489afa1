import AutomaticDoor.Foundations.CallReplays
import AutomaticDoor.PortLed

/-!
LEDs that share the output register of a port.  Each call reads, combines and
writes the whole register, and acts on the bit of its own LED.
-/

namespace AutomaticDoor.LedIndependence

open AutomaticDoor.BoardRegisters
open AutomaticDoor.Foundations.CallReplays
open AutomaticDoor.Foundations.RegisterWords
open AutomaticDoor.PortLed

inductive LedCall
  | on
  | off
  | toggle
deriving DecidableEq

namespace LedCall

def apply : LedCall → PortLedHw → Board → Board
  | on => portLedOn
  | off => portLedOff
  | toggle => portLedToggle

/-- How a call combines the output register with the mask of its LED. -/
def combine : LedCall → Word → Word → Word
  | on, odr, mask => odr ||| mask
  | off, odr, mask => odr &&& ~~~mask
  | toggle, odr, mask => odr ^^^ mask

/-- The effect of a call on the bit of its LED. -/
def onBit : LedCall → Bool → Bool
  | on, _ => true
  | off, _ => false
  | toggle, lit => !lit

end LedCall

def replay (initial : Bool) (calls : List LedCall) : Bool :=
  calls.foldl (fun lit c => c.onBit lit) initial

/-- How many toggles come after the last call that switches on or off. -/
def togglesAfterSwitch (calls : List LedCall) : Nat :=
  (calls.reverse.takeWhile fun c => c = .toggle).length

/-- What the last call that switches on or off leaves. -/
def lastSwitch (initial : Bool) (calls : List LedCall) : Bool :=
  match calls.reverse.dropWhile fun c => c = .toggle with
  | [] => initial
  | c :: _ => c = .on

theorem replay_concat (initial : Bool) (calls : List LedCall) (c : LedCall) :
    replay initial (calls ++ [c]) = c.onBit (replay initial calls) :=
  List.foldl_concat ..

theorem decide_odd_succ (n : Nat) :
    decide ((n + 1) % 2 = 1) = !decide (n % 2 = 1) := by
  rw [← decide_not, decide_eq_decide]
  omega

theorem replay_eq_lastSwitch (initial : Bool) (calls : List LedCall) :
    replay initial calls =
      (lastSwitch initial calls ^^ decide (togglesAfterSwitch calls % 2 = 1)) := by
  induction calls using List.reverseRecOn with
  | nil => simp [replay, lastSwitch, togglesAfterSwitch]
  | append_singleton calls c ih =>
      rw [replay_concat]
      cases c with
      | on | off => simp [LedCall.onBit, lastSwitch, togglesAfterSwitch]
      | toggle =>
          have hswitch : lastSwitch initial (calls ++ [.toggle]) =
              lastSwitch initial calls := by
            simp [lastSwitch]
          have htoggles : togglesAfterSwitch (calls ++ [.toggle]) =
              togglesAfterSwitch calls + 1 := by
            simp [togglesAfterSwitch]
          rw [LedCall.onBit, ih, hswitch, htoggles, decide_odd_succ, Bool.xor_not]

/-- LEDs on pins of their own of one port. -/
structure LedsOnPort (Led : Type) where
  port : GpioPort
  hw : Led → PortLedHw
  pPort_eq : ∀ l, (hw l).pPort = port
  pin_injective : Function.Injective fun l => (hw l).pin

/-- The input register reads back the bit that drives the LED's pin. -/
def MirrorsOutput (led : PortLedHw) (b : Board) : Prop :=
  (b.gpio led.pPort).idr.getLsbD led.pin = (b.gpio led.pPort).odr.getLsbD led.pin

namespace LedCall

theorem apply_eq (c : LedCall) : c.apply = combineOdr c.combine := by
  cases c <;> rfl

theorem getLsbD_combine_self (c : LedCall) {i : Nat} (hi : i < 32) (odr : Word) :
    (c.combine odr (BitVec.twoPow 32 i)).getLsbD i = c.onBit (odr.getLsbD i) := by
  cases c with
  | on => exact getLsbD_or_twoPow_self hi odr
  | off => exact getLsbD_and_not_twoPow_self hi odr
  | toggle => exact getLsbD_xor_twoPow_self hi odr

theorem getLsbD_combine_of_ne (c : LedCall) {i j : Nat} (hij : i ≠ j)
    (odr : Word) :
    (c.combine odr (BitVec.twoPow 32 i)).getLsbD j = odr.getLsbD j := by
  cases c with
  | on => exact getLsbD_or_twoPow_of_ne hij odr
  | off => exact getLsbD_and_not_twoPow_of_ne hij odr
  | toggle => exact getLsbD_xor_twoPow_of_ne hij odr

theorem apply_odr (c : LedCall) (led : PortLedHw) (b : Board) (j : Nat) :
    ((c.apply led b).gpio led.pPort).odr.getLsbD j =
      if j = led.pin then c.onBit ((b.gpio led.pPort).odr.getLsbD j)
      else (b.gpio led.pPort).odr.getLsbD j := by
  rw [apply_eq, combineOdr_odr]
  split
  · rename_i hj
    subst j
    exact c.getLsbD_combine_self (by omega) _
  · rename_i hj
    exact c.getLsbD_combine_of_ne (Ne.symm hj) _

end LedCall

section Runs

variable {Led : Type} (leds : LedsOnPort Led)

def applyLedCall (b : Board) (call : Led × LedCall) : Board :=
  call.2.apply (leds.hw call.1) b

def applyLedCalls (b : Board) (calls : List (Led × LedCall)) : Board :=
  calls.foldl (applyLedCall leds) b

def odrBit (j : Nat) (b : Board) : Bool := (b.gpio leds.port).odr.getLsbD j

theorem odrBit_applyLedCall (j : Nat) (b : Board) (call : Led × LedCall) :
    odrBit leds j (applyLedCall leds b call) =
      if j = (leds.hw call.1).pin then call.2.onBit (odrBit leds j b)
      else odrBit leds j b := by
  rw [odrBit, odrBit, ← leds.pPort_eq call.1]
  exact LedCall.apply_odr ..

theorem ledLit_eq_odrBit (l : Led) (b : Board) :
    ledLit (leds.hw l) b = odrBit leds (leds.hw l).pin b := by
  rw [ledLit, odrBit, leds.pPort_eq]

theorem odrBit_applyLedCalls_of_ne {j : Nat} (h : ∀ l, ((leds.hw l).pin : Nat) ≠ j)
    (b : Board) (calls : List (Led × LedCall)) :
    odrBit leds j (applyLedCalls leds b calls) = odrBit leds j b := by
  apply view_foldl_of_unchanged (odrBit leds j)
  intro b call
  rw [odrBit_applyLedCall, if_neg (h call.1).symm]

/-- The board read after the calls holds their output bits, and its input
register mirrors them. -/
structure ReadsBack (calls : List (Led × LedCall)) (b seen : Board) : Prop where
  odr : (seen.gpio leds.port).odr =
    ((applyLedCalls leds b calls).gpio leds.port).odr
  mirrors : ∀ l, MirrorsOutput (leds.hw l) seen

variable [DecidableEq Led]

def ownCall (l : Led) (call : Led × LedCall) : Option LedCall :=
  if call.1 = l then some call.2 else none

def ownCalls (l : Led) (calls : List (Led × LedCall)) : List LedCall :=
  calls.filterMap (ownCall l)

theorem ledLit_applyLedCalls (l : Led) (b : Board)
    (calls : List (Led × LedCall)) :
    ledLit (leds.hw l) (applyLedCalls leds b calls) =
      replay (ledLit (leds.hw l) b) (ownCalls l calls) := by
  rw [ledLit_eq_odrBit, ledLit_eq_odrBit, replay]
  apply view_foldl (odrBit leds (leds.hw l).pin)
  intro b call
  rw [odrBit_applyLedCall, ownCall]
  by_cases h : call.1 = l
  · rw [if_pos h, if_pos (by rw [h]), Option.elim_some]
  · have hpin : ((leds.hw l).pin : Nat) ≠ (leds.hw call.1).pin := by
      intro heq
      exact h (leds.pin_injective (Fin.ext heq.symm))
    rw [if_neg h, if_neg hpin, Option.elim_none]

/-- Each LED reads as its own calls leave it, and the output bits of no LED are
kept. -/
theorem leds_on_one_port_independent (b seen : Board)
    (calls : List (Led × LedCall)) (hseen : ReadsBack leds calls b seen) :
    (∀ l,
      portLedGetStatus (leds.hw l) seen =
        replay (ledLit (leds.hw l) b) (ownCalls l calls) ∧
      portLedGetStatus (leds.hw l) seen =
        (lastSwitch (ledLit (leds.hw l) b) (ownCalls l calls) ^^
          decide (togglesAfterSwitch (ownCalls l calls) % 2 = 1))) ∧
    ∀ j, (∀ l, ((leds.hw l).pin : Nat) ≠ j) →
      ((applyLedCalls leds b calls).gpio leds.port).odr.getLsbD j =
        (b.gpio leds.port).odr.getLsbD j := by
  constructor
  · intro l
    have hstatus : portLedGetStatus (leds.hw l) seen =
        replay (ledLit (leds.hw l) b) (ownCalls l calls) := by
      rw [← ledLit_applyLedCalls, portLedGetStatus_eq, hseen.mirrors l, ledLit,
        leds.pPort_eq, hseen.odr]
    exact ⟨hstatus, hstatus.trans (replay_eq_lastSwitch _ _)⟩
  · intro j hj
    exact odrBit_applyLedCalls_of_ne leds hj b calls

end Runs

/-- The LEDs of the door, which the documentation wires to one port. -/
def documentedLedsOnPort : LedsOnPort DoorLed where
  port := .GPIOB
  hw := documentedLeds.hw
  pPort_eq l := by cases l <;> rfl
  pin_injective l m h := by
    cases l <;> cases m
    · rfl
    · exact absurd h (by decide)
    · exact absurd h (by decide)
    · rfl

/-- The board after the calls, its input registers sampled. -/
def sampled (b : Board) : Board :=
  { b with gpio := fun port => { b.gpio port with idr := (b.gpio port).odr } }

theorem leds_on_one_port_independent_blinking :
    let calls : List (DoorLed × LedCall) :=
      [(.opening, .on), (.closing, .toggle), (.opening, .toggle),
        (.closing, .toggle), (.closing, .toggle)]
    let seen := sampled (applyLedCalls documentedLedsOnPort Board.reset calls)
    portLedGetStatus (documentedLeds.hw .opening) seen = false ∧
      portLedGetStatus (documentedLeds.hw .closing) seen = true := by
  intro calls seen
  have hseen : ReadsBack documentedLedsOnPort calls Board.reset seen :=
    ⟨rfl, fun _ => rfl⟩
  have h := leds_on_one_port_independent documentedLedsOnPort Board.reset seen
    calls hseen
  exact ⟨(h.1 .opening).1, (h.1 .closing).1⟩

end AutomaticDoor.LedIndependence
