import AutomaticDoor.InterruptHandlers

/-!
The button line and the PIR line: the level of the pin, the pending bit that
an edge sets, and the level that the handler's flags hold.
-/

namespace AutomaticDoor.ExtiLines

open AutomaticDoor.BoardRegisters
open AutomaticDoor.Foundations.RegisterWords
open AutomaticDoor.InterruptHandlers
open AutomaticDoor.PortInputs

/-- An edge on the pin of a line whose interrupts are configured for both
edges: the level changes and the pending bit is set. -/
def pinEdge (l : Line) (b : Board) : Board :=
  let b := b.onGpio l.port fun r =>
    { r with idr := r.idr ^^^ bitPosToMask l.pin }
  { b with exti := { b.exti with pr := b.exti.pr ||| bitPosToMask l.pin } }

/-- The level that the flags of a line stand for.  The button pulls its pin
low while it is pressed. -/
def heldHigh : Line → Board → Bool
  | .button, b => !b.flagPressed
  | .pir, b => b.sensorStatus

def idleBoard : Board :=
  Board.reset.onGpio .GPIOC fun r => { r with idr := bitPosToMask 13 }

theorem Line.pin_ne {l m : Line} (h : l ≠ m) : (l.pin : Nat) ≠ m.pin := by
  cases l <;> cases m <;> first | exact absurd rfl h | decide

theorem Line.port_ne {l m : Line} (h : l ≠ m) : l.port ≠ m.port := by
  cases l <;> cases m <;> first | exact absurd rfl h | decide

section Edges

variable (l : Line) (b : Board)

theorem lineHigh_pinEdge_self : lineHigh l (pinEdge l b) = !lineHigh l b := by
  rw [lineHigh_eq, lineHigh_eq]
  simp only [pinEdge, Board.onGpio_gpio_self, bitPosToMask_eq_twoPow]
  exact getLsbD_xor_twoPow_self (by omega) _

theorem lineHigh_pinEdge_of_ne {m : Line} (h : l ≠ m) :
    lineHigh m (pinEdge l b) = lineHigh m b := by
  rw [lineHigh_eq, lineHigh_eq]
  simp only [pinEdge]
  rw [Board.onGpio_gpio_of_ne _ _ _ _ (Line.port_ne h).symm]

theorem linePending_pinEdge_self : linePending l (pinEdge l b) = true := by
  rw [linePending_eq]
  exact getLsbD_or_twoPow_self (by omega) _

theorem linePending_pinEdge_of_ne {m : Line} (h : l ≠ m) :
    linePending m (pinEdge l b) = linePending m b := by
  rw [linePending_eq, linePending_eq]
  exact getLsbD_or_twoPow_of_ne (Line.pin_ne h) _

@[simp] theorem heldHigh_pinEdge (m : Line) :
    heldHigh m (pinEdge l b) = heldHigh m b := by
  cases m <;> rfl

end Edges

section Handler

variable (l m : Line) (high : Bool) (b : Board)

@[simp] theorem heldHigh_updateFlags_self :
    heldHigh l (updateFlags l high b) = high := by
  cases l <;> cases high <;> simp only [updateFlags, heldHigh]
  · rfl
  · split
    · rfl
    · simp_all
  · rfl
  · rfl

theorem heldHigh_updateFlags_of_ne {l m : Line} (h : m ≠ l) :
    heldHigh m (updateFlags l high b) = heldHigh m b := by
  cases l <;> cases m <;> cases high <;> simp only [updateFlags, heldHigh]
  all_goals first
    | exact absurd rfl h
    | rfl
    | split <;> rfl

@[simp] theorem heldHigh_acknowledge :
    heldHigh m (acknowledge l b) = heldHigh m b := by
  cases m <;> rfl

theorem lineHigh_congr {b b' : Board} (h : b'.gpio = b.gpio) :
    lineHigh m b' = lineHigh m b := by
  rw [lineHigh_eq, lineHigh_eq, h]

@[simp] theorem lineHigh_updateFlags :
    lineHigh m (updateFlags l high b) = lineHigh m b :=
  lineHigh_congr m (updateFlags_registers l b high).1

@[simp] theorem lineHigh_acknowledge :
    lineHigh m (acknowledge l b) = lineHigh m b :=
  lineHigh_congr m (acknowledge_gpio l b)

@[simp] theorem linePending_acknowledge :
    linePending m (acknowledge l b) = false := by
  rw [linePending_eq, acknowledge_pr]
  simp

@[simp] theorem linePending_updateFlags :
    linePending m (updateFlags l high b) = linePending m b := by
  rw [linePending_eq, linePending_eq, (updateFlags_registers l b high).2.1]

theorem serveLine_of_pending (h : linePending l b = true) :
    serveLine l b = acknowledge l (updateFlags l (lineHigh l b) b) :=
  if_pos h

theorem serveLine_of_not_pending (h : linePending l b = false) :
    serveLine l b = b := by
  rw [serveLine, h]
  rfl

/-- Once a branch has run no line is pending, and the other branch is not
entered. -/
theorem exti15_10IrqHandler_of_button (h : linePending .button b = true) :
    exti15_10IrqHandler b = serveLine .button b := by
  rw [exti15_10IrqHandler, serveLine_of_pending .button b h]
  exact serveLine_of_not_pending _ _ (linePending_acknowledge _ _ _)

theorem exti15_10IrqHandler_of_not_button (h : linePending .button b = false) :
    exti15_10IrqHandler b = serveLine .pir b := by
  rw [exti15_10IrqHandler, serveLine_of_not_pending .button b h]

theorem exti15_10IrqHandler_of_one {l : Line} {b : Board}
    (hpending : linePending l b = true)
    (hother : ∀ m, m ≠ l → linePending m b = false) :
    exti15_10IrqHandler b = acknowledge l (updateFlags l (lineHigh l b) b) := by
  cases l with
  | button =>
      rw [exti15_10IrqHandler_of_button b hpending,
        serveLine_of_pending _ _ hpending]
  | pir =>
      rw [exti15_10IrqHandler_of_not_button b (hother .button (by decide)),
        serveLine_of_pending _ _ hpending]

end Handler

end AutomaticDoor.ExtiLines
