import AutomaticDoor.Foundations.EventSystems
import AutomaticDoor.GuardedFiring
import AutomaticDoor.RequestPolling
import AutomaticDoor.UpdateInterrupts

/-!
The whole firmware: the guarded firings of the main loop, the requests that
the handler of the lines serves, the ticks, and the timers, which count until
they overflow.
-/

namespace AutomaticDoor.DoorSystem

open AutomaticDoor.ActionInterleavings
open AutomaticDoor.BoardRegisters
open AutomaticDoor.DoorStateMachine
open AutomaticDoor.Foundations.RowChoices
open AutomaticDoor.GuardedFiring
open AutomaticDoor.InterruptHandlers
open AutomaticDoor.PortLed
open AutomaticDoor.RequestPolling
open AutomaticDoor.UpdateInterrupts

/-- The prescaler of a running timer completes a division: the counter
advances, or overflows when it has reached `ARR`.  A null `ARR` blocks it. -/
def countTimer (leds : DoorLeds) (t : Timer) (b : Board) : Option Board :=
  if (b.tim t).cen && decide ((b.tim t).arr ≠ 0) then
    if (b.tim t).cnt = (b.tim t).arr then
      some (serveUpdate leds t (b.onTim t TimRegs.overflow))
    else some (b.onTim t fun r => { r with cnt := r.cnt + 1 })
  else none

inductive SystemEvent
  | serve (s : Service)
  | sysTick
  | count (t : Timer)
  | fire
deriving DecidableEq

/-- A poll, with the interrupts that its action raises. -/
def poll (cfg : DoorConfig) (choice : RowChoice Row) (d : Door) : Option Door :=
  (fireChosen cfg choice d).map fun d' =>
    { d' with board := serveUpdates cfg.leds d'.board }

def systemStep (cfg : DoorConfig) (choice : RowChoice Row) (d : Door) :
    SystemEvent → Option Door
  | .serve s => some { d with board := pollStep d.board (.serve s) }
  | .sysTick => some { d with board := sysTickHandler d.board }
  | .count t => (countTimer cfg.leds t d.board).map fun b => { d with board := b }
  | .fire => poll cfg choice d

section Counting

variable {leds : DoorLeds} {t u : Timer} {b b' : Board}

theorem countTimer_eq_some_iff :
    countTimer leds t b = some b' ↔
      ((b.tim t).cen = true ∧ (b.tim t).arr ≠ 0) ∧
        b' =
          if (b.tim t).cnt = (b.tim t).arr then
            serveUpdate leds t (b.onTim t TimRegs.overflow)
          else b.onTim t fun r => { r with cnt := r.cnt + 1 } := by
  rw [countTimer, Option.ite_none_right_eq_some, Bool.and_eq_true, decide_eq_true_iff,
    ← apply_ite some, Option.some.injEq]
  exact and_congr_right fun _ => eq_comm

theorem countTimer_of_stopped (h : (b.tim t).cen = false) :
    countTimer leds t b = none := by
  rw [countTimer, h]
  rfl

/-- What neither the handler of a timer nor its counter changes, a count keeps. -/
theorem view_countTimer {α : Type} (view : Board → α)
    (hhandler : ∀ b, view (timIrqHandler leds t b) = view b)
    (hoverflow : ∀ b, view (b.onTim t TimRegs.overflow) = view b)
    (hcount : ∀ b, view (b.onTim t fun r => { r with cnt := r.cnt + 1 }) = view b)
    (h : countTimer leds t b = some b') : view b' = view b := by
  obtain ⟨-, rfl⟩ := countTimer_eq_some_iff.mp h
  split
  · rw [view_serveUpdate view hhandler, hoverflow]
  · exact hcount b

/-- A count leaves no interrupt waiting. -/
theorem updatePending_countTimer (hidle : ∀ t, updatePending t b = false)
    (h : countTimer leds t b = some b') : updatePending u b' = false := by
  have hother : ∀ f, u ≠ t → updatePending u (b.onTim t f) = false := by
    intro f hu
    rw [updatePending_congr (Board.onTim_tim_of_ne _ _ _ _ hu) rfl, hidle]
  obtain ⟨-, rfl⟩ := countTimer_eq_some_iff.mp h
  split
  · rw [updatePending_serveUpdate]
    split
    · rfl
    · rename_i hu
      exact hother _ hu
  · by_cases hu : u = t
    · have hpending := hidle t
      rw [updatePending] at hpending
      rw [hu, updatePending, Board.onTim_tim_self]
      exact hpending
    · exact hother _ hu

end Counting

section Polling

variable {cfg : DoorConfig} {choice : RowChoice Row} {d d' : Door}

theorem poll_eq_some_iff :
    poll cfg choice d = some d' ↔
      ∃ fired, fireChosen cfg choice d = some fired ∧
        d' = { fired with board := serveUpdates cfg.leds fired.board } := by
  rw [poll, Option.map_eq_some_iff]
  simp only [eq_comm]

/-- The interrupts of an action may as well be served after each of its calls. -/
theorem poll_of_choose {row : Row} (hidle : ∀ t, updatePending t d.board = false)
    (hrow : choice.choose (enabled d) = some row) :
    poll cfg choice d = some
      { board := (portCalls cfg row).foldl (execServed cfg.leds) d.board
        fsm := { (row.action cfg d).fsm with currentState := row.destination } } := by
  have henabled := choice.enabled_of_choose hrow
  rw [enabled, Bool.and_eq_true, decide_eq_true_iff] at henabled
  rw [poll_eq_some_iff, fireChosen, hrow, serveUpdates_action cfg row d hidle]
  exact ⟨_, fsmFire_some_eq_some_iff.mpr ⟨henabled.1, rfl⟩, rfl⟩

end Polling

end AutomaticDoor.DoorSystem
