import AutomaticDoor.ActionEffects

/-!
The update interrupts of the timers.  An overflow sets the update flag, and so
does an activation of a blink timer, whose `UG` forces an update event.
-/

namespace AutomaticDoor.UpdateInterrupts

open AutomaticDoor.ActionEffects
open AutomaticDoor.ActionInterleavings
open AutomaticDoor.BoardRegisters
open AutomaticDoor.DoorStateMachine
open AutomaticDoor.InterruptHandlers
open AutomaticDoor.PortLed
open AutomaticDoor.PortMotor

/-- An update flag that both the timer and the NVIC let through. -/
def updatePending (t : Timer) (b : Board) : Bool :=
  (b.tim t).uif && (b.tim t).uie && (b.nvic (.TIM t)).enabled

def serveUpdate (leds : DoorLeds) (t : Timer) (b : Board) : Board :=
  if updatePending t b then timIrqHandler leds t b else b

/-- All three have the same priority, so they are served in the order of their
numbers. -/
def serveUpdates (leds : DoorLeds) (b : Board) : Board :=
  serveUpdate leds .TIM4 (serveUpdate leds .TIM3 (serveUpdate leds .TIM2 b))

section Handlers

variable (leds : DoorLeds) (b : Board)

theorem timIrqHandler_led (l : DoorLed) :
    timIrqHandler leds l.timer b =
      clearUpdateFlag l.timer (portLedToggle (leds.hw l) b) := by
  cases l <;> rfl

theorem timIrqHandler_nvic (t : Timer) : (timIrqHandler leds t b).nvic = b.nvic := by
  cases t with
  | TIM2 =>
      rw [timIrqHandler, tim2IrqHandler]
      split <;> rfl
  | TIM3 | TIM4 => rfl

theorem timIrqHandler_tim_of_ne {t u : Timer} (h : u ≠ t) :
    (timIrqHandler leds t b).tim u = b.tim u := by
  cases t with
  | TIM2 =>
      rw [timIrqHandler, tim2IrqHandler]
      split
      · simp [clearUpdateFlag, portMotorSetTimeoutStatus, motorAutomaticDoor,
          Board.onTim_tim_of_ne, h]
      · rfl
  | TIM3 =>
      rw [timIrqHandler, tim3IrqHandler, clearUpdateFlag,
        Board.onTim_tim_of_ne _ _ _ _ h]
      rfl
  | TIM4 =>
      rw [timIrqHandler, tim4IrqHandler, clearUpdateFlag,
        Board.onTim_tim_of_ne _ _ _ _ h]
      rfl

/-- Every handler ends with the flag of its timer cleared. -/
theorem timIrqHandler_uif (t : Timer) :
    ((timIrqHandler leds t b).tim t).uif = false := by
  cases t with
  | TIM2 =>
      rw [timIrqHandler, tim2IrqHandler]
      split
      · rw [clearUpdateFlag, Board.onTim_tim_self]
      · rename_i h
        exact Bool.eq_false_iff.mpr h
  | TIM3 =>
      rw [timIrqHandler, tim3IrqHandler, clearUpdateFlag, Board.onTim_tim_self]
  | TIM4 =>
      rw [timIrqHandler, tim4IrqHandler, clearUpdateFlag, Board.onTim_tim_self]

end Handlers

section Serving

variable {leds : DoorLeds} {b b' : Board} {t u : Timer}

theorem updatePending_congr (htim : b'.tim t = b.tim t) (hnvic : b'.nvic = b.nvic) :
    updatePending t b' = updatePending t b := by
  rw [updatePending, updatePending, htim, hnvic]

theorem updatePending_overflow :
    updatePending t (b.onTim t TimRegs.overflow) =
      ((b.tim t).uie && (b.nvic (.TIM t)).enabled) := by
  rw [updatePending, Board.onTim_tim_self]
  rfl

theorem updatePending_timIrqHandler_self :
    updatePending t (timIrqHandler leds t b) = false := by
  rw [updatePending, timIrqHandler_uif]
  rfl

theorem updatePending_timIrqHandler_of_ne (h : u ≠ t) :
    updatePending u (timIrqHandler leds t b) = updatePending u b :=
  updatePending_congr (timIrqHandler_tim_of_ne leds b h) (timIrqHandler_nvic leds b t)

theorem updatePending_serveUpdate :
    updatePending u (serveUpdate leds t b) =
      if u = t then false else updatePending u b := by
  rw [serveUpdate]
  by_cases hpending : updatePending t b = true
  · rw [if_pos hpending]
    split
    · rename_i h
      rw [h, updatePending_timIrqHandler_self]
    · rename_i h
      exact updatePending_timIrqHandler_of_ne h
  · rw [if_neg hpending]
    split
    · rename_i h
      rw [h]
      exact Bool.eq_false_iff.mpr hpending
    · rfl

theorem updatePending_serveUpdates : updatePending u (serveUpdates leds b) = false := by
  simp only [serveUpdates, updatePending_serveUpdate]
  cases u <;> rfl

theorem serveUpdate_of_not_pending (h : updatePending t b = false) :
    serveUpdate leds t b = b := by
  rw [serveUpdate, h, if_neg (by decide)]

theorem serveUpdates_of_none (h : ∀ t, updatePending t b = false) :
    serveUpdates leds b = b := by
  rw [serveUpdates, serveUpdate_of_not_pending (h .TIM2),
    serveUpdate_of_not_pending (h .TIM3), serveUpdate_of_not_pending (h .TIM4)]

theorem serveUpdates_of_one {l : DoorLed} (h : updatePending l.timer b = true)
    (hother : ∀ t, t ≠ l.timer → updatePending t b = false) :
    serveUpdates leds b = timIrqHandler leds l.timer b := by
  have hafter : ∀ t, updatePending t (timIrqHandler leds l.timer b) = false := by
    intro t
    by_cases ht : t = l.timer
    · rw [ht, updatePending_timIrqHandler_self]
    · rw [updatePending_timIrqHandler_of_ne ht, hother t ht]
  have hserve : serveUpdate leds l.timer b = timIrqHandler leds l.timer b := by
    rw [serveUpdate, if_pos h]
  rw [serveUpdates]
  cases l with
  | opening =>
      rw [serveUpdate_of_not_pending (hother .TIM2 nofun)]
      exact (congrArg _ hserve).trans (serveUpdate_of_not_pending (hafter .TIM4))
  | closing =>
      rw [serveUpdate_of_not_pending (hother .TIM2 nofun),
        serveUpdate_of_not_pending (hother .TIM3 nofun)]
      exact hserve

/-- What no handler of a timer changes, serving them keeps. -/
theorem view_serveUpdate {α : Type} (view : Board → α)
    (h : ∀ b, view (timIrqHandler leds t b) = view b) :
    view (serveUpdate leds t b) = view b := by
  rw [serveUpdate]
  split
  · exact h b
  · rfl

theorem view_serveUpdates {α : Type} (view : Board → α)
    (h : ∀ t b, view (timIrqHandler leds t b) = view b) :
    view (serveUpdates leds b) = view b := by
  rw [serveUpdates, view_serveUpdate view (h .TIM4), view_serveUpdate view (h .TIM3),
    view_serveUpdate view (h .TIM2)]

end Serving

section Actions

variable (leds : DoorLeds) {b : Board}

/-- The only call that raises an interrupt is the activation of a blink timer. -/
theorem updatePending_exec {c : PortCall} {t : Timer}
    (hactivates : ∀ l : DoorLed, c = .ledTimerActivate l → t ≠ l.timer)
    (h : updatePending t b = false) : updatePending t (c.exec leds b) = false := by
  rw [updatePending] at h
  rw [updatePending, (exec_registers leds b c).2.2.1, exec_tim]
  cases c with
  | ledOn | ledOff => exact h
  | ledTimerActivate l =>
      rw [onTimer, if_neg (hactivates l rfl)]
      exact h
  | ledTimerDeactivate | motorTimeoutTimerDeactivate =>
      rw [onTimer]
      split <;> exact h
  | motorTimeoutTimerActivate timeoutMs =>
      rw [onTimer]
      split
      · rfl
      · exact h

theorem portMotorTimeoutTimerActivate_eq (timeoutMs : Word) (b : Board) :
    portMotorTimeoutTimerActivate motorAutomaticDoor timeoutMs b =
      { b.onTim .TIM2 (armed b.systemCoreClock.toNat timeoutMs) with
        timeout := false } := by
  simp [portMotorTimeoutTimerActivate, portMotorSetTimeoutStatus, motorAutomaticDoor,
    Board.onTim, TimRegs.updateGeneration, armed]

/-- The handler of a blink timer and an activation of the motor timer work on
different registers. -/
theorem exec_timIrqHandler_comm (timeoutMs : Word) (l : DoorLed) (b : Board) :
    PortCall.exec leds (timIrqHandler leds l.timer b)
        (.motorTimeoutTimerActivate timeoutMs) =
      timIrqHandler leds l.timer
        (PortCall.exec leds b (.motorTimeoutTimerActivate timeoutMs)) := by
  have hne : l.timer ≠ .TIM2 := by cases l <;> decide
  rw [timIrqHandler_led, timIrqHandler_led, PortCall.exec, PortCall.exec,
    portMotorTimeoutTimerActivate_eq, portMotorTimeoutTimerActivate_eq]
  simp [clearUpdateFlag, portLedToggle, combineOdr, Board.onTim, Board.onGpio,
    Function.update_comm hne, hne, hne.symm]

theorem serveUpdate_exec_comm (timeoutMs : Word) (l : DoorLed) (b : Board) :
    serveUpdate leds l.timer
        (PortCall.exec leds b (.motorTimeoutTimerActivate timeoutMs)) =
      PortCall.exec leds (serveUpdate leds l.timer b)
        (.motorTimeoutTimerActivate timeoutMs) := by
  have hpending : updatePending l.timer
      (PortCall.exec leds b (.motorTimeoutTimerActivate timeoutMs)) =
        updatePending l.timer b := by
    apply updatePending_congr
    · rw [exec_tim, onTimer, if_neg (by cases l <;> decide)]
    · exact (exec_registers leds b _).2.2.1
  rw [serveUpdate, serveUpdate, hpending]
  split
  · exact (exec_timIrqHandler_comm leds timeoutMs l b).symm
  · rfl

/-- The interrupts that wait can be served before the motor timer is activated,
or after. -/
theorem serveUpdates_exec_motor (timeoutMs : Word)
    (h : updatePending .TIM2 b = false) :
    serveUpdates leds (PortCall.exec leds (serveUpdates leds b)
        (.motorTimeoutTimerActivate timeoutMs)) =
      serveUpdates leds
        (PortCall.exec leds b (.motorTimeoutTimerActivate timeoutMs)) := by
  have hafter : ∀ t, updatePending t (PortCall.exec leds (serveUpdates leds b)
      (.motorTimeoutTimerActivate timeoutMs)) = false := fun t =>
    updatePending_exec leds nofun updatePending_serveUpdates
  have hmotor : updatePending .TIM2
      (PortCall.exec leds b (.motorTimeoutTimerActivate timeoutMs)) = false :=
    updatePending_exec leds nofun h
  have hopening := serveUpdate_exec_comm leds timeoutMs .opening b
  have hclosing := serveUpdate_exec_comm leds timeoutMs .closing
    (serveUpdate leds .TIM3 b)
  rw [serveUpdates_of_none hafter, serveUpdates, serveUpdates,
    serveUpdate_of_not_pending h, serveUpdate_of_not_pending hmotor]
  exact (hclosing.symm).trans (congrArg (serveUpdate leds .TIM4) hopening.symm)

theorem updatePending_foldl {calls : List PortCall} {t : Timer}
    (hcalls : ∀ c ∈ calls, ∀ l : DoorLed, c = .ledTimerActivate l → t ≠ l.timer)
    (h : updatePending t b = false) :
    updatePending t (calls.foldl (PortCall.exec leds) b) = false := by
  induction calls generalizing b with
  | nil => exact h
  | cons c calls ih =>
      rw [List.foldl_cons]
      apply ih fun c hc => hcalls c (List.mem_cons_of_mem _ hc)
      exact updatePending_exec leds (hcalls c List.mem_cons_self) h

/-- A call, and what it raises. -/
def execServed (b : Board) (c : PortCall) : Board :=
  serveUpdates leds (c.exec leds b)

theorem foldl_execServed_of_quiet {calls : List PortCall}
    (hcalls : ∀ c ∈ calls, ∀ l, c ≠ .ledTimerActivate l)
    (h : ∀ t, updatePending t b = false) :
    calls.foldl (execServed leds) b = calls.foldl (PortCall.exec leds) b := by
  induction calls generalizing b with
  | nil => rfl
  | cons c calls ih =>
      have hnext : ∀ t, updatePending t (c.exec leds b) = false := fun t =>
        updatePending_exec leds
          (fun l hl => absurd hl (hcalls c List.mem_cons_self l)) (h t)
      have hserved : execServed leds b c = c.exec leds b := serveUpdates_of_none hnext
      rw [List.foldl_cons, List.foldl_cons, hserved]
      exact ih (fun c hc => hcalls c (List.mem_cons_of_mem _ hc)) hnext

/-- An action activates at most one blink timer, and then only the motor timer. -/
theorem portCalls_cases (cfg : DoorConfig) (row : Row) :
    (∀ c ∈ portCalls cfg row, ∀ l, c ≠ .ledTimerActivate l) ∨
      ∃ quiet l timeoutMs, (∀ c ∈ quiet, ∀ m, c ≠ .ledTimerActivate m) ∧
        portCalls cfg row = quiet ++
          [.ledTimerActivate l, .motorTimeoutTimerActivate timeoutMs] := by
  cases row with
  | openDoor =>
      exact Or.inr ⟨[.ledOff .closing], .opening, _, by simp, rfl⟩
  | closeDoor =>
      exact Or.inr ⟨[.ledOff .opening], .closing, _, by simp, rfl⟩
  | stopClosingDoor =>
      exact Or.inr ⟨[.ledTimerDeactivate .closing, .motorTimeoutTimerDeactivate,
        .ledOff .closing], .opening, _, by simp, rfl⟩
  | stayOpen | keepOpen | stayClosed => exact Or.inl (by simp [portCalls])

/-- It makes no difference whether the interrupts that an action raises are
served after each of its calls or after the last. -/
theorem serveUpdates_action (cfg : DoorConfig) (row : Row) (d : Door)
    (h : ∀ t, updatePending t d.board = false) :
    (portCalls cfg row).foldl (execServed cfg.leds) d.board =
      serveUpdates cfg.leds (row.action cfg d).board := by
  rw [action_board]
  rcases portCalls_cases cfg row with hquiet | ⟨quiet, l, timeoutMs, hquiet, hcalls⟩
  · have hafter : ∀ t, updatePending t
        ((portCalls cfg row).foldl (PortCall.exec cfg.leds) d.board) = false := fun t =>
      updatePending_foldl cfg.leds
        (fun c hc l hl => absurd hl (hquiet c hc l)) (h t)
    rw [foldl_execServed_of_quiet cfg.leds hquiet h, serveUpdates_of_none hafter]
  · have hmotor : updatePending .TIM2 ((quiet ++ [PortCall.ledTimerActivate l]).foldl
        (PortCall.exec cfg.leds) d.board) = false := by
      apply updatePending_foldl cfg.leds _ (h .TIM2)
      intro c _ m _
      cases m <;> decide
    rw [List.foldl_append] at hmotor
    rw [hcalls, List.foldl_append, List.foldl_append,
      foldl_execServed_of_quiet cfg.leds hquiet h]
    exact serveUpdates_exec_motor cfg.leds timeoutMs hmotor

theorem startedLed_of_mem {cfg : DoorConfig} {row : Row} {l : DoorLed}
    (h : PortCall.ledTimerActivate l ∈ portCalls cfg row) :
    startedLed row = some l := by
  cases row <;> cases l <;>
    first | rfl | simp [portCalls, openDoorCalls] at h

theorem updatePending_action_of_ne {cfg : DoorConfig} {row : Row} {d : Door} {t : Timer}
    (hstarted : ∀ l : DoorLed, startedLed row = some l → t ≠ l.timer)
    (h : updatePending t d.board = false) :
    updatePending t (row.action cfg d).board = false := by
  rw [action_board]
  apply updatePending_foldl cfg.leds _ h
  rintro c hc l rfl
  exact hstarted l (startedLed_of_mem hc)

/-- The blink timer that an action starts interrupts at once, if nothing masks
its update events. -/
theorem updatePending_action_started {cfg : DoorConfig} {row : Row} {d : Door}
    {l : DoorLed} (hstarted : startedLed row = some l)
    (hurs : (d.board.tim l.timer).urs = false)
    (huie : (d.board.tim l.timer).uie = true)
    (hserved : (d.board.nvic (.TIM l.timer)).enabled = true) :
    updatePending l.timer (row.action cfg d).board = true := by
  have hnvic : (row.action cfg d).board.nvic = d.board.nvic :=
    view_action cfg row d Board.nvic fun b c => (exec_registers cfg.leds b c).2.2.1
  rw [updatePending, hnvic, hserved, action_blinkTimer, if_pos hstarted]
  simp [started, TimRegs.updateGeneration, hurs, huie]

end Actions

end AutomaticDoor.UpdateInterrupts
