import AutomaticDoor.DoorStateMachine
import AutomaticDoor.ExtiLines

/-!
Requests to open between two evaluations of the guard `check_open`.  The guard
reads the level that the last service of each line has left in the flags.
-/

namespace AutomaticDoor.RequestPolling

open AutomaticDoor.BoardRegisters
open AutomaticDoor.DoorStateMachine
open AutomaticDoor.ExtiLines
open AutomaticDoor.Foundations.RegisterWords
open AutomaticDoor.InterruptHandlers
open AutomaticDoor.PortInputs

/-- A complete handler run that finds the given line alone pending, with its
pin at the given level. -/
structure Service where
  line : Line
  high : Bool
deriving DecidableEq

def presentLine (s : Service) (b : Board) : Board :=
  let b := b.onGpio s.line.port fun r =>
    { r with idr :=
        if s.high then r.idr ||| bitPosToMask s.line.pin
        else r.idr &&& ~~~bitPosToMask s.line.pin }
  { b with exti := { b.exti with pr := bitPosToMask s.line.pin } }

inductive PollEvent
  | serve (s : Service)
  | poll
deriving DecidableEq

def pollStep (b : Board) : PollEvent → Board
  | .serve s => exti15_10IrqHandler (presentLine s b)
  | .poll => b

def runPolls (b : Board) (events : List PollEvent) : Board :=
  events.foldl pollStep b

/-- `check_open` and the two guards that call it. -/
inductive OpenGuard
  | checkOpen
  | checkKeepOpen
  | checkPresenceOrButton

def OpenGuard.eval : OpenGuard → Door → Bool
  | .checkOpen => DoorStateMachine.checkOpen
  | .checkKeepOpen => DoorStateMachine.checkKeepOpen
  | .checkPresenceOrButton => DoorStateMachine.checkPresenceOrButton

def requests : Line → Bool → Bool
  | .button, high => !high
  | .pir, high => high

def RequestServed (segment : List Service) : Prop :=
  ∃ s ∈ segment, requests s.line s.high = true

def lastServed (l : Line) : List Service → Option Bool
  | [] => none
  | s :: rest => (lastServed l rest).or (if s.line = l then some s.high else none)

/-- On one of the lines the last service is a request; for a line that has not
been served, its flag was set before. -/
def LastIsRequest (before : Board) (segment : List Service) : Prop :=
  ∃ l, requests l ((lastServed l segment).getD (heldHigh l before)) = true

theorem lineHigh_presentLine (s : Service) (b : Board) :
    lineHigh s.line (presentLine s b) = s.high := by
  rw [lineHigh_eq]
  simp only [presentLine, Board.onGpio_gpio_self, bitPosToMask_eq_twoPow]
  cases s.high
  · exact getLsbD_and_not_twoPow_self (by omega) _
  · exact getLsbD_or_twoPow_self (by omega) _

theorem linePending_presentLine (s : Service) (b : Board) (m : Line) :
    linePending m (presentLine s b) = decide (m = s.line) := by
  rw [linePending_eq]
  simp only [presentLine, bitPosToMask_eq_twoPow]
  by_cases h : m = s.line
  · have hpin : (s.line.pin : Nat) < 32 := by omega
    simp [h, hpin]
  · simp [h, BitVec.getLsbD_twoPow, (Line.pin_ne h).symm]

theorem heldHigh_serve (s : Service) (b : Board) (m : Line) :
    heldHigh m (pollStep b (.serve s)) =
      if m = s.line then s.high else heldHigh m b := by
  have hpending : linePending s.line (presentLine s b) = true := by
    simp [linePending_presentLine]
  have hother : ∀ m, m ≠ s.line → linePending m (presentLine s b) = false := by
    intro m hm
    simp [linePending_presentLine, hm]
  rw [pollStep, exti15_10IrqHandler_of_one hpending hother,
    heldHigh_acknowledge, lineHigh_presentLine]
  split
  · rename_i hm
    rw [hm, heldHigh_updateFlags_self]
  · rename_i hm
    rw [heldHigh_updateFlags_of_ne _ _ hm]
    cases m <;> rfl

theorem heldHigh_services (segment : List Service) (b : Board) (m : Line) :
    heldHigh m (runPolls b (segment.map .serve)) =
      (lastServed m segment).getD (heldHigh m b) := by
  induction segment generalizing b with
  | nil => rfl
  | cons s rest ih =>
      have hrun : runPolls b ((s :: rest).map .serve) =
          runPolls (pollStep b (.serve s)) (rest.map .serve) := rfl
      rw [hrun, ih, heldHigh_serve, lastServed]
      cases lastServed m rest with
      | some high => rfl
      | none =>
          by_cases hm : m = s.line
          · simp [hm]
          · simp [hm, Ne.symm hm]

theorem eval_eq_true_iff (guard : OpenGuard) (d : Door) :
    guard.eval d = true ↔ ∃ l, requests l (heldHigh l d.board) = true := by
  have hopen : checkOpen d = true ↔
      ∃ l, requests l (heldHigh l d.board) = true := by
    simp only [checkOpen, portPirSensorGetStatus, portButtonIsPressed,
      Bool.or_eq_true]
    constructor
    · rintro (hpir | hbutton)
      · exact ⟨.pir, hpir⟩
      · exact ⟨.button, by simpa [requests, heldHigh] using hbutton⟩
    · rintro ⟨l, hl⟩
      cases l with
      | button => exact .inr (by simpa [requests, heldHigh] using hl)
      | pir => exact .inl hl
  cases guard <;> exact hopen

theorem runPolls_append (b : Board) (front back : List PollEvent) :
    runPolls b (front ++ back) = runPolls (runPolls b front) back :=
  List.foldl_append

/-- After any history, a request served in the interval before an evaluation
makes the guard true exactly when a request is what the last service of one of
the lines has found. -/
theorem guard_sees_request_iff (guard : OpenGuard) (b : Board)
    (fsm : FsmAutomaticDoor) (history : List PollEvent)
    (segment : List Service) :
    (RequestServed segment →
        guard.eval ⟨runPolls b (history ++ segment.map .serve), fsm⟩ = true) ↔
      (RequestServed segment →
        LastIsRequest (runPolls b history) segment) := by
  have hguard : guard.eval
      ⟨runPolls b (history ++ segment.map .serve), fsm⟩ = true ↔
        LastIsRequest (runPolls b history) segment := by
    rw [eval_eq_true_iff, LastIsRequest]
    simp only [runPolls_append, heldHigh_services]
  rw [hguard]

theorem request_lost_before_poll :
    (RequestServed [⟨.button, false⟩, ⟨.button, true⟩] ∧
        OpenGuard.checkOpen.eval
          ⟨runPolls Board.reset
            ([.poll] ++ [⟨.button, false⟩, ⟨.button, true⟩].map .serve),
            ⟨.CLOSED, false, 0⟩⟩ = false) ∧
      RequestServed [⟨.pir, true⟩, ⟨.pir, false⟩] ∧
        OpenGuard.checkOpen.eval
          ⟨runPolls Board.reset
            ([.poll] ++ [⟨.pir, true⟩, ⟨.pir, false⟩].map .serve),
            ⟨.CLOSED, false, 0⟩⟩ = false := by
  refine ⟨⟨⟨⟨.button, false⟩, by decide, rfl⟩, by decide⟩,
    ⟨⟨.pir, true⟩, by decide, rfl⟩, by decide⟩

end AutomaticDoor.RequestPolling
