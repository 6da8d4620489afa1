import AutomaticDoor.DoorStateMachine
import AutomaticDoor.Foundations.RowChoices

/-!
`fsm_fire` with the guards of the documentation.  The library it comes from is
not part of the sources, and the array `fsm_trans_automatic_door` is left empty,
so which of the rows that are enabled is executed is a parameter.
-/

namespace AutomaticDoor.GuardedFiring

open AutomaticDoor.DoorStateMachine
open AutomaticDoor.Foundations.RowChoices

def guardOf : Row → Door → Bool
  | .openDoor => checkOpen
  | .stayOpen => checkOpeningTimeout
  | .keepOpen => checkKeepOpen
  | .closeDoor => checkInactivityTimeout
  | .stayClosed => checkClosingTimeout
  | .stopClosingDoor => checkPresenceOrButton

def enabled (d : Door) (row : Row) : Bool :=
  decide (d.fsm.currentState = row.origin) && guardOf row d

/-- Executes a row that leaves the current state and whose guard holds, if there
is one. -/
def fireChosen (cfg : DoorConfig) (choice : RowChoice Row) (d : Door) :
    Option Door :=
  fsmFire cfg d (choice.choose (enabled d))

/-- Whether the guard of a row asks for a request, or for a timeout. -/
def byRequest : Row → Bool
  | .openDoor | .keepOpen | .stopClosingDoor => true
  | .stayOpen | .closeDoor | .stayClosed => false

/-- The rows that are enabled in a state, from what their guards read: whether a
request is held, and whether the motor timer has expired. -/
def enabledIn (state : DoorState) (requested expired : Bool) (row : Row) : Bool :=
  decide (state = row.origin) && if byRequest row then requested else expired

def nextRow (choice : RowChoice Row) (state : DoorState)
    (requested expired : Bool) : Option Row :=
  choice.choose (enabledIn state requested expired)

/-- In both states in which a timeout can compete with a request, the request
wins. -/
structure PrefersRequests (choice : RowChoice Row) : Prop where
  keepOpen : nextRow choice .OPEN true true = some .keepOpen
  stopClosing : nextRow choice .CLOSING true true = some .stopClosingDoor

section Choice

variable {choice : RowChoice Row} {state : DoorState} {requested expired : Bool}
  {row : Row}

theorem enabled_eq (d : Door) :
    enabled d = enabledIn d.fsm.currentState (checkOpen d) d.board.timeout := by
  funext row
  cases row <;> rfl

theorem choose_eq_nextRow (choice : RowChoice Row) (d : Door) :
    choice.choose (enabled d) =
      nextRow choice d.fsm.currentState (checkOpen d) d.board.timeout := by
  rw [enabled_eq]
  rfl

theorem enabledIn_iff :
    enabledIn state requested expired row = true ↔
      row.origin = state ∧ (if byRequest row then requested else expired) = true := by
  rw [enabledIn, Bool.and_eq_true, decide_eq_true_iff]
  exact and_congr_left fun _ => eq_comm

theorem origin_of_nextRow (h : nextRow choice state requested expired = some row) :
    row.origin = state :=
  (enabledIn_iff.mp (choice.enabled_of_choose h)).1

/-- A row is executed only if its guard holds. -/
theorem guard_of_nextRow (h : nextRow choice state requested expired = some row) :
    (if byRequest row then requested else expired) = true :=
  (enabledIn_iff.mp (choice.enabled_of_choose h)).2

/-- A row is given by its state and by what its guard asks for. -/
theorem row_eq_of_origin {a b : Row} (horigin : a.origin = b.origin)
    (hguard : byRequest a = byRequest b) : a = b := by
  revert horigin hguard
  cases a <;> cases b <;> decide

/-- Where a request and a timeout do not meet, at most one row is enabled. -/
theorem row_eq_of_enabledIn {a b : Row} (hone : (requested && expired) = false)
    (ha : enabledIn state requested expired a = true)
    (hb : enabledIn state requested expired b = true) : a = b := by
  obtain ⟨hstate, hguard⟩ := enabledIn_iff.mp ha
  obtain ⟨hstate', hguard'⟩ := enabledIn_iff.mp hb
  apply row_eq_of_origin (hstate.trans hstate'.symm)
  revert hone hguard hguard'
  cases byRequest a <;> cases byRequest b <;> cases requested <;> cases expired <;>
    decide

theorem nextRow_of_enabledIn (choice : RowChoice Row)
    (h : enabledIn state requested expired row = true)
    (hone : (requested && expired) = false) :
    nextRow choice state requested expired = some row :=
  choice.choose_of_only h fun _ hother => row_eq_of_enabledIn hone hother h

theorem nextRow_eq_of_not_both (choice other : RowChoice Row)
    (hone : (requested && expired) = false) :
    nextRow choice state requested expired = nextRow other state requested expired :=
  choice.choose_eq_of_subsingleton other fun _ _ => row_eq_of_enabledIn hone

/-- Nor is there a choice in a state that only one row leaves. -/
theorem nextRow_eq_of_one_row (choice other : RowChoice Row)
    (h : state = .CLOSED ∨ state = .OPENING) :
    nextRow choice state requested expired = nextRow other state requested expired := by
  apply choice.choose_eq_of_subsingleton
  intro a b ha hb
  have horigin := (enabledIn_iff.mp ha).1
  have horigin' := (enabledIn_iff.mp hb).1
  clear ha hb
  rcases h with rfl | rfl <;> revert horigin horigin' <;>
    cases a <;> cases b <;> decide

theorem contest_open (choice : RowChoice Row) :
    nextRow choice .OPEN true true = some .keepOpen ∨
      nextRow choice .OPEN true true = some .closeDoor := by
  apply choice.choose_of_pair rfl
  intro row
  cases row <;> decide

theorem contest_closing (choice : RowChoice Row) :
    nextRow choice .CLOSING true true = some .stopClosingDoor ∨
      nextRow choice .CLOSING true true = some .stayClosed := by
  apply choice.choose_of_pair rfl
  intro row
  cases row <;> decide

/-- Choices that agree where a request and a timeout meet agree everywhere. -/
theorem nextRow_eq_of_contests {choice other : RowChoice Row}
    (hopen : nextRow choice .OPEN true true = nextRow other .OPEN true true)
    (hclosing : nextRow choice .CLOSING true true = nextRow other .CLOSING true true)
    (state : DoorState) (requested expired : Bool) :
    nextRow choice state requested expired = nextRow other state requested expired := by
  cases hboth : requested && expired with
  | false => exact nextRow_eq_of_not_both choice other hboth
  | true =>
      rw [Bool.and_eq_true] at hboth
      obtain ⟨rfl, rfl⟩ := hboth
      cases state with
      | CLOSED => exact nextRow_eq_of_one_row choice other (Or.inl rfl)
      | OPENING => exact nextRow_eq_of_one_row choice other (Or.inr rfl)
      | OPEN => exact hopen
      | CLOSING => exact hclosing

/-- The closed door has no timeout. -/
theorem nextRow_closed (choice : RowChoice Row) (requested expired expired' : Bool) :
    nextRow choice .CLOSED requested expired =
      nextRow choice .CLOSED requested expired' := by
  have henabled : enabledIn .CLOSED requested expired =
      enabledIn .CLOSED requested expired' := by
    funext row
    cases row <;> rfl
  rw [nextRow, nextRow, henabled]

end Choice

section Tables

/-- Of a table whose first enabled row is taken, the preference is an order. -/
theorem prefersRequests_firstEnabled_iff (rows : List Row)
    (complete : ∀ row, row ∈ rows) :
    PrefersRequests (.firstEnabled rows complete) ↔
      rows.idxOf .keepOpen < rows.idxOf .closeDoor ∧
        rows.idxOf .stopClosingDoor < rows.idxOf .stayClosed := by
  have hopen : nextRow (.firstEnabled rows complete) .OPEN true true =
      some .keepOpen ↔ rows.idxOf .keepOpen < rows.idxOf .closeDoor := by
    apply RowChoice.firstEnabled_iff (by decide) complete
    intro row
    cases row <;> decide
  have hclosing : nextRow (.firstEnabled rows complete) .CLOSING true true =
      some .stopClosingDoor ↔
        rows.idxOf .stopClosingDoor < rows.idxOf .stayClosed := by
    apply RowChoice.firstEnabled_iff (by decide) complete
    intro row
    cases row <;> decide
  rw [← hopen, ← hclosing]
  exact ⟨fun h => ⟨h.keepOpen, h.stopClosing⟩, fun h => ⟨h.1, h.2⟩⟩

/-- The rows in the order in which the documentation tells of them. -/
def documentedRows : List Row :=
  [.openDoor, .stayOpen, .closeDoor, .keepOpen, .stayClosed, .stopClosingDoor]

theorem documentedRows_complete (row : Row) : row ∈ documentedRows := by
  cases row <;> decide

def documentedChoice : RowChoice Row :=
  .firstEnabled documentedRows documentedRows_complete

/-- The rows with the requests before the timeouts. -/
def requestsFirstRows : List Row :=
  [.openDoor, .stayOpen, .keepOpen, .closeDoor, .stopClosingDoor, .stayClosed]

theorem requestsFirstRows_complete (row : Row) : row ∈ requestsFirstRows := by
  cases row <;> decide

def requestsFirstChoice : RowChoice Row :=
  .firstEnabled requestsFirstRows requestsFirstRows_complete

theorem requestsFirstChoice_prefers : PrefersRequests requestsFirstChoice :=
  (prefersRequests_firstEnabled_iff _ _).mpr (by decide)

theorem not_documentedChoice_prefers : ¬ PrefersRequests documentedChoice :=
  mt (prefersRequests_firstEnabled_iff _ _).mp (by decide)

end Tables

end AutomaticDoor.GuardedFiring
