import Mathlib.Algebra.Group.Nat.Defs
import AutomaticDoor.DoorConsistency

/-!
The main loop, and the presence messages that it prints.
-/

namespace AutomaticDoor.MainLoop

open AutomaticDoor.BoardRegisters
open AutomaticDoor.DoorConsistency
open AutomaticDoor.DoorStateMachine
open AutomaticDoor.Foundations.EventSystems
open AutomaticDoor.InterruptHandlers
open AutomaticDoor.PortLed
open AutomaticDoor.PortSystem

/-- The conversion `%ld`: the 32 bits of the argument as a signed number. -/
def formatLd (x : Word) : String := toString x.toInt

def presenceMessage (time : String) : String :=
  "PRESENCE!!! Presence detected at " ++ time ++ ". Opening door...\n"

structure LoopState where
  door : Door
  previousPresenceStatus : Bool

/-- The body of the loop after `fsm_fire`: what is printed, and the variable
for the next iteration. -/
def reportPresence (previousPresenceStatus : Bool) (d : Door) :
    Option String × Bool :=
  let currentPresenceStatus := fsmAutomaticDoorGetPresenceStatus d
  if currentPresenceStatus ≠ previousPresenceStatus then
    let lastTimePresenceOrButton := fsmAutomaticDoorGetLastTimePresence d
    if currentPresenceStatus then
      (some (presenceMessage (formatLd lastTimePresenceOrButton)),
        currentPresenceStatus)
    else (none, currentPresenceStatus)
  else (none, previousPresenceStatus)

/-- What an iteration has done: the door that `fsm_fire` found, the row that it
executed and the line that was printed. -/
structure Iteration where
  before : Door
  row : Option Row
  printed : Option String

def Iteration.opensDoor (it : Iteration) : Bool :=
  it.row.any Row.opensDoor

def Iteration.recorded (cfg : DoorConfig) (it : Iteration) : Word :=
  match it.row with
  | some row => fsmAutomaticDoorGetLastTimePresence (row.action cfg it.before)
  | none => fsmAutomaticDoorGetLastTimePresence it.before

/-- One iteration of the loop.  The guards decide which row is executed, if
any, among those that leave the current state. -/
def iterate (cfg : DoorConfig) (s : LoopState) (row : Option Row) :
    Option (LoopState × Iteration) :=
  (fsmFire cfg s.door row).map fun d =>
    let report := reportPresence s.previousPresenceStatus d
    (⟨d, report.2⟩, ⟨s.door, row, report.1⟩)

inductive LoopEvent
  | interrupt (i : Interrupt)
  | iteration (row : Option Row)

def loopStep (cfg : DoorConfig) (s : LoopState × List Iteration) :
    LoopEvent → Option (LoopState × List Iteration)
  | .interrupt i =>
      (interruptDoor cfg s.1.door i).map fun d =>
        (⟨d, s.1.previousPresenceStatus⟩, s.2)
  | .iteration row =>
      (iterate cfg s.1 row).map fun next => (next.1, s.2 ++ [next.2])

structure LoopStart (s : LoopState × List Iteration) : Prop where
  state : s.1.door.fsm.currentState = .CLOSED
  presence : s.1.door.fsm.presenceOrButtonStatus = false
  previous : s.1.previousPresenceStatus = false
  iterations : s.2 = []

/-- There are as many lines as openings, each line is printed in the iteration
of its opening, and it shows the time recorded there. -/
structure OneMessagePerOpening (cfg : DoorConfig) (its : List Iteration) :
    Prop where
  counts : its.countP (·.printed.isSome) = its.countP (·.opensDoor)
  iterations : ∀ it ∈ its, it.printed.isSome = it.opensDoor
  times : ∀ it ∈ its, ∀ line, it.printed = some line →
    line = presenceMessage (toString (it.recorded cfg).toNat)

section Messages

theorem presenceMessage_inj {x y : String} :
    presenceMessage x = presenceMessage y ↔ x = y :=
  (String.append_left_inj _).trans (String.append_right_inj _)

theorem not_neg_mem_repr (n : Nat) : '-' ∉ n.repr.toList := by
  rw [Nat.toList_repr]
  intro hmem
  have hdigit := Nat.isDigit_of_mem_toDigits (b := 10) (by decide) (by decide) hmem
  revert hdigit
  decide

/-- The signed conversion shows the unsigned value below `2 ^ 31` only. -/
theorem formatLd_eq_iff (x : Word) :
    formatLd x = toString x.toNat ↔ x.toNat < 2 ^ 31 := by
  rw [formatLd, BitVec.toInt_eq_toNat_cond]
  constructor
  · intro heq
    by_contra hge
    rw [if_neg (by omega)] at heq
    obtain ⟨n, hn⟩ := Int.eq_negSucc_of_lt_zero
      (show (x.toNat : Int) - (2 ^ 32 : Nat) < 0 by omega)
    rw [hn] at heq
    -- a sign is no digit
    have hsign : '-' ∈ x.toNat.repr.toList := by
      have hrepr : x.toNat.repr = "-" ++ (n + 1).repr := heq.symm
      rw [hrepr, String.toList_append]
      exact List.mem_append_left _ (by decide)
    exact not_neg_mem_repr _ hsign
  · intro hlt
    rw [if_pos (by omega)]
    rfl
end Messages

section Iterations

variable {cfg : DoorConfig}

/-- An opening records the time at which it is executed. -/
theorem recorded_of_opensDoor {it : Iteration} (h : it.opensDoor = true) :
    it.recorded cfg = it.before.board.msTicks := by
  obtain ⟨before, row, printed⟩ := it
  cases row with
  | none => cases h
  | some row =>
      cases row with
      | openDoor | stopClosingDoor =>
          simp [Iteration.recorded, Row.action, doOpenDoor, doStopClosingDoor,
            fsmAutomaticDoorGetLastTimePresence, portSystemGetMillis,
            portLedOff, combineOdr, portLedTimerActivate,
            portLedTimerDeactivate]
      | stayOpen | keepOpen | closeDoor | stayClosed => cases h

/-- The invariant of the loop: its variable is the presence flag, which is that
of the state of the door. -/
structure FlagsAgree (s : LoopState) : Prop where
  previous : s.previousPresenceStatus = presenceReported s.door.fsm.currentState
  presence : s.door.fsm.presenceOrButtonStatus =
    presenceReported s.door.fsm.currentState

theorem presenceReported_rises_iff (row : Row) :
    (presenceReported row.destination ≠ presenceReported row.origin ∧
      presenceReported row.destination = true) ↔ row.opensDoor = true := by
  cases row <;> decide

theorem reportPresence_snd (previous : Bool) (d : Door) :
    (reportPresence previous d).2 = fsmAutomaticDoorGetPresenceStatus d := by
  simp only [reportPresence]
  split
  · split <;> rfl
  · rename_i hsame
    exact (not_not.mp hsame).symm

theorem reportPresence_fst (previous : Bool) (d : Door) :
    (reportPresence previous d).1 =
      if fsmAutomaticDoorGetPresenceStatus d ≠ previous ∧
          fsmAutomaticDoorGetPresenceStatus d = true then
        some (presenceMessage (formatLd (fsmAutomaticDoorGetLastTimePresence d)))
      else none := by
  simp only [reportPresence]
  split
  · rename_i hchanged
    split <;> simp_all
  · simp_all

theorem iterate_spec {s t : LoopState} {row : Option Row} {it : Iteration}
    (hs : FlagsAgree s) (h : iterate cfg s row = some (t, it)) :
    FlagsAgree t ∧ it.printed =
      if it.opensDoor then some (presenceMessage (formatLd (it.recorded cfg)))
      else none := by
  obtain ⟨d, hd, hnext⟩ := Option.map_eq_some_iff.mp h
  cases hnext
  rw [reportPresence_fst]
  cases row with
  | none =>
      obtain rfl : s.door = d := Option.some.inj hd
      refine ⟨⟨?_, hs.presence⟩, ?_⟩
      · rw [reportPresence_snd]
        exact hs.presence
      · rw [fsmAutomaticDoorGetPresenceStatus, hs.presence, hs.previous]
        simp [Iteration.opensDoor]
  | some row =>
      obtain ⟨horigin, rfl⟩ := fsmFire_some_eq_some_iff.mp hd
      have hpresence : (row.action cfg s.door).fsm.presenceOrButtonStatus =
          presenceReported row.destination :=
        presence_action cfg row (horigin ▸ hs.presence)
      refine ⟨⟨?_, hpresence⟩, ?_⟩
      · rw [reportPresence_snd]
        exact hpresence
      · simp only [fsmAutomaticDoorGetPresenceStatus, hpresence, hs.previous,
          horigin, presenceReported_rises_iff]
        rfl

structure Reported (cfg : DoorConfig) (s : LoopState × List Iteration) :
    Prop where
  flags : FlagsAgree s.1
  printed : ∀ it ∈ s.2, it.printed =
    if it.opensDoor then some (presenceMessage (formatLd (it.recorded cfg)))
    else none

theorem reported_start {s : LoopState × List Iteration} (h : LoopStart s) :
    Reported cfg s where
  flags := by
    refine ⟨?_, ?_⟩ <;> rw [h.state]
    · exact h.previous
    · exact h.presence
  printed := by simp [h.iterations]

theorem reported_step (s : LoopState × List Iteration) (e : LoopEvent)
    (t : LoopState × List Iteration) (hs : Reported cfg s)
    (hstep : loopStep cfg s e = some t) : Reported cfg t := by
  cases e with
  | interrupt i =>
      obtain ⟨d, hd, rfl⟩ := Option.map_eq_some_iff.mp hstep
      obtain ⟨b, _, rfl⟩ := interruptDoor_eq_some_iff.mp hd
      exact ⟨⟨hs.flags.previous, hs.flags.presence⟩, hs.printed⟩
  | iteration row =>
      obtain ⟨⟨next, it⟩, hnext, rfl⟩ := Option.map_eq_some_iff.mp hstep
      obtain ⟨hflags, hprinted⟩ := iterate_spec hs.flags hnext
      refine ⟨hflags, ?_⟩
      intro other hother
      rcases List.mem_append.mp hother with hold | hnew
      · exact hs.printed other hold
      · obtain rfl : other = it := List.mem_singleton.mp hnew
        exact hprinted

theorem Reported.isSome_printed {s : LoopState × List Iteration}
    (h : Reported cfg s) :
    ∀ it ∈ s.2, it.printed.isSome = it.opensDoor := by
  intro it hit
  rw [h.printed it hit]
  cases it.opensDoor <;> rfl

theorem Reported.counts {s : LoopState × List Iteration}
    (h : Reported cfg s) :
    s.2.countP (·.printed.isSome) = s.2.countP (·.opensDoor) := by
  apply List.countP_congr
  intro it hit
  rw [h.isSome_printed it hit]

theorem oneMessagePerOpening_iff {s : LoopState × List Iteration}
    (h : Reported cfg s) :
    OneMessagePerOpening cfg s.2 ↔
      ∀ it ∈ s.2, it.opensDoor = true →
        it.before.board.msTicks.toNat < 2 ^ 31 := by
  have htime : ∀ it ∈ s.2, it.opensDoor = true →
      ((∀ line, it.printed = some line →
          line = presenceMessage (toString (it.recorded cfg).toNat)) ↔
        it.before.board.msTicks.toNat < 2 ^ 31) := by
    intro it hit hopens
    have hrecorded : it.recorded cfg = it.before.board.msTicks :=
      recorded_of_opensDoor hopens
    rw [h.printed it hit, if_pos hopens, ← hrecorded, ← formatLd_eq_iff,
      ← presenceMessage_inj]
    simp
  constructor
  · intro hone it hit hopens
    exact (htime it hit hopens).mp (hone.times it hit)
  · intro hbound
    refine ⟨h.counts, h.isSome_printed, ?_⟩
    intro it hit line hline
    have hopens : it.opensDoor = true := by
      rw [← h.isSome_printed it hit, hline]
      rfl
    exact (htime it hit hopens).mpr (hbound it hit hopens) line hline

end Iterations

/-- Over every run of the loop each opening prints one line, in its own
iteration.  The lines show the times recorded exactly when the door has been
opened at less than `2 ^ 31` ticks each time. -/
theorem one_message_per_opening_iff (cfg : DoorConfig)
    (s t : LoopState × List Iteration) (hstart : LoopStart s)
    (events : List LoopEvent)
    (hrun : runEvents (loopStep cfg) s events = some t) :
    (OneMessagePerOpening cfg t.2 ↔
        ∀ it ∈ t.2, it.opensDoor = true →
          it.before.board.msTicks.toNat < 2 ^ 31) ∧
      t.2.countP (·.printed.isSome) = t.2.countP (·.opensDoor) ∧
      ∀ it ∈ t.2, it.printed.isSome = it.opensDoor := by
  have hreported : Reported cfg t :=
    invariant_of_runEvents' reported_step (reported_start hstart) hrun
  exact ⟨oneMessagePerOpening_iff hreported, hreported.counts,
    hreported.isSome_printed⟩

def closedAt (msTicks : Word) : LoopState × List Iteration :=
  (⟨⟨{ Board.reset with msTicks := msTicks }, ⟨.CLOSED, false, 0⟩⟩, false⟩, [])

theorem closedAt_start (msTicks : Word) : LoopStart (closedAt msTicks) :=
  ⟨rfl, rfl, rfl, rfl⟩

def reopeningLoop : List LoopEvent :=
  [.iteration none, .iteration (some .openDoor), .interrupt .sysTick,
    .iteration (some .stayOpen), .iteration (some .closeDoor),
    .iteration (some .stopClosingDoor)]

theorem one_message_per_opening_reopening :
    ∃ t, runEvents (loopStep documentedConfig) (closedAt 1000) reopeningLoop =
        some t ∧
      t.2.countP (·.printed.isSome) = t.2.countP (·.opensDoor) :=
  ⟨_, rfl, (one_message_per_opening_iff documentedConfig (closedAt 1000) _
    (closedAt_start 1000) reopeningLoop rfl).2.1⟩

theorem negative_time_printed :
    LoopStart (closedAt 2147483648) ∧
      ∃ t, runEvents (loopStep documentedConfig) (closedAt 2147483648)
          [.iteration (some .openDoor)] = some t ∧
        t.2.map (·.printed) = [some (presenceMessage "-2147483648")] ∧
        ¬ OneMessagePerOpening documentedConfig t.2 := by
  have hstart := closedAt_start 2147483648
  obtain ⟨t, hrun⟩ : ∃ t, runEvents (loopStep documentedConfig)
      (closedAt 2147483648) [.iteration (some .openDoor)] = some t := ⟨_, rfl⟩
  have hreported : Reported documentedConfig t :=
    invariant_of_runEvents' reported_step (reported_start hstart) hrun
  obtain ⟨it, hits, hopens, hticks⟩ : ∃ it, t.2 = [it] ∧
      it.opensDoor = true ∧ it.before.board.msTicks = 2147483648 := by
    cases hrun
    exact ⟨_, rfl, rfl, rfl⟩
  have hit : it ∈ t.2 := by simp [hits]
  refine ⟨hstart, t, hrun, ?_, ?_⟩
  · have htext : formatLd 2147483648 = "-2147483648" := by decide
    rw [hits, List.map_singleton, hreported.printed it hit, if_pos hopens,
      recorded_of_opensDoor hopens, hticks, htext]
  · intro hone
    have hbound := (oneMessagePerOpening_iff hreported).mp hone it hit hopens
    rw [hticks] at hbound
    exact absurd hbound (by decide)

end AutomaticDoor.MainLoop
