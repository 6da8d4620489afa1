import AutomaticDoor.DoorRefinement
import AutomaticDoor.DoorwayRuns
import AutomaticDoor.PeripheralSetup
import AutomaticDoor.TimerAccuracy

/-!
What the runs of the doorway say of the firmware, whichever of the enabled rows
`fsm_fire` executes.
-/

namespace AutomaticDoor.FirmwareRuns

open AutomaticDoor.BoardRegisters
open AutomaticDoor.ConfigurationFrames
open AutomaticDoor.DoorConsistency
open AutomaticDoor.DoorRefinement
open AutomaticDoor.DoorStateMachine
open AutomaticDoor.DoorSystem
open AutomaticDoor.DoorwayModel
open AutomaticDoor.DoorwayRuns
open AutomaticDoor.ExtiLines
open AutomaticDoor.Foundations.EventSystems
open AutomaticDoor.Foundations.RowChoices
open AutomaticDoor.GuardedFiring
open AutomaticDoor.InterruptHandlers
open AutomaticDoor.PeripheralSetup
open AutomaticDoor.PortLed
open AutomaticDoor.RequestPolling
open AutomaticDoor.TimerAccuracy
open AutomaticDoor.TimerSetting
open AutomaticDoor.UpdateInterrupts

/-- The closed door that the initializations have prepared. -/
structure Started (cfg : DoorConfig) (clock : Nat) (d : Door) : Prop where
  start : DocumentedStart cfg d
  prepared : Prepared cfg clock (setupOf cfg.leds d.board)
  idle : ∀ t, updatePending t d.board = false
  safe : SafeTimes cfg clock

/-- Whether an event executes `do_open_door`, directly or through
`do_stop_closing_door`. -/
def opensDoor (choice : RowChoice Row) (d : Door) (e : SystemEvent) : Bool :=
  decide (e = .fire) && (choice.choose (enabled d)).any Row.opensDoor

section Transfer

variable {cfg : DoorConfig} {clock : Nat} {choice : RowChoice Row} {w w' : Doorway}
  {d d' : Door} {events : List SystemEvent}

theorem Started.represents (h : Started cfg clock d) :
    Represents cfg clock (doorwayOf d) d :=
  represents_start h.start h.prepared h.idle h.safe

theorem exists_doorway (h : Represents cfg clock w d)
    (hrun : runEvents (systemStep cfg choice) d events = some d') :
    ∃ w', runEvents (Doorway.step (timingOf cfg clock) choice) w events = some w' ∧
      Represents cfg clock w' d' := by
  have hruns := represents_run choice h events
  rw [hrun] at hruns
  exact exists_of_rel_some hruns

theorem exists_door (h : Represents cfg clock w d)
    (hrun : runEvents (Doorway.step (timingOf cfg clock) choice) w events = some w') :
    ∃ d', runEvents (systemStep cfg choice) d events = some d' ∧
      Represents cfg clock w' d' := by
  have hruns := represents_run choice h events
  rw [hrun] at hruns
  exact exists_of_some_rel hruns

theorem exists_reached_door (h : Represents cfg clock w d)
    (hreaches : Reaches (Doorway.step (timingOf cfg clock) choice) w w') :
    ∃ d', Reaches (systemStep cfg choice) d d' ∧ Represents cfg clock w' d' := by
  obtain ⟨events, hrun⟩ := hreaches
  obtain ⟨d', hrun', hd'⟩ := exists_door h hrun
  exact ⟨d', ⟨events, hrun'⟩, hd'⟩

end Transfer

theorem documentedConfig_safeTimes :
    SafeTimes documentedConfig (startClock undivided) where
  states s htimed := by
    have hclosing : SafeSetting 16000000 5000 :=
      safeSetting_iff.mpr (by norm_num [requestedCount])
    have hopen : SafeSetting 16000000 10000 :=
      safeSetting_iff.mpr (by norm_num [requestedCount])
    cases s with
    | CLOSED => cases htimed
    | OPENING | CLOSING => exact hclosing
    | OPEN => exact hopen
  blinks l := by
    have hgreen : SafeSetting 16000000 500 :=
      safeSetting_iff.mpr (by norm_num [requestedCount])
    have hred : SafeSetting 16000000 100 :=
      safeSetting_iff.mpr (by norm_num [requestedCount])
    cases l with
    | opening => exact hgreen
    | closing => exact hred

theorem startedDoor_started (cfg : DoorConfig) (hpre : Fin 16) {calls : List InitCall}
    (hall : InitializesAll calls) (lastTime : Word)
    (hsafe : SafeTimes cfg (startClock hpre)) :
    Started cfg (startClock hpre) (startedDoor cfg hpre calls lastTime) where
  start := startedDoor_documentedStart cfg hpre lastTime calls
  prepared := startedDoor_prepared cfg hpre hall lastTime
  idle := startedDoor_idle cfg hpre lastTime calls
  safe := hsafe

theorem documentedStart_started :
    Started documentedConfig (startClock undivided) documentedStart :=
  startedDoor_started documentedConfig undivided documentedInits_all 0#32
    documentedConfig_safeTimes

/-- A presence, and the poll that sees it. -/
def openingRun : List SystemEvent := [.serve ⟨.pir, true⟩, .fire]

section Safety

variable {cfg : DoorConfig} {clock : Nat} {choice : RowChoice Row} {d₀ d₁ d₂ : Door}
  {before after events : List SystemEvent}

end Safety

section Liveness

variable {cfg : DoorConfig} {clock : Nat} {choice : RowChoice Row} {d₀ d₁ d₂ : Door}
  {before : List SystemEvent}

/-- Whatever has happened, the door can still come to each of its states. -/
theorem no_state_is_final (hstarted : Started cfg clock d₀)
    (hbefore : runEvents (systemStep cfg choice) d₀ before = some d₁)
    (s : DoorState) :
    ∃ d₂, Reaches (systemStep cfg choice) d₁ d₂ ∧ d₂.fsm.currentState = s := by
  obtain ⟨w₁, -, h₁⟩ := exists_doorway hstarted.represents hbefore
  obtain ⟨w₂, hreaches, rfl, -⟩ := reaches_state (timingOf cfg clock) choice w₁ s
  obtain ⟨d₂, hd₂, h₂⟩ := exists_reached_door h₁ hreaches
  exact ⟨d₂, hd₂, h₂.state⟩

theorem no_state_is_final_closing :
    ∃ d₁, runEvents (systemStep documentedConfig documentedChoice) documentedStart
        openingRun = some d₁ ∧
      ∃ d₂, Reaches (systemStep documentedConfig documentedChoice) d₁ d₂ ∧
        d₂.fsm.currentState = .CLOSING :=
  ⟨_, rfl, @no_state_is_final _ _ documentedChoice _ _ openingRun
    documentedStart_started rfl .CLOSING⟩

end Liveness

section Periods

variable {cfg : DoorConfig} {clock : Nat} {choice : RowChoice Row} {w : Doorway}
  {d₀ d : Door} {events : List SystemEvent}

/-- The duration for which a timer runs in a state. -/
def durationMs (cfg : DoorConfig) (s : DoorState) : Timer → Word
  | .TIM2 => stateTimeoutMs cfg s
  | .TIM3 => (cfg.leds.hw .opening).timerBlinkSemiPeriodMs
  | .TIM4 => (cfg.leds.hw .closing).timerBlinkSemiPeriodMs

/-- The period of a timer is within half a prescaled tick of a duration. -/
def Accurate (clock ms : Nat) (r : TimRegs) : Prop :=
  |((r.arr.toNat : ℚ) + 1) * (r.psc.toNat + 1) - requestedCount clock ms| ≤
    ((r.psc.toNat : ℚ) + 1) / 2

theorem accurate_of_loaded {ms : Nat} {r : TimRegs} (hsafe : SafeSetting clock ms)
    (harr : r.arr = loadedArr clock ms) (hpsc : r.psc = loadedPsc clock ms) :
    Accurate clock ms r := by
  obtain ⟨hlt, hbound⟩ := safeSetting_iff.mp hsafe
  obtain ⟨psc, arr, hfits, -⟩ := exists_fits (by linarith) hbound
  rw [Accurate, harr, hpsc, hfits.arr_loaded, hfits.psc_loaded]
  exact hfits.accurate

theorem loaded_of_running (h : Represents cfg clock w d) {t : Timer}
    (hcen : (d.board.tim t).cen = true) :
    (d.board.tim t).arr =
        loadedArr clock (durationMs cfg d.fsm.currentState t).toNat ∧
      (d.board.tim t).psc =
        loadedPsc clock (durationMs cfg d.fsm.currentState t).toNat := by
  have hblink : ∀ l : DoorLed,
      (d.board.tim l.timer).arr =
          loadedArr clock (cfg.leds.hw l).timerBlinkSemiPeriodMs.toNat ∧
        (d.board.tim l.timer).psc =
          loadedPsc clock (cfg.leds.hw l).timerBlinkSemiPeriodMs.toNat := fun l =>
    ⟨congrArg BlinkSetting.arr (h.prepared.blink l),
      congrArg BlinkSetting.psc (h.prepared.blink l)⟩
  cases t with
  | TIM2 =>
      have htimed : motorTimed w.state = true := h.works.motor.symm.trans hcen
      have hshot := h.works.timed htimed
      rw [h.state]
      exact ⟨hshot.arr, hshot.psc⟩
  | TIM3 => exact hblink .opening
  | TIM4 => exact hblink .closing

theorem safeSetting_of_running (h : Represents cfg clock w d) {t : Timer}
    (hcen : (d.board.tim t).cen = true) :
    SafeSetting clock (durationMs cfg d.fsm.currentState t).toNat := by
  cases t with
  | TIM2 =>
      have htimed : motorTimed w.state = true := h.works.motor.symm.trans hcen
      rw [h.state]
      exact h.safe.states w.state htimed
  | TIM3 => exact h.safe.blinks .opening
  | TIM4 => exact h.safe.blinks .closing

/-- Whenever a timer runs, its registers fit 16 bits, its counter is not blocked,
and its period is that of what it runs for. -/
theorem running_timers_accurate (hstarted : Started cfg clock d₀)
    (hrun : runEvents (systemStep cfg choice) d₀ events = some d) {t : Timer}
    (hcen : (d.board.tim t).cen = true) :
    (d.board.tim t).psc.toNat ≤ 65535 ∧
      1 ≤ (d.board.tim t).arr.toNat ∧ (d.board.tim t).arr.toNat ≤ 65535 ∧
      Accurate clock (durationMs cfg d.fsm.currentState t).toNat (d.board.tim t) := by
  obtain ⟨w, -, h⟩ := exists_doorway hstarted.represents hrun
  obtain ⟨harr, hpsc⟩ := loaded_of_running h hcen
  have hsafe := safeSetting_of_running h hcen
  obtain ⟨hlow, hhigh, hpscmax⟩ := loaded_of_safeSetting hsafe
  have haccurate := accurate_of_loaded hsafe harr hpsc
  rw [harr, hpsc]
  exact ⟨hpscmax, hlow, hhigh, haccurate⟩

theorem running_timers_accurate_openingRun :
    ∃ d, runEvents (systemStep documentedConfig documentedChoice) documentedStart
        openingRun = some d ∧
      (d.board.tim .TIM2).psc.toNat ≤ 65535 ∧
      1 ≤ (d.board.tim .TIM2).arr.toNat ∧ (d.board.tim .TIM2).arr.toNat ≤ 65535 ∧
      Accurate (startClock undivided) (durationMs documentedConfig d.fsm.currentState
        .TIM2).toNat (d.board.tim .TIM2) :=
  ⟨_, rfl, @running_timers_accurate _ _ documentedChoice _ _ openingRun
    documentedStart_started rfl .TIM2 rfl⟩

end Periods

section Timeouts

variable {cfg : DoorConfig} {clock : Nat} {choice : RowChoice Row} {w w' : Doorway}
  {d₀ d d' : Door} {e : SystemEvent} {events : List SystemEvent}

def executes (choice : RowChoice Row) (d : Door) (e : SystemEvent) : Bool :=
  decide (e = .fire) && (choice.choose (enabled d)).isSome

/-- The counts of the motor timer since the last transition, when there have
been `elapsed` of them before the run. -/
def countsSinceTransition (cfg : DoorConfig) (choice : RowChoice Row) :
    Door → (elapsed : Nat) → List SystemEvent → Nat
  | _, elapsed, [] => elapsed
  | d, elapsed, e :: events =>
      (systemStep cfg choice d e).elim elapsed fun d' =>
        countsSinceTransition cfg choice d'
          (if executes choice d e then 0
            else if e = .count .TIM2 then elapsed + 1 else elapsed)
          events

theorem elapsed_step (h : Represents cfg clock w d)
    (hstep : w.step (timingOf cfg clock) choice e = some w') :
    w'.elapsed =
      if executes choice d e then 0
      else if e = .count .TIM2 then w.elapsed + 1 else w.elapsed := by
  rw [executes, choose_eq_nextRow, nextRow_eq h]
  rcases step_cases hstep with ⟨s, rfl, rfl⟩ | ⟨rfl, rfl⟩ | ⟨rfl, -, rfl⟩ |
    ⟨l, rfl, -, rfl⟩ | ⟨rfl, rfl, hrow⟩ | ⟨row, rfl, rfl, hrow⟩
  · rfl
  · rfl
  · rfl
  · cases l <;> rfl
  · rw [hrow]
    rfl
  · rw [hrow]
    rfl

theorem elapsed_run (h : Represents cfg clock w d)
    (hrun : runEvents (systemStep cfg choice) d events = some d') :
    ∃ w', Represents cfg clock w' d' ∧
      w'.elapsed = countsSinceTransition cfg choice d w.elapsed events := by
  induction events generalizing d w with
  | nil =>
      obtain rfl : d = d' := by simpa using hrun
      exact ⟨w, h, rfl⟩
  | cons e events ih =>
      obtain ⟨u, hu, hrest⟩ := runEvents_cons_eq_some_iff.mp hrun
      obtain ⟨v, hv, huv⟩ := exists_doorway h
        ((runEvents_singleton d e).trans hu)
      rw [runEvents_singleton] at hv
      obtain ⟨w', hw', helapsed⟩ := ih huv hrest
      refine ⟨w', hw', helapsed.trans ?_⟩
      rw [countsSinceTransition, hu, Option.elim_some, elapsed_step h hv]

/-- A timeout is reported exactly when the door has been in its state for as
many counts as are programmed for that state: none is missed, and none is left
over from an earlier state. -/
theorem timeout_iff_elapsed (hstarted : Started cfg clock d₀)
    (hrun : runEvents (systemStep cfg choice) d₀ events = some d)
    (htimed : motorTimed d.fsm.currentState = true) :
    d.board.timeout = true ↔
      countsOf clock (stateTimeoutMs cfg d.fsm.currentState) ≤
        countsSinceTransition cfg choice d₀ 0 events := by
  obtain ⟨w, h, helapsed⟩ := elapsed_run hstarted.represents hrun
  rw [h.state] at htimed
  have htimeout : d.board.timeout = _ := (h.works.timed htimed).timeout_eq
  have hzero : (doorwayOf d₀).elapsed = 0 := rfl
  rw [htimeout, decide_eq_true_iff, h.state, helapsed, hzero]

theorem timeout_iff_elapsed_openingRun :
    ∃ d, runEvents (systemStep documentedConfig documentedChoice) documentedStart
        openingRun = some d ∧
      (d.board.timeout = true ↔
        countsOf (startClock undivided)
            (stateTimeoutMs documentedConfig d.fsm.currentState) ≤
          countsSinceTransition documentedConfig documentedChoice documentedStart 0
            openingRun) :=
  ⟨_, rfl, @timeout_iff_elapsed _ _ documentedChoice _ _ openingRun
    documentedStart_started rfl rfl⟩

end Timeouts

section Contests

variable {cfg : DoorConfig} {clock : Nat} {choice : RowChoice Row} {d₀ : Door}

/-- In every timed state a request can meet a timeout, and then it is `fsm_fire`
that decides. -/
theorem exists_contest (choice : RowChoice Row) (hstarted : Started cfg clock d₀)
    {s : DoorState} (htimed : motorTimed s = true) :
    ∃ d₁, Reaches (systemStep cfg choice) d₀ d₁ ∧ heldHigh .pir d₁.board = true ∧
      ∀ other : RowChoice Row, ∃ d₂, systemStep cfg other d₁ .fire = some d₂ ∧
        d₂.fsm.currentState = (nextRow other s true true).elim s Row.destination := by
  obtain ⟨u, hreaches, rfl, hexpired, hheld⟩ :=
    reaches_contest (timingOf cfg clock) choice (doorwayOf d₀) htimed
  obtain ⟨d₁, hd₁, h₁⟩ := exists_reached_door hstarted.represents hreaches
  refine ⟨d₁, hd₁, (h₁.high .pir).trans hheld, ?_⟩
  intro other
  obtain ⟨d₂, hpoll, h₂⟩ := represents_poll other h₁
  refine ⟨d₂, hpoll, h₂.state.trans ?_⟩
  rw [Doorway.fire, requested_of_heldBy hheld, hexpired]
  cases nextRow other u.state true true <;> rfl

/-- From the first poll that sees it, a request that is held keeps the door
open. -/
def HeldRequestsKeepOpen (cfg : DoorConfig) (choice : RowChoice Row) (d₀ : Door) :
    Prop :=
  ∀ (l : Line) (before after : List SystemEvent) (d₁ d₂ : Door),
    runEvents (systemStep cfg choice) d₀ before = some d₁ →
      requests l (heldHigh l d₁.board) = true → Holds l after → .fire ∈ after →
        runEvents (systemStep cfg choice) d₁ after = some d₂ →
          presenceReported d₂.fsm.currentState = true

theorem presence_of_contest (hstarted : Started cfg clock d₀)
    (h : HeldRequestsKeepOpen cfg choice d₀) {s : DoorState}
    (htimed : motorTimed s = true) :
    presenceReported ((nextRow choice s true true).elim s Row.destination) = true := by
  obtain ⟨d₁, ⟨before, hbefore⟩, hheld, hfire⟩ :=
    exists_contest choice hstarted htimed
  obtain ⟨d₂, hstep, hstate⟩ := hfire choice
  have hholds : Holds .pir [.fire] := by
    intro s hs
    cases List.mem_singleton.mp hs
  rw [← hstate]
  apply h .pir before [.fire] d₁ d₂ hbefore hheld hholds (by simp)
  rw [runEvents_singleton]
  exact hstep

/-- The requests have to be preferred to the timeouts, and that is enough. -/
theorem held_requests_keep_open_iff (choice : RowChoice Row)
    (hstarted : Started cfg clock d₀) :
    HeldRequestsKeepOpen cfg choice d₀ ↔ PrefersRequests choice := by
  constructor
  · intro h
    have hopen := presence_of_contest hstarted h (s := .OPEN) rfl
    have hclosing := presence_of_contest hstarted h (s := .CLOSING) rfl
    constructor
    · rcases contest_open choice with hrow | hrow
      · exact hrow
      · rw [hrow] at hopen
        cases hopen
    · rcases contest_closing choice with hrow | hrow
      · exact hrow
      · rw [hrow] at hclosing
        cases hclosing
  · intro hprefers l before after d₁ d₂ hbefore hheld hholds hpolled hafter
    obtain ⟨w₁, -, h₁⟩ := exists_doorway hstarted.represents hbefore
    obtain ⟨w₂, hrun, h₂⟩ := exists_doorway h₁ hafter
    rw [h₁.high] at hheld
    rw [h₂.state]
    exact presence_of_fire_mem hprefers hheld hholds hpolled hrun

/-- In the order of the documentation a timeout closes the door on a request. -/
theorem held_requests_keep_open_documented :
    HeldRequestsKeepOpen documentedConfig requestsFirstChoice documentedStart ∧
      ¬ HeldRequestsKeepOpen documentedConfig documentedChoice documentedStart :=
  ⟨(held_requests_keep_open_iff requestsFirstChoice documentedStart_started).mpr
      requestsFirstChoice_prefers,
    mt (held_requests_keep_open_iff documentedChoice documentedStart_started).mp
      not_documentedChoice_prefers⟩

/-- In a contest the choices take the door to the same state. -/
theorem destination_eq_of_same_runs (hstarted : Started cfg clock d₀)
    {choice other : RowChoice Row}
    (hsame : ∀ events, runEvents (systemStep cfg choice) d₀ events =
      runEvents (systemStep cfg other) d₀ events)
    {s : DoorState} (htimed : motorTimed s = true) :
    (nextRow choice s true true).elim s Row.destination =
      (nextRow other s true true).elim s Row.destination := by
  obtain ⟨d₁, ⟨before, hbefore⟩, -, hfire⟩ := exists_contest choice hstarted htimed
  obtain ⟨d₂, hstep, hstate⟩ := hfire choice
  obtain ⟨d₂', hstep', hstate'⟩ := hfire other
  have hbefore' := (hsame before).symm.trans hbefore
  have hruns := hsame (before ++ [.fire])
  rw [runEvents_append, runEvents_append, hbefore, hbefore'] at hruns
  simp only [Option.bind_some, runEvents_singleton, hstep, hstep',
    Option.some.injEq] at hruns
  rw [← hstate, ← hstate', hruns]

theorem systemStep_eq_of_nextRow {choice other : RowChoice Row}
    (h : ∀ s requested expired,
      nextRow choice s requested expired = nextRow other s requested expired) :
    systemStep cfg choice = systemStep cfg other := by
  funext d e
  cases e with
  | fire => simp only [systemStep, poll, fireChosen, choose_eq_nextRow, h]
  | serve | sysTick | count => rfl

/-- Two choices make the same door exactly when they agree where a request and a
timeout meet, in the open and in the closing door. -/
theorem same_runs_iff (hstarted : Started cfg clock d₀) (choice other : RowChoice Row) :
    (∀ events, runEvents (systemStep cfg choice) d₀ events =
        runEvents (systemStep cfg other) d₀ events) ↔
      nextRow choice .OPEN true true = nextRow other .OPEN true true ∧
        nextRow choice .CLOSING true true = nextRow other .CLOSING true true := by
  constructor
  · intro hsame
    -- rows that lead to different states are told apart by the state
    constructor
    · have hopen := destination_eq_of_same_runs hstarted hsame (s := .OPEN) rfl
      rcases contest_open choice with h₁ | h₁ <;>
        rcases contest_open other with h₂ | h₂ <;>
        rw [h₁, h₂] at hopen ⊢ <;> cases hopen
    · have hclosing := destination_eq_of_same_runs hstarted hsame (s := .CLOSING) rfl
      rcases contest_closing choice with h₁ | h₁ <;>
        rcases contest_closing other with h₂ | h₂ <;>
        rw [h₁, h₂] at hclosing ⊢ <;> cases hclosing
  · rintro ⟨hopen, hclosing⟩ events
    rw [systemStep_eq_of_nextRow (nextRow_eq_of_contests hopen hclosing)]

theorem same_runs_documented :
    ¬ ∀ events, runEvents (systemStep documentedConfig documentedChoice)
        documentedStart events =
      runEvents (systemStep documentedConfig requestsFirstChoice)
        documentedStart events :=
  mt (same_runs_iff documentedStart_started documentedChoice
    requestsFirstChoice).mp (by decide)

end Contests

end AutomaticDoor.FirmwareRuns
