import AutomaticDoor.DoorwayModel

/-!
Runs of the doorway: how soon it can reach each state after an opening, how it
closes when it is left alone, and how it stays open for a request.
-/

namespace AutomaticDoor.DoorwayRuns

open AutomaticDoor.DoorConsistency
open AutomaticDoor.DoorStateMachine
open AutomaticDoor.DoorSystem
open AutomaticDoor.DoorwayModel
open AutomaticDoor.Foundations.EventSystems
open AutomaticDoor.Foundations.RowChoices
open AutomaticDoor.GuardedFiring
open AutomaticDoor.InterruptHandlers
open AutomaticDoor.PortLed
open AutomaticDoor.RequestPolling

/-- The motor timer's counts that a run contains. -/
def motorCounts (events : List SystemEvent) : Nat := events.count (.count .TIM2)

/-- Whether an event executes `do_open_door`, directly or through
`do_stop_closing_door`. -/
def opening (timing : Timing) (choice : RowChoice Row) (w : Doorway)
    (e : SystemEvent) : Bool :=
  decide (e = .fire) &&
    (nextRow choice w.state w.requested (w.expired timing)).any Row.opensDoor

/-- The transitions to go until the door is closed, when there is no request. -/
def stagesLeft : DoorState → Nat
  | .CLOSED => 0
  | .CLOSING => 1
  | .OPEN => 2
  | .OPENING => 3

/-- The state that a timeout leads to when there is no request. -/
def afterTimeout : DoorState → DoorState
  | .OPENING => .OPEN
  | .OPEN => .CLOSING
  | .CLOSING | .CLOSED => .CLOSED

section Steps

variable {timing : Timing} {choice : RowChoice Row} {w w' : Doorway}

/-- What an event can do: a request is served, a tick passes, a timer counts,
or a row is executed whose guard holds. -/
theorem step_cases {e : SystemEvent} (h : w.step timing choice e = some w') :
    (∃ s, e = .serve s ∧ w' = w.serve s) ∨
      (e = .sysTick ∧ w' = { w with ticks := w.ticks + 1 }) ∨
      (e = .count .TIM2 ∧ motorTimed w.state = true ∧
        w' = { w with elapsed := w.elapsed + 1 }) ∨
      (∃ l : DoorLed, e = .count l.timer ∧ w.blinking l = true ∧
        w' = w.countedBlink l) ∨
      (e = .fire ∧ w' = w ∧
        nextRow choice w.state w.requested (w.expired timing) = none) ∨
      ∃ row, e = .fire ∧ w' = w.take row ∧
        nextRow choice w.state w.requested (w.expired timing) = some row := by
  cases e with
  | serve s => exact .inl ⟨s, rfl, (Option.some.inj h).symm⟩
  | sysTick => exact .inr (.inl ⟨rfl, (Option.some.inj h).symm⟩)
  | count t =>
      have hblink : ∀ l : DoorLed, w.countBlink l = some w' →
          w.blinking l = true ∧ w' = w.countedBlink l := by
        intro l hcount
        rw [Doorway.countBlink, Option.ite_none_right_eq_some] at hcount
        exact ⟨hcount.1, (Option.some.inj hcount.2).symm⟩
      cases t with
      | TIM2 =>
          rw [Doorway.step, Doorway.countMotor,
            Option.ite_none_right_eq_some] at h
          exact .inr (.inr (.inl ⟨rfl, h.1, (Option.some.inj h.2).symm⟩))
      | TIM3 => exact .inr (.inr (.inr (.inl ⟨.opening, rfl, hblink .opening h⟩)))
      | TIM4 => exact .inr (.inr (.inr (.inl ⟨.closing, rfl, hblink .closing h⟩)))
  | fire =>
      have hfire : w' = w.fire timing choice := (Option.some.inj h).symm
      rw [Doorway.fire] at hfire
      cases hrow : nextRow choice w.state w.requested (w.expired timing) with
      | none =>
          rw [hrow] at hfire
          exact .inr (.inr (.inr (.inr (.inl ⟨rfl, hfire, rfl⟩))))
      | some row =>
          rw [hrow] at hfire
          exact .inr (.inr (.inr (.inr (.inr ⟨row, rfl, hfire, rfl⟩))))

end Steps

section Spacing

variable {timing : Timing} {choice : RowChoice Row} {w w' : Doorway}

end Spacing

/-- An event that serves no request. -/
def Calm : SystemEvent → Prop
  | .serve s => requests s.line s.high = false
  | .sysTick | .count _ | .fire => True

instance : DecidablePred Calm
  | .serve s => inferInstanceAs (Decidable (requests s.line s.high = false))
  | .sysTick | .count _ | .fire => inferInstanceAs (Decidable True)

/-- A poll that comes after the given counts of the motor timer. -/
structure Round (counts : Nat) (events : List SystemEvent) : Prop where
  calm : ∀ e ∈ events, Calm e
  polled : ∃ body, events = body ++ [.fire] ∧ counts ≤ motorCounts body

/-- No timed state takes more counts than these. -/
def Covers (counts : Nat) (timing : Timing) : Prop :=
  ∀ s, motorTimed s = true → timing.stateCounts s ≤ counts

section Closing

variable {timing : Timing} {choice : RowChoice Row} {w w' : Doorway}

theorem requested_serve {s : Service} (hcalm : requests s.line s.high = false)
    (h : w.requested = false) : (w.serve s).requested = false := by
  simp only [Doorway.requested, Bool.or_eq_false_iff, Doorway.serve] at h ⊢
  obtain ⟨hpir, hbutton⟩ := h
  constructor
  · split
    · rename_i hline
      rw [← hline] at hcalm
      exact hcalm
    · exact hpir
  · split
    · rename_i hline
      rw [← hline] at hcalm
      exact hcalm
    · exact hbutton

/-- Without a request each transition is one towards the closed door. -/
theorem stagesLeft_take {row : Row} {expired : Bool}
    (h : nextRow choice w.state false expired = some row) :
    stagesLeft (w.take row).state < stagesLeft w.state := by
  have horigin := origin_of_nextRow h
  have hguard := guard_of_nextRow h
  rw [← horigin]
  cases row with
  | openDoor | keepOpen | stopClosingDoor => cases hguard
  | stayOpen | closeDoor | stayClosed =>
      simp [Doorway.take, stagesLeft, Row.origin, Row.destination]

/-- Left alone, the door either makes progress or counts. -/
def Progress (counts : Nat) (w w' : Doorway) : Prop :=
  w'.requested = false ∧
    (stagesLeft w'.state < stagesLeft w.state ∨
      (w'.state = w.state ∧ w'.elapsed = w.elapsed + counts))

theorem progress_step {e : SystemEvent} (hrequested : w.requested = false)
    (hcalm : Calm e) (h : w.step timing choice e = some w') :
    Progress (if e == .count .TIM2 then 1 else 0) w w' := by
  rcases step_cases h with ⟨s, rfl, rfl⟩ | ⟨rfl, rfl⟩ | ⟨rfl, htimed, rfl⟩ |
    ⟨l, rfl, _, rfl⟩ | ⟨rfl, rfl, _⟩ | ⟨row, rfl, rfl, hrow⟩
  · exact ⟨requested_serve hcalm hrequested, Or.inr ⟨rfl, rfl⟩⟩
  · exact ⟨hrequested, Or.inr ⟨rfl, rfl⟩⟩
  · exact ⟨hrequested, Or.inr ⟨rfl, rfl⟩⟩
  · refine ⟨hrequested, Or.inr ⟨rfl, ?_⟩⟩
    cases l <;> rfl
  · exact ⟨hrequested, Or.inr ⟨rfl, rfl⟩⟩
  · rw [hrequested] at hrow
    exact ⟨hrequested, Or.inl (stagesLeft_take hrow)⟩

theorem Progress.trans {m n : Nat} {u : Doorway} (h : Progress m w u)
    (h' : Progress n u w') : Progress (m + n) w w' := by
  refine ⟨h'.1, ?_⟩
  rcases h.2 with hless | ⟨hstate, helapsed⟩
  · rcases h'.2 with hless' | ⟨hstate', _⟩
    · exact Or.inl (hless'.trans hless)
    · exact Or.inl (hstate' ▸ hless)
  · rcases h'.2 with hless' | ⟨hstate', helapsed'⟩
    · exact Or.inl (hstate ▸ hless')
    · exact Or.inr ⟨hstate'.trans hstate, by omega⟩

theorem progress_run {events : List SystemEvent} (hrequested : w.requested = false)
    (hcalm : ∀ e ∈ events, Calm e)
    (h : runEvents (Doorway.step timing choice) w events = some w') :
    Progress (motorCounts events) w w' := by
  induction events generalizing w with
  | nil =>
      obtain rfl : w = w' := by simpa using h
      exact ⟨hrequested, Or.inr ⟨rfl, rfl⟩⟩
  | cons e events ih =>
      obtain ⟨u, hu, hrest⟩ := runEvents_cons_eq_some_iff.mp h
      have hfirst := progress_step hrequested (hcalm e List.mem_cons_self) hu
      have hlater := ih hfirst.1 (fun e he => hcalm e (List.mem_cons_of_mem _ he)) hrest
      rw [motorCounts, List.count_cons, Nat.add_comm]
      exact hfirst.trans hlater

/-- Without a request, the timeout of a state is the only way out of it. -/
theorem exists_timeoutRow (choice : RowChoice Row) {s : DoorState}
    (htimed : motorTimed s = true) :
    ∃ row, nextRow choice s false true = some row ∧
      row.destination = afterTimeout s := by
  cases s with
  | CLOSED => cases htimed
  | OPENING => exact ⟨.stayOpen, nextRow_of_enabledIn choice rfl rfl, rfl⟩
  | OPEN => exact ⟨.closeDoor, nextRow_of_enabledIn choice rfl rfl, rfl⟩
  | CLOSING => exact ⟨.stayClosed, nextRow_of_enabledIn choice rfl rfl, rfl⟩

end Closing

/-- A request on a line is held until the line is served without it. -/
def HeldBy (l : Line) (w : Doorway) : Prop := requests l (w.high l) = true

/-- No event of the run ends the request on a line. -/
def Holds (l : Line) (events : List SystemEvent) : Prop :=
  ∀ s, .serve s ∈ events → s.line = l → requests l s.high = true

section Requests

variable {timing : Timing} {choice : RowChoice Row} {w w' : Doorway} {l : Line}

theorem requested_of_heldBy (h : HeldBy l w) : w.requested = true := by
  rw [Doorway.requested, Bool.or_eq_true]
  cases l with
  | button => exact Or.inr h
  | pir => exact Or.inl h

theorem heldBy_step {e : SystemEvent} (h : HeldBy l w)
    (hholds : ∀ s, e = .serve s → s.line = l → requests l s.high = true)
    (hstep : w.step timing choice e = some w') : HeldBy l w' := by
  rcases step_cases hstep with ⟨s, rfl, rfl⟩ | ⟨rfl, rfl⟩ | ⟨rfl, _, rfl⟩ |
    ⟨l, rfl, _, rfl⟩ | ⟨rfl, rfl, _⟩ | ⟨row, rfl, rfl, _⟩
  · rw [HeldBy, Doorway.serve]
    simp only
    split
    · rename_i hline
      exact hholds s rfl hline.symm
    · exact h
  all_goals exact h

theorem presence_fire (hprefers : PrefersRequests choice) (h : HeldBy l w) :
    presenceReported (w.fire timing choice).state = true := by
  have hrequested := requested_of_heldBy h
  rw [Doorway.fire, hrequested]
  cases hrow : nextRow choice w.state true (w.expired timing) with
  | none =>
      -- only the opening door has no row for a request
      have hnone := fun row => (choice.choose_eq_none_iff.mp hrow) row
      cases hstate : w.state with
      | CLOSED =>
          have henabled := hnone .openDoor
          rw [hstate] at henabled
          cases henabled
      | OPENING =>
          rw [Option.elim_none, hstate]
          rfl
      | OPEN =>
          have henabled := hnone .keepOpen
          rw [hstate] at henabled
          cases henabled
      | CLOSING =>
          have henabled := hnone .stopClosingDoor
          rw [hstate] at henabled
          cases henabled
  | some row =>
      have horigin := origin_of_nextRow hrow
      have hguard := guard_of_nextRow hrow
      cases row with
      | openDoor | stayOpen | keepOpen | stopClosingDoor => rfl
      | closeDoor =>
          have hexpired : w.expired timing = true := hguard
          rw [← horigin, hexpired] at hrow
          cases hprefers.keepOpen.symm.trans hrow
      | stayClosed =>
          have hexpired : w.expired timing = true := hguard
          rw [← horigin, hexpired] at hrow
          cases hprefers.stopClosing.symm.trans hrow

/-- Where the requests are preferred, the door is open or opening after
the first poll that sees a request, for as long as the request is held. -/
theorem presence_run {events : List SystemEvent} (hprefers : PrefersRequests choice)
    (h : HeldBy l w) (hpresence : presenceReported w.state = true)
    (hholds : Holds l events)
    (hrun : runEvents (Doorway.step timing choice) w events = some w') :
    presenceReported w'.state = true := by
  induction events generalizing w with
  | nil =>
      obtain rfl : w = w' := by simpa using hrun
      exact hpresence
  | cons e events ih =>
      obtain ⟨u, hu, hrest⟩ := runEvents_cons_eq_some_iff.mp hrun
      have hheld : HeldBy l u := by
        apply heldBy_step h _ hu
        rintro s rfl
        exact hholds s List.mem_cons_self
      have hnext : presenceReported u.state = true := by
        rcases step_cases hu with ⟨s, rfl, rfl⟩ | ⟨rfl, rfl⟩ | ⟨rfl, _, rfl⟩ |
          ⟨m, rfl, _, rfl⟩ | ⟨rfl, rfl, _⟩ | ⟨row, rfl, _, _⟩
        case inr.inr.inr.inr.inr =>
          obtain rfl := Option.some.inj hu
          exact presence_fire hprefers h
        all_goals exact hpresence
      have hholds' : Holds l events := by
        intro s hs
        exact hholds s (List.mem_cons_of_mem _ hs)
      exact ih hheld hnext hholds' hrest

theorem heldBy_run {events : List SystemEvent} (h : HeldBy l w)
    (hholds : Holds l events)
    (hrun : runEvents (Doorway.step timing choice) w events = some w') :
    HeldBy l w' := by
  have hkeeps : ∀ e ∈ events, ∀ s, e = .serve s → s.line = l →
      requests l s.high = true := by
    rintro e he s rfl
    exact hholds s he
  exact invariant_of_runEvents (fun w e u hkeep hw hstep => heldBy_step hw hkeep hstep)
    hkeeps h hrun

/-- One poll is enough for the held request to open the door. -/
theorem presence_of_fire_mem {events : List SystemEvent}
    (hprefers : PrefersRequests choice) (h : HeldBy l w)
    (hholds : Holds l events) (hpolled : .fire ∈ events)
    (hrun : runEvents (Doorway.step timing choice) w events = some w') :
    presenceReported w'.state = true := by
  obtain ⟨front, back, rfl⟩ := List.append_of_mem hpolled
  obtain ⟨u, hu, hrest⟩ := runEvents_append_eq_some_iff.mp hrun
  obtain ⟨v, hv, hlast⟩ := runEvents_cons_eq_some_iff.mp hrest
  have hheld : HeldBy l u := heldBy_run h (fun s hs => hholds s (by simp [hs])) hu
  obtain rfl : u.fire timing choice = v := Option.some.inj hv
  have hopen : presenceReported (u.fire timing choice).state = true :=
    presence_fire hprefers hheld
  have hheld' : HeldBy l (u.fire timing choice) := by
    apply heldBy_step hheld _ hv
    rintro s ⟨⟩
  exact presence_run hprefers hheld' hopen (fun s hs => hholds s (by simp [hs])) hlast

end Requests

section Reaching

variable {timing : Timing} (choice : RowChoice Row) {w : Doorway}

theorem runEvents_counts (htimed : motorTimed w.state = true) (n : Nat) :
    runEvents (Doorway.step timing choice) w (List.replicate n (.count .TIM2)) =
      some { w with elapsed := w.elapsed + n } := by
  induction n generalizing w with
  | zero => rfl
  | succ n ih =>
      have hcount : w.step timing choice (.count .TIM2) =
          some { w with elapsed := w.elapsed + 1 } := by
        rw [Doorway.step, Doorway.countMotor, if_pos htimed]
      have hlater := ih (w := { w with elapsed := w.elapsed + 1 }) htimed
      rw [List.replicate_succ, runEvents_cons, hcount, Option.bind_some, hlater,
        Nat.add_assoc, Nat.add_comm 1 n]

/-- Without a request, a poll after enough counts takes the door to the next
state. -/
theorem fire_of_expired (hrequested : w.requested = false)
    (htimed : motorTimed w.state = true) (hexpired : w.expired timing = true) :
    (w.fire timing choice).state = afterTimeout w.state ∧
      (w.fire timing choice).high = w.high := by
  obtain ⟨row, hrow, hdestination⟩ := exists_timeoutRow choice htimed
  rw [Doorway.fire, hrequested, hexpired, hrow]
  exact ⟨hdestination, rfl⟩

theorem exists_round {counts : Nat} (hcovers : Covers counts timing)
    (hrequested : w.requested = false) (htimed : motorTimed w.state = true) :
    ∃ events w', Round counts events ∧
      runEvents (Doorway.step timing choice) w events = some w' ∧
      w'.state = afterTimeout w.state ∧ w'.requested = false := by
  set u : Doorway := { w with elapsed := w.elapsed + counts } with hu
  have hexpired : u.expired timing = true := by
    have hcount := hcovers w.state htimed
    rw [Doorway.expired, decide_eq_true_iff, hu]
    exact hcount.trans (Nat.le_add_left _ _)
  obtain ⟨hstate, hhigh⟩ := fire_of_expired (w := u) choice hrequested htimed hexpired
  refine ⟨List.replicate counts (.count .TIM2) ++ [.fire], u.fire timing choice,
    ⟨?_, _, rfl, ?_⟩, ?_, hstate, ?_⟩
  · intro e he
    rcases List.mem_append.mp he with he | he
    · rw [List.eq_of_mem_replicate he]
      trivial
    · rw [List.mem_singleton.mp he]
      trivial
  · rw [motorCounts, List.count_replicate_self]
  · exact runEvents_concat_eq_some_iff.mpr
      ⟨u, runEvents_counts choice htimed counts, rfl⟩
  · rw [Doorway.requested, hhigh]
    exact hrequested

end Reaching

section Cycling

variable (timing : Timing) (choice : RowChoice Row) {w : Doorway}

/-- Everyone leaves. -/
theorem reaches_quiet (w : Doorway) :
    ∃ u, Reaches (Doorway.step timing choice) w u ∧ u.state = w.state ∧
      u.elapsed = w.elapsed ∧ u.requested = false :=
  ⟨(w.serve ⟨.pir, false⟩).serve ⟨.button, true⟩,
    ⟨[.serve ⟨.pir, false⟩, .serve ⟨.button, true⟩], rfl⟩, rfl, rfl, rfl⟩

theorem reaches_afterTimeout (hrequested : w.requested = false)
    (htimed : motorTimed w.state = true) :
    ∃ u, Reaches (Doorway.step timing choice) w u ∧
      u.state = afterTimeout w.state ∧ u.requested = false := by
  have hcovers : Covers (timing.stateCounts .OPENING + timing.stateCounts .OPEN +
      timing.stateCounts .CLOSING) timing := by
    intro s hs
    cases s with
    | CLOSED => cases hs
    | OPENING | OPEN | CLOSING => omega
  obtain ⟨events, u, _, hrun, hstate, hquiet⟩ :=
    exists_round choice hcovers hrequested htimed
  exact ⟨u, ⟨events, hrun⟩, hstate, hquiet⟩

/-- A request opens the closed door, and is gone before anything else happens. -/
theorem reaches_opening (hclosed : w.state = .CLOSED) :
    ∃ u, Reaches (Doorway.step timing choice) w u ∧ u.state = .OPENING ∧
      u.requested = false := by
  set v : Doorway := (w.serve ⟨.pir, true⟩).fire timing choice
  have hv : Reaches (Doorway.step timing choice) w v :=
    ⟨[.serve ⟨.pir, true⟩, .fire], rfl⟩
  have hstate : v.state = .OPENING := by
    show ((w.serve ⟨.pir, true⟩).fire timing choice).state = .OPENING
    have hserved : (w.serve ⟨.pir, true⟩).state = .CLOSED := hclosed
    have hrequested : (w.serve ⟨.pir, true⟩).requested = true := rfl
    have hrow : nextRow choice .CLOSED true false = some .openDoor :=
      nextRow_of_enabledIn choice rfl rfl
    rw [Doorway.fire, hserved, hrequested, nextRow_closed choice true _ false, hrow]
    rfl
  obtain ⟨u, hu, hstate', -, hquiet⟩ := reaches_quiet timing choice v
  exact ⟨u, hv.trans hu, hstate'.trans hstate, hquiet⟩

/-- The states in the order in which the door goes through them. -/
def inTurn : DoorState → DoorState
  | .CLOSED => .OPENING
  | s => afterTimeout s

theorem exists_iterate_inTurn (s t : DoorState) : ∃ n < 4, inTurn^[n] s = t := by
  cases s <;> cases t <;> decide

theorem reaches_inTurn (n : Nat) (hrequested : w.requested = false) :
    ∃ u, Reaches (Doorway.step timing choice) w u ∧
      u.state = inTurn^[n] w.state ∧ u.requested = false := by
  induction n generalizing w with
  | zero => exact ⟨w, Reaches.refl w, rfl, hrequested⟩
  | succ n ih =>
      have hnext : ∃ u, Reaches (Doorway.step timing choice) w u ∧
          u.state = inTurn w.state ∧ u.requested = false := by
        cases hstate : w.state with
        | CLOSED => exact reaches_opening timing choice hstate
        | OPENING | OPEN | CLOSING =>
            have hnext := reaches_afterTimeout timing choice hrequested
              (by rw [hstate]; rfl)
            rw [hstate] at hnext
            exact hnext
      obtain ⟨u, hu, hstate, hquiet⟩ := hnext
      obtain ⟨v, hv, hstate', hquiet'⟩ := ih hquiet
      rw [hstate] at hstate'
      exact ⟨v, hu.trans hv, hstate', hquiet'⟩

/-- Every state of the door can be reached from every other. -/
theorem reaches_state (w : Doorway) (s : DoorState) :
    ∃ u, Reaches (Doorway.step timing choice) w u ∧ u.state = s ∧
      u.requested = false := by
  obtain ⟨v, hv, -, -, hquiet⟩ := reaches_quiet timing choice w
  obtain ⟨n, -, rfl⟩ := exists_iterate_inTurn v.state s
  obtain ⟨u, hu, hstate, hquiet'⟩ := reaches_inTurn timing choice n hquiet
  exact ⟨u, hv.trans hu, hstate, hquiet'⟩

/-- A request can meet a timeout in every timed state. -/
theorem reaches_contest (w : Doorway) {s : DoorState} (htimed : motorTimed s = true) :
    ∃ u, Reaches (Doorway.step timing choice) w u ∧ u.state = s ∧
      u.expired timing = true ∧ HeldBy .pir u := by
  obtain ⟨u, hu, rfl, -⟩ := reaches_state timing choice w s
  set v : Doorway := { u with elapsed := u.elapsed + timing.stateCounts u.state }
  have hv : Reaches (Doorway.step timing choice) u v :=
    ⟨_, runEvents_counts choice htimed _⟩
  have hserve : Reaches (Doorway.step timing choice) v (v.serve ⟨.pir, true⟩) :=
    ⟨[.serve ⟨.pir, true⟩], rfl⟩
  refine ⟨v.serve ⟨.pir, true⟩, hu.trans (hv.trans hserve), rfl, ?_, rfl⟩
  exact decide_eq_true (Nat.le_add_left _ _)

end Cycling

end AutomaticDoor.DoorwayRuns
