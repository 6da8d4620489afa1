import AutomaticDoor.EdgeSystem
import AutomaticDoor.FirmwareRuns

/-!
What the runs of the entrance say of the firmware on its board.
-/

namespace AutomaticDoor.EntranceRuns

open AutomaticDoor.BoardRegisters
open AutomaticDoor.ConfigurationFrames
open AutomaticDoor.DoorConsistency
open AutomaticDoor.DoorRefinement
open AutomaticDoor.DoorStateMachine
open AutomaticDoor.DoorSystem
open AutomaticDoor.DoorwayModel
open AutomaticDoor.DoorwayRuns
open AutomaticDoor.EdgeSystem
open AutomaticDoor.ExtiLines
open AutomaticDoor.ExtiRouting
open AutomaticDoor.FirmwareRuns
open AutomaticDoor.Foundations.EventSystems
open AutomaticDoor.Foundations.RowChoices
open AutomaticDoor.GuardedFiring
open AutomaticDoor.InterruptHandlers
open AutomaticDoor.PeripheralSetup
open AutomaticDoor.RequestPolling

/-- The started door on its board, whatever the levels of its pins. -/
structure Installed (cfg : DoorConfig) (clock : Nat) (d : Door) : Prop where
  started : Started cfg clock d
  wired : Wired d.board
  idle : d.board.exti.pr = 0

def withLevels (idr : GpioPort → Word) (b : Board) : Board :=
  { b with gpio := fun p => { b.gpio p with idr := idr p } }

def entranceOf (d : Door) : Entrance where
  doorway := doorwayOf d
  level l := lineHigh l d.board
  pending _ := false

/-- No edge on the pin of a line. -/
def Steady (l : Line) : BoardEvent → Prop
  | .edge port pin => lineOf port pin ≠ some l
  | .exti15_10 | .sysTick | .count _ | .fire => True

/-- The handler would serve the line. -/
def hears (l : Line) (b : Board) : Bool :=
  linePending l b && (decide (l = .button) || !linePending .button b)

/-- The level of a line that is in its flags after the handler. -/
def heardLevel (l : Line) (b : Board) : Bool :=
  if hears l b then lineHigh l b else heldHigh l b

/-- What the events of the board are to the firmware. -/
def observe (v : Entrance) : BoardEvent → List SystemEvent
  | .edge _ _ => []
  | .exti15_10 =>
      (v.firstPending.map fun l => SystemEvent.serve ⟨l, v.level l⟩).toList
  | .sysTick => [.sysTick]
  | .count t => [.count t]
  | .fire => [.fire]

section Start

variable {cfg : DoorConfig} {clock : Nat} {d : Door}

theorem Installed.watches (h : Installed cfg clock d) :
    Watches cfg clock (entranceOf d) d where
  doorway := h.started.represents
  level _ := rfl
  pending l := by
    rw [linePending_eq, h.idle]
    exact BitVec.getLsbD_zero
  quiet pin _ := by
    rw [h.idle]
    exact BitVec.getLsbD_zero
  wired := h.wired

theorem setupOf_withLevels (leds : PortLed.DoorLeds) (idr : GpioPort → Word)
    (b : Board) : setupOf leds (withLevels idr b) = setupOf leds b := rfl

theorem Installed.withLevels (h : Installed cfg clock d) (idr : GpioPort → Word) :
    Installed cfg clock { d with board := withLevels idr d.board } where
  started := by
    obtain ⟨⟨hstate, hred, hgreen, htimers, hpresence⟩, hprepared, hidle, hsafe⟩ :=
      h.started
    exact ⟨⟨hstate, hred, hgreen, htimers, hpresence⟩, hprepared, hidle, hsafe⟩
  wired := wired_of_setupOf (setupOf_withLevels cfg.leds idr d.board) h.wired
  idle := h.idle

theorem startedDoor_installed (cfg : DoorConfig) (hpre : Fin 16)
    {calls : List InitCall} (hall : InitializesAll calls) (lastTime : Word)
    (hsafe : SafeTimes cfg (startClock hpre)) :
    Installed cfg (startClock hpre) (startedDoor cfg hpre calls lastTime) where
  started := startedDoor_started cfg hpre hall lastTime hsafe
  wired := startedDoor_wired cfg hpre hall lastTime
  idle := applyInits_pr cfg.leds calls _

end Start

section Observed

variable {timing : Timing} {choice : RowChoice Row} {v v' : Entrance}
  {e : BoardEvent} {l : Line} {events : List BoardEvent}

theorem inDoorway_eq_some {w : Option Doorway} (h : v.inDoorway w = some v') :
    w = some v'.doorway ∧ v'.level = v.level ∧ v'.pending = v.pending := by
  obtain ⟨u, rfl, rfl⟩ := Option.map_eq_some_iff.mp h
  exact ⟨rfl, rfl, rfl⟩

theorem observe_step (v : Entrance) (e : BoardEvent) (v' : Entrance)
    (h : v.step timing choice e = some v') :
    runEvents (Doorway.step timing choice) v.doorway (observe v e) =
      some v'.doorway := by
  cases e with
  | edge port pin =>
      obtain rfl := Option.some.inj h
      rw [observe, runEvents_nil]
      cases lineOf port pin <;> rfl
  | exti15_10 =>
      obtain ⟨l, hl, rfl⟩ := Option.map_eq_some_iff.mp h
      rw [observe, hl]
      rfl
  | sysTick | count | fire =>
      rw [observe, runEvents_singleton]
      exact (inDoorway_eq_some h).1

theorem level_step (hsteady : Steady l e) (h : v.step timing choice e = some v') :
    v'.level l = v.level l := by
  cases e with
  | edge port pin =>
      obtain rfl := Option.some.inj h
      cases hline : lineOf port pin with
      | none => rfl
      | some m =>
          have hm : l ≠ m := by
            rintro rfl
            exact hsteady hline
          exact if_neg hm
  | exti15_10 =>
      obtain ⟨m, -, rfl⟩ := Option.map_eq_some_iff.mp h
      rfl
  | sysTick | count | fire => rw [(inDoorway_eq_some h).2.1]

theorem pending_step (hsteady : ∀ l, Steady l e) (hidle : ∀ l, v.pending l = false)
    (h : v.step timing choice e = some v') (l : Line) : v'.pending l = false := by
  cases e with
  | edge port pin =>
      obtain rfl := Option.some.inj h
      cases hline : lineOf port pin with
      | none => exact hidle l
      | some m => exact absurd hline (hsteady m)
  | exti15_10 =>
      obtain ⟨m, -, rfl⟩ := Option.map_eq_some_iff.mp h
      rfl
  | sysTick | count | fire => rw [(inDoorway_eq_some h).2.2, hidle]

/-- While a line keeps its level, the firmware is only told that level of it. -/
theorem holds_observed (hsteady : ∀ e ∈ events, Steady l e)
    (hrequests : requests l (v.level l) = true) :
    Holds l (observedAlong (Entrance.step timing choice) observe v events) := by
  have hstep : ∀ (u : Entrance) (e : BoardEvent) (u' : Entrance), Steady l e →
      requests l (u.level l) = true → u.step timing choice e = some u' →
        requests l (u'.level l) = true := by
    intro u e u' he hu hstep
    rw [level_step he hstep]
    exact hu
  have hshown : ∀ (u : Entrance) (e : BoardEvent), Steady l e →
      requests l (u.level l) = true → ∀ o ∈ observe u e, ∀ s : Service,
        o = .serve s → s.line = l → requests l s.high = true := by
    rintro u e - hu o ho s rfl rfl
    cases e with
    | edge => cases ho
    | exti15_10 =>
        rw [observe, Option.mem_toList, Option.map_eq_some_iff] at ho
        obtain ⟨m, -, hm⟩ := ho
        cases hm
        exact hu
    | sysTick | count | fire => cases List.mem_singleton.mp ho
  intro s hs hline
  exact forall_mem_observedAlong hstep hshown hsteady hrequests _ hs s rfl hline

/-- While no line changes, the handler does not run again. -/
theorem calm_observed (hsteady : ∀ e ∈ events, ∀ l, Steady l e)
    (hidle : ∀ l, v.pending l = false) :
    ∀ o ∈ observedAlong (Entrance.step timing choice) observe v events,
      ∀ s, o ≠ .serve s := by
  have hstep : ∀ (u : Entrance) (e : BoardEvent) (u' : Entrance),
      (∀ l, Steady l e) → (∀ l, u.pending l = false) →
        u.step timing choice e = some u' → ∀ l, u'.pending l = false :=
    fun _ _ _ => pending_step
  have hshown : ∀ (u : Entrance) (e : BoardEvent), (∀ l, Steady l e) →
      (∀ l, u.pending l = false) → ∀ o ∈ observe u e, ∀ s, o ≠ .serve s := by
    rintro u e - hu o ho s rfl
    cases e with
    | edge => cases ho
    | exti15_10 =>
        rw [observe, firstPending_eq_none_iff.mpr hu] at ho
        cases ho
    | sysTick | count | fire => cases List.mem_singleton.mp ho
  exact forall_mem_observedAlong hstep hshown hsteady hidle

theorem requested_iff_heldBy (w : Doorway) :
    w.requested = true ↔ ∃ l, HeldBy l w := by
  constructor
  · intro h
    rw [Doorway.requested, Bool.or_eq_true] at h
    rcases h with hpir | hbutton
    · exact ⟨.pir, hpir⟩
    · exact ⟨.button, hbutton⟩
  · rintro ⟨l, hl⟩
    exact requested_of_heldBy hl

theorem calm_of_ne_serve {o : SystemEvent} (h : ∀ s, o ≠ .serve s) : Calm o := by
  cases o with
  | serve s => exact absurd rfl (h s)
  | sysTick | count | fire => trivial

theorem presence_of_steady (hprefers : PrefersRequests choice)
    (hheld : HeldBy l v.doorway) (hrequests : requests l (v.level l) = true)
    (hsteady : ∀ e ∈ events, Steady l e) (hpolled : .fire ∈ events)
    (hrun : runEvents (Entrance.step timing choice) v events = some v') :
    presenceReported v'.doorway.state = true := by
  apply presence_of_fire_mem hprefers hheld (holds_observed hsteady hrequests) _
    (runEvents_observedAlong observe_step hrun)
  exact mem_observedAlong (fun _ => List.mem_singleton_self _) hpolled hrun

/-- With nothing pending and no line changing, a closed door opens at the next
poll or not at all. -/
theorem presence_iff_requested (hprefers : PrefersRequests choice)
    (hidle : ∀ l, v.pending l = false) (hclosed : v.doorway.state = .CLOSED)
    (hsteady : ∀ e ∈ events, ∀ l, Steady l e) (hpolled : .fire ∈ events)
    (hrun : runEvents (Entrance.step timing choice) v events = some v') :
    presenceReported v'.doorway.state = true ↔ v.doorway.requested = true := by
  have hobserved := runEvents_observedAlong observe_step hrun
  have hcalm : ∀ o ∈ observedAlong (Entrance.step timing choice) observe v events,
      ∀ s, o ≠ .serve s := calm_observed hsteady hidle
  constructor
  · intro hpresence
    by_contra hnone
    obtain ⟨-, hprogress⟩ := progress_run (Bool.eq_false_iff.mpr hnone)
      (fun o ho => calm_of_ne_serve (hcalm o ho)) hobserved
    rcases hprogress with hless | ⟨hsame, -⟩
    · rw [hclosed] at hless
      cases hless
    · rw [hsame, hclosed] at hpresence
      cases hpresence
  · intro hrequested
    obtain ⟨l, hheld⟩ := (requested_iff_heldBy _).mp hrequested
    apply presence_of_fire_mem hprefers hheld _ _ hobserved
    · intro s hs
      exact absurd rfl (hcalm _ hs s)
    · exact mem_observedAlong (fun _ => List.mem_singleton_self _) hpolled hrun

end Observed

section Firmware

variable {cfg : DoorConfig} {clock : Nat} {choice : RowChoice Row} {v v' : Entrance}
  {d d₀ d₁ d₂ : Door} {l : Line} {before after : List BoardEvent}

theorem watches_run (choice : RowChoice Row) (h : Watches cfg clock v d)
    (events : List BoardEvent) :
    Option.Rel (Watches cfg clock)
      (runEvents (Entrance.step (timingOf cfg clock) choice) v events)
      (runEvents (edgeStep cfg choice) d events) :=
  runEvents_bisimilar watches_step h events

theorem exists_entrance {events : List BoardEvent} {d' : Door}
    (h : Watches cfg clock v d)
    (hrun : runEvents (edgeStep cfg choice) d events = some d') :
    ∃ v', runEvents (Entrance.step (timingOf cfg clock) choice) v events = some v' ∧
      Watches cfg clock v' d' := by
  have hruns := watches_run choice h events
  rw [hrun] at hruns
  exact exists_of_rel_some hruns

/-- The documented start, with the button released. -/
def releasedStart : Door :=
  { documentedStart with
    board := withLevels
      (fun p => if p = Line.button.port then bitPosToMask Line.button.pin else 0)
      documentedStart.board }

theorem releasedStart_installed :
    Installed documentedConfig (startClock undivided) releasedStart :=
  (startedDoor_installed documentedConfig undivided documentedInits_all 0#32
    documentedConfig_safeTimes).withLevels _

/-- A presence starts or ends. -/
def presenceEdge : BoardEvent := .edge Line.pir.port Line.pir.pin

/-- Event by event the board does what the entrance does: an edge on any pin,
the handler of the lines, a tick, a count or a poll.  The handler runs when a
line of the entrance is pending, and then only. -/
theorem board_refines_entrance (choice : RowChoice Row)
    (hinstalled : Installed cfg clock d₀) (events : List BoardEvent) :
    Option.Rel (Watches cfg clock)
      (runEvents (Entrance.step (timingOf cfg clock) choice) (entranceOf d₀) events)
      (runEvents (edgeStep cfg choice) d₀ events) :=
  watches_run choice hinstalled.watches events

theorem board_refines_entrance_presence :
    Option.Rel (Watches documentedConfig (startClock undivided))
      (runEvents (Entrance.step (timingOf documentedConfig (startClock undivided))
        documentedChoice) (entranceOf releasedStart)
          [presenceEdge, .exti15_10, .fire])
      (runEvents (edgeStep documentedConfig documentedChoice) releasedStart
        [presenceEdge, .exti15_10, .fire]) :=
  board_refines_entrance documentedChoice releasedStart_installed _

theorem hears_iff_firstPending (h : Watches cfg clock v d) :
    hears l d.board = true ↔ v.firstPending = some l := by
  rw [hears, h.pending, h.pending, firstPending_eq_some_iff, Bool.and_eq_true,
    Bool.or_eq_true, decide_eq_true_iff, Bool.not_eq_true']
  cases l <;> simp

theorem exists_handled (h : Watches cfg clock v d)
    (hrun : runEvents (edgeStep cfg choice) d (.exti15_10 :: after) = some d₂) :
    ∃ m v₂, v.firstPending = some m ∧ Watches cfg clock v₂ d₂ ∧
      runEvents (Entrance.step (timingOf cfg clock) choice) (v.handle m) after =
        some v₂ := by
  obtain ⟨v₂, hrun', h₂⟩ := exists_entrance h hrun
  obtain ⟨u, hu, hrest⟩ := runEvents_cons_eq_some_iff.mp hrun'
  obtain ⟨m, hm, rfl⟩ := Option.map_eq_some_iff.mp hu
  exact ⟨m, v₂, hm, h₂, hrest⟩

/-- A request that the handler serves opens the door at the next poll, and
keeps it open while the pin keeps its level, whatever the other pins do. -/
theorem heard_request_opens (hprefers : PrefersRequests choice)
    (hinstalled : Installed cfg clock d₀)
    (hbefore : runEvents (edgeStep cfg choice) d₀ before = some d₁)
    (hhears : hears l d₁.board = true)
    (hrequests : requests l (lineHigh l d₁.board) = true)
    (hsteady : ∀ e ∈ after, Steady l e) (hpolled : .fire ∈ after)
    (hafter : runEvents (edgeStep cfg choice) d₁ (.exti15_10 :: after) = some d₂) :
    presenceReported d₂.fsm.currentState = true := by
  obtain ⟨v₁, -, h₁⟩ := exists_entrance hinstalled.watches hbefore
  obtain ⟨m, v₂, hm, h₂, hrun⟩ := exists_handled h₁ hafter
  obtain rfl : m = l :=
    Option.some.inj (hm.symm.trans ((hears_iff_firstPending h₁).mp hhears))
  rw [h₁.level] at hrequests
  have hheld : HeldBy m (v₁.handle m).doorway := by
    simpa [HeldBy, Entrance.handle, Doorway.serve] using hrequests
  rw [h₂.doorway.state]
  exact presence_of_steady hprefers hheld hrequests hsteady hpolled hrun

theorem steady_poll : ∀ e ∈ [BoardEvent.fire], ∀ l, Steady l e := by
  intro e he l
  cases List.mem_singleton.mp he
  trivial

theorem heard_request_opens_presence :
    ∃ d₁ d₂, runEvents (edgeStep documentedConfig requestsFirstChoice) releasedStart
        [presenceEdge] = some d₁ ∧
      runEvents (edgeStep documentedConfig requestsFirstChoice) d₁
        [.exti15_10, .fire] = some d₂ ∧
      presenceReported d₂.fsm.currentState = true :=
  ⟨_, _, rfl, rfl, @heard_request_opens _ _ requestsFirstChoice _ _ _ .pir
    [presenceEdge] [.fire] requestsFirstChoice_prefers releasedStart_installed rfl
    (by decide) (by decide) (fun e he => steady_poll e he .pir) (by decide) rfl⟩

theorem heardLevel_eq (h : Watches cfg clock v d) {m : Line}
    (hm : v.firstPending = some m) (l : Line) :
    heardLevel l d.board = (v.handle m).doorway.high l := by
  have hhears : hears l d.board = true ↔ l = m := by
    rw [hears_iff_firstPending h, hm, Option.some.injEq]
    exact eq_comm
  simp only [heardLevel, hhears, h.level, h.doorway.high, Entrance.handle,
    Doorway.serve]
  split
  · rename_i hl
    rw [hl]
  · rfl

/-- A closed door opens for the levels that the handler leaves in the flags, and
for no others: a request whose line it has not served does not count. -/
theorem closed_door_opens_iff (hprefers : PrefersRequests choice)
    (hinstalled : Installed cfg clock d₀)
    (hbefore : runEvents (edgeStep cfg choice) d₀ before = some d₁)
    (hclosed : d₁.fsm.currentState = .CLOSED)
    (hsteady : ∀ e ∈ after, ∀ l, Steady l e) (hpolled : .fire ∈ after)
    (hafter : runEvents (edgeStep cfg choice) d₁ (.exti15_10 :: after) = some d₂) :
    presenceReported d₂.fsm.currentState = true ↔
      ∃ l, requests l (heardLevel l d₁.board) = true := by
  obtain ⟨v₁, -, h₁⟩ := exists_entrance hinstalled.watches hbefore
  obtain ⟨m, v₂, hm, h₂, hrun⟩ := exists_handled h₁ hafter
  have hstate : (v₁.handle m).doorway.state = .CLOSED :=
    h₁.doorway.state.symm.trans hclosed
  have hheard : (∃ l, requests l (heardLevel l d₁.board) = true) ↔
      (v₁.handle m).doorway.requested = true := by
    rw [requested_iff_heldBy]
    simp only [heardLevel_eq h₁ hm, HeldBy]
  rw [hheard, h₂.doorway.state]
  exact presence_iff_requested hprefers (fun _ => rfl) hstate hsteady hpolled hrun

theorem closed_door_opens_iff_presence :
    ∃ d₁ d₂, runEvents (edgeStep documentedConfig requestsFirstChoice) releasedStart
        [presenceEdge] = some d₁ ∧
      runEvents (edgeStep documentedConfig requestsFirstChoice) d₁
        [.exti15_10, .fire] = some d₂ ∧
      (presenceReported d₂.fsm.currentState = true ↔
        ∃ l, requests l (heardLevel l d₁.board) = true) :=
  ⟨_, _, rfl, rfl, @closed_door_opens_iff _ _ requestsFirstChoice _ _ _
    [presenceEdge] [.fire] requestsFirstChoice_prefers releasedStart_installed rfl rfl
    steady_poll (by decide) rfl⟩

end Firmware

end AutomaticDoor.EntranceRuns
