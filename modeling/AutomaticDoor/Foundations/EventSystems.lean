import Mathlib.Data.List.Basic
import Mathlib.Tactic.Common

/-!
Deterministic systems driven by a sequence of events.  All nondeterminism is
in the choice of the sequence, so a property of every run is a property of
every list of events.
-/

namespace AutomaticDoor.Foundations.EventSystems

universe u v w

variable {State : Type u} {Event : Type v} {step : State → Event → Option State}

/-- Execute a finite sequence of events.  An event that the state reached does
not enable has no outcome, and then neither has the whole sequence. -/
def runEvents (step : State → Event → Option State) (start : State)
    (events : List Event) : Option State :=
  events.foldlM step start

@[simp] theorem runEvents_nil (start : State) :
    runEvents step start [] = some start := rfl

theorem runEvents_cons (start : State) (event : Event) (events : List Event) :
    runEvents step start (event :: events) =
      (step start event).bind fun next => runEvents step next events := rfl

theorem runEvents_append (start : State) (front back : List Event) :
    runEvents step start (front ++ back) =
      (runEvents step start front).bind fun next => runEvents step next back := by
  simp only [runEvents, List.foldlM_append]
  rfl

theorem runEvents_cons_eq_some_iff {start finish : State} {event : Event}
    {events : List Event} :
    runEvents step start (event :: events) = some finish ↔
      ∃ next, step start event = some next ∧
        runEvents step next events = some finish := by
  rw [runEvents_cons, Option.bind_eq_some_iff]

theorem runEvents_append_eq_some_iff {start finish : State}
    {front back : List Event} :
    runEvents step start (front ++ back) = some finish ↔
      ∃ next, runEvents step start front = some next ∧
        runEvents step next back = some finish := by
  rw [runEvents_append, Option.bind_eq_some_iff]

theorem runEvents_singleton (start : State) (event : Event) :
    runEvents step start [event] = step start event := by
  rw [runEvents_cons]
  cases step start event <;> rfl

theorem runEvents_concat_eq_some_iff {start finish : State}
    {events : List Event} {event : Event} :
    runEvents step start (events ++ [event]) = some finish ↔
      ∃ next, runEvents step start events = some next ∧
        step next event = some finish := by
  rw [runEvents_append_eq_some_iff]
  simp only [runEvents_singleton]

/-- The invariant rule: what the allowed events of a run preserve, the run
preserves. -/
theorem invariant_of_runEvents {Inv : State → Prop} {Allowed : Event → Prop}
    (hstep : ∀ s e t, Allowed e → Inv s → step s e = some t → Inv t)
    {start finish : State} {events : List Event}
    (hallowed : ∀ e ∈ events, Allowed e) (hstart : Inv start)
    (hrun : runEvents step start events = some finish) : Inv finish := by
  induction events generalizing start with
  | nil =>
      have hfinish : start = finish := by simpa using hrun
      exact hfinish ▸ hstart
  | cons event events ih =>
      obtain ⟨next, hnext, hrest⟩ := runEvents_cons_eq_some_iff.mp hrun
      have hinv : Inv next :=
        hstep start event next (hallowed event (by simp)) hstart hnext
      exact ih (fun e he => hallowed e (by simp [he])) hinv hrest

theorem invariant_of_runEvents' {Inv : State → Prop}
    (hstep : ∀ s e t, Inv s → step s e = some t → Inv t)
    {start finish : State} {events : List Event} (hstart : Inv start)
    (hrun : runEvents step start events = some finish) : Inv finish := by
  have hallowed : ∀ e ∈ events, (fun _ : Event => True) e := fun _ _ => trivial
  exact invariant_of_runEvents (fun s e t _ => hstep s e t) hallowed hstart hrun

/-- Forward simulation: if the abstract system matches each event of the
concrete one, it matches each run. -/
theorem runEvents_simulated {Abstract : Type w}
    {abstractStep : Abstract → Event → Option Abstract}
    {Related : Abstract → State → Prop}
    (hstep : ∀ a s e t, Related a s → step s e = some t →
      ∃ b, abstractStep a e = some b ∧ Related b t)
    {a : Abstract} {start finish : State} {events : List Event}
    (hstart : Related a start)
    (hrun : runEvents step start events = some finish) :
    ∃ b, runEvents abstractStep a events = some b ∧ Related b finish := by
  induction events generalizing a start with
  | nil =>
      have hfinish : start = finish := by simpa using hrun
      exact ⟨a, rfl, hfinish ▸ hstart⟩
  | cons event events ih =>
      obtain ⟨next, hnext, hrest⟩ := runEvents_cons_eq_some_iff.mp hrun
      obtain ⟨b, hb, hrelated⟩ := hstep a start event next hstart hnext
      obtain ⟨c, hc, hfinish⟩ := ih hrelated hrest
      exact ⟨c, runEvents_cons_eq_some_iff.mpr ⟨b, hb, hc⟩, hfinish⟩

def Reaches (step : State → Event → Option State) (start finish : State) : Prop :=
  ∃ events, runEvents step start events = some finish

theorem Reaches.refl (s : State) : Reaches step s s := ⟨[], rfl⟩

theorem Reaches.trans {s t u : State} (h : Reaches step s t)
    (h' : Reaches step t u) : Reaches step s u := by
  obtain ⟨front, hfront⟩ := h
  obtain ⟨back, hback⟩ := h'
  exact ⟨front ++ back, runEvents_append_eq_some_iff.mpr ⟨t, hfront, hback⟩⟩

section Amounts

variable {gain cost amount : State → Event → Nat} {start finish : State}
  {event : Event} {events : List Event}

end Amounts

/-- What is observed of a run, each event in the state in which it occurs. -/
def observedAlong {Observation : Type w} (step : State → Event → Option State)
    (observe : State → Event → List Observation) : State → List Event → List Observation
  | _, [] => []
  | start, event :: events =>
      (step start event).elim [] fun next =>
        observe start event ++ observedAlong step observe next events

section Observations

variable {Observation : Type w} {observe : State → Event → List Observation}
  {start finish : State} {events : List Event}

theorem observedAlong_cons {event : Event} {next : State}
    (h : step start event = some next) :
    observedAlong step observe start (event :: events) =
      observe start event ++ observedAlong step observe next events := by
  rw [observedAlong, h]
  rfl

/-- Stuttering simulation: what is observed of a run is a run of the system that
makes the observed events. -/
theorem runEvents_observedAlong {View : Type u} {view : State → View}
    {viewStep : View → Observation → Option View}
    (hstep : ∀ s e t, step s e = some t →
      runEvents viewStep (view s) (observe s e) = some (view t))
    (hrun : runEvents step start events = some finish) :
    runEvents viewStep (view start) (observedAlong step observe start events) =
      some (view finish) := by
  induction events generalizing start with
  | nil =>
      obtain rfl : start = finish := by simpa using hrun
      rfl
  | cons event events ih =>
      obtain ⟨next, hnext, hrest⟩ := runEvents_cons_eq_some_iff.mp hrun
      rw [observedAlong_cons hnext]
      exact runEvents_append_eq_some_iff.mpr ⟨_, hstep _ _ _ hnext, ih hrest⟩

theorem mem_observedAlong {event : Event} {o : Observation}
    (hobserve : ∀ s, o ∈ observe s event) (hmem : event ∈ events)
    (hrun : runEvents step start events = some finish) :
    o ∈ observedAlong step observe start events := by
  induction events generalizing start with
  | nil => cases hmem
  | cons first events ih =>
      obtain ⟨next, hnext, hrest⟩ := runEvents_cons_eq_some_iff.mp hrun
      rw [observedAlong_cons hnext, List.mem_append]
      rcases List.mem_cons.mp hmem with rfl | hlater
      · exact Or.inl (hobserve start)
      · exact Or.inr (ih hlater hrest)

/-- What an invariant lets the allowed events show is all that a run shows. -/
theorem forall_mem_observedAlong {Inv : State → Prop} {Allowed : Event → Prop}
    {Shown : Observation → Prop}
    (hstep : ∀ s e t, Allowed e → Inv s → step s e = some t → Inv t)
    (hshown : ∀ s e, Allowed e → Inv s → ∀ o ∈ observe s e, Shown o)
    (hallowed : ∀ e ∈ events, Allowed e) (hstart : Inv start) :
    ∀ o ∈ observedAlong step observe start events, Shown o := by
  induction events generalizing start with
  | nil => exact fun o ho => nomatch ho
  | cons event events ih =>
      intro o ho
      have hfirst : Allowed event := hallowed event (by simp)
      cases hnext : step start event with
      | none =>
          rw [observedAlong, hnext] at ho
          cases ho
      | some next =>
          rw [observedAlong_cons hnext, List.mem_append] at ho
          rcases ho with hnow | hlater
          · exact hshown start event hfirst hstart o hnow
          · exact ih (fun e he => hallowed e (by simp [he]))
              (hstep start event next hfirst hstart hnext) o hlater

end Observations

section Bisimulation

variable {Abstract : Type w} {abstractStep : Abstract → Event → Option Abstract}
  {Related : Abstract → State → Prop}

/-- Where one system can go on, so can the other. -/
theorem exists_of_rel_some {a : Option Abstract} {t : State}
    (h : Option.Rel Related a (some t)) : ∃ b, a = some b ∧ Related b t := by
  cases h with
  | some hrelated => exact ⟨_, rfl, hrelated⟩

theorem exists_of_some_rel {b : Abstract} {s : Option State}
    (h : Option.Rel Related (some b) s) : ∃ t, s = some t ∧ Related b t := by
  cases h with
  | some hrelated => exact ⟨_, rfl, hrelated⟩

theorem eq_none_of_rel_none {a : Option Abstract}
    (h : Option.Rel Related a (none : Option State)) : a = none := by
  cases h
  rfl

/-- Systems that match each other's events, those that are not enabled
included, match each other's runs. -/
theorem runEvents_bisimilar
    (hstep : ∀ a s e, Related a s →
      Option.Rel Related (abstractStep a e) (step s e))
    {a : Abstract} {start : State} (hstart : Related a start)
    (events : List Event) :
    Option.Rel Related (runEvents abstractStep a events)
      (runEvents step start events) := by
  induction events generalizing a start with
  | nil => exact .some hstart
  | cons event events ih =>
      rw [runEvents_cons, runEvents_cons]
      have hnext := hstep a start event hstart
      revert hnext
      generalize abstractStep a event = b
      generalize step start event = t
      rintro (hrelated | _)
      · exact ih hrelated
      · exact .none

end Bisimulation

end AutomaticDoor.Foundations.EventSystems
