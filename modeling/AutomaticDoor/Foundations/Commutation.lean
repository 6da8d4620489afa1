import AutomaticDoor.Foundations.EventSystems

/-!
Events that commute.  Where the events of one kind commute with all others, a
run is the one in which they come first, and the one in which they come last.
Operations on separate parts of a state commute.
-/

namespace AutomaticDoor.Foundations.Commutation

open AutomaticDoor.Foundations.EventSystems

universe u v w

section Events

variable {State : Type u} {Event : Type v} {step : State → Event → Option State}

/-- From every state the two events have the same outcome in either order. -/
def Commutes (step : State → Event → Option State) (a b : Event) : Prop :=
  ∀ s, runEvents step s [a, b] = runEvents step s [b, a]

theorem Commutes.symm {a b : Event} (h : Commutes step a b) : Commutes step b a :=
  fun s => (h s).symm

theorem runEvents_swap {a b : Event} (h : Commutes step a b) (start : State)
    (back : List Event) :
    runEvents step start (a :: b :: back) = runEvents step start (b :: a :: back) := by
  have hsplit : ∀ c d, runEvents step start (c :: d :: back) =
      (runEvents step start [c, d]).bind fun next => runEvents step next back :=
    fun c d => runEvents_append start [c, d] back
  rw [hsplit, hsplit, h]

/-- An event moves behind all those that it commutes with. -/
theorem runEvents_move {a : Event} {front : List Event}
    (h : ∀ b ∈ front, Commutes step a b) (start : State) (back : List Event) :
    runEvents step start (a :: (front ++ back)) =
      runEvents step start (front ++ a :: back) := by
  induction front generalizing start with
  | nil => rfl
  | cons b front ih =>
      rw [List.cons_append, runEvents_swap (h b List.mem_cons_self), List.cons_append,
        runEvents_cons, runEvents_cons]
      have hlater : ∀ c ∈ front, Commutes step a c := fun c hc =>
        h c (List.mem_cons_of_mem b hc)
      exact congrArg _ (funext fun next => ih hlater next)

/-- The events of a kind that commutes with the others can all come first. -/
theorem runEvents_filter_append (kind : Event → Bool)
    (h : ∀ a b, kind a = true → kind b = false → Commutes step a b) (start : State)
    (events : List Event) :
    runEvents step start events =
      runEvents step start
        (events.filter kind ++ events.filter fun e => !kind e) := by
  induction events generalizing start with
  | nil => rfl
  | cons e events ih =>
      have hrest : runEvents step start (e :: events) =
          runEvents step start
            (e :: (events.filter kind ++ events.filter fun e => !kind e)) := by
        rw [runEvents_cons, runEvents_cons]
        exact congrArg _ (funext ih)
      cases hkind : kind e with
      | true => simpa [hkind] using hrest
      | false =>
          have hmove : ∀ a ∈ events.filter kind, Commutes step e a := fun a ha =>
            (h a e (List.mem_filter.mp ha).2 hkind).symm
          simpa [hkind, runEvents_move hmove] using hrest

end Events

section Parts

variable {State : Type u} {View : Type v} {Reading : Type w}

/-- A part of a state that can be read and replaced. -/
structure Part (State : Type u) (View : Type v) where
  view : State → View
  put : View → State → State
  put_view : ∀ s, put (view s) s = s
  view_put : ∀ x s, view (put x s) = x

/-- An operation that writes the part alone, and looks at the part and at the
reading alone. -/
structure Inside (part : Part State View) (read : State → Reading)
    (f : State → Option State) : Prop where
  writes : ∀ s t, f s = some t → t = part.put (part.view t) s
  looks : ∀ s t, part.view s = part.view t → read s = read t →
    (f s).map part.view = (f t).map part.view

/-- An operation that does not look at the part, and writes neither the part nor
the reading. -/
structure Outside (part : Part State View) (read : State → Reading)
    (g : State → Option State) : Prop where
  blind : ∀ x s, g (part.put x s) = (g s).map (part.put x)
  keeps : ∀ s t, g s = some t → read t = read s

variable {part : Part State View} {read : State → Reading}
  {f g : State → Option State} {s t : State}

theorem Outside.view_eq (h : Outside part read g) (hg : g s = some t) :
    part.view t = part.view s := by
  have hblind := h.blind (part.view s) s
  rw [part.put_view, hg] at hblind
  have ht : part.put (part.view s) t = t := (Option.some.inj hblind).symm
  rw [← ht, part.view_put]

/-- What is inside commutes with what is outside. -/
theorem Inside.bind_comm (hf : Inside part read f) (hg : Outside part read g)
    (s : State) : (f s).bind g = (g s).bind f := by
  cases hgs : g s with
  | none =>
      cases hfs : f s with
      | none => rfl
      | some u =>
          rw [Option.bind_some, hf.writes s u hfs, hg.blind, hgs]
          rfl
  | some t =>
      have hlooks := hf.looks t s (hg.view_eq hgs) (hg.keeps s t hgs)
      cases hfs : f s with
      | none =>
          rw [hfs, Option.map_none, Option.map_eq_none_iff] at hlooks
          exact hlooks.symm
      | some u =>
          rw [hfs, Option.map_some, Option.map_eq_some_iff] at hlooks
          obtain ⟨u', hu', hview⟩ := hlooks
          rw [Option.bind_some, Option.bind_some, hf.writes s u hfs, hg.blind, hgs, hu',
            hf.writes t u' hu', hview]
          rfl

end Parts

end AutomaticDoor.Foundations.Commutation
