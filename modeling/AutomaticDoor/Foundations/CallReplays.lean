import Mathlib.Data.List.Basic
import Mathlib.Tactic.Common

/-!
Runs of calls on a shared state, seen through one part of it.  Where each call
either acts on the part or leaves it alone, the part after the run is the
replay of the calls that act on it, whatever stands between them.
-/

namespace AutomaticDoor.Foundations.CallReplays

universe u v w x

variable {State : Type u} {Call : Type v} {Value : Type w} {Op : Type x}
  {step : State → Call → State} (view : State → Value)

theorem view_foldl {own : Call → Option Op} {act : Value → Op → Value}
    (hstep : ∀ s c, view (step s c) = (own c).elim (view s) (act (view s)))
    (s : State) (calls : List Call) :
    view (calls.foldl step s) = (calls.filterMap own).foldl act (view s) := by
  induction calls generalizing s with
  | nil => rfl
  | cons c calls ih =>
      rw [List.foldl_cons, ih, hstep]
      cases h : own c with
      | none => rw [List.filterMap_cons_none h, Option.elim_none]
      | some op =>
          rw [List.filterMap_cons_some h, Option.elim_some, List.foldl_cons]

theorem view_foldl_of_unchanged (hstep : ∀ s c, view (step s c) = view s)
    (s : State) (calls : List Call) : view (calls.foldl step s) = view s := by
  induction calls generalizing s with
  | nil => rfl
  | cons c calls ih => rw [List.foldl_cons, ih, hstep]

theorem foldl_overwrite (value : Value) (writes : List Value) :
    writes.foldl (fun _ written => written) value =
      writes.getLast?.getD value := by
  induction writes generalizing value with
  | nil => rfl
  | cons written writes ih =>
      rw [List.foldl_cons, ih, List.getLast?_cons, Option.getD_some]

theorem foldl_of_getLast? {act : Value → Op → Value} {ops : List Op} {op : Op}
    (h : ops.getLast? = some op) (value : Value) :
    ops.foldl act value = act (ops.dropLast.foldl act value) op := by
  obtain ⟨front, rfl⟩ := List.getLast?_eq_some_iff.mp h
  rw [List.foldl_append, List.dropLast_concat]
  rfl

/-- The last writer wins: where each call either overwrites the part or leaves
it alone, the part holds what the last call that wrote it has written. -/
theorem view_foldl_lastWriter {write : Call → Option Value}
    (hstep : ∀ s c, view (step s c) = (write c).getD (view s))
    (s : State) (calls : List Call) :
    view (calls.foldl step s) =
      ((calls.filterMap write).getLast?).getD (view s) := by
  rw [← foldl_overwrite]
  apply view_foldl view
  intro s c
  rw [hstep]
  cases write c <;> rfl

theorem foldl_invariant {Inv : State → Prop}
    (hinv : ∀ s c, Inv s → Inv (step s c)) {s : State} (hs : Inv s)
    (calls : List Call) : Inv (calls.foldl step s) := by
  induction calls generalizing s with
  | nil => exact hs
  | cons c calls ih => exact ih (hinv s c hs)

/-- Where all the calls that write a part write the same, the part holds that,
in whatever order the calls come and however often. -/
theorem view_foldl_of_agreeing {Inv : State → Prop}
    {write : Call → Option Value} {value : Value}
    (hinv : ∀ s c, Inv s → Inv (step s c))
    (hstep : ∀ s c, Inv s → view (step s c) = (write c).getD (view s))
    {calls : List Call}
    (hagree : ∀ c ∈ calls, ∀ written, write c = some written → written = value)
    {s : State} (hs : Inv s)
    (hwritten : view s = value ∨ ∃ c ∈ calls, write c = some value) :
    view (calls.foldl step s) = value := by
  induction calls generalizing s with
  | nil =>
      rcases hwritten with hview | ⟨c, hc, _⟩
      · exact hview
      · cases hc
  | cons c calls ih =>
      have hagree' : ∀ c' ∈ calls, ∀ written,
          write c' = some written → written = value := fun c' hc' =>
        hagree c' (List.mem_cons_of_mem c hc')
      apply ih hagree' (hinv s c hs)
      rw [hstep s c hs]
      cases hwrite : write c with
      | some written =>
          exact Or.inl (hagree c List.mem_cons_self written hwrite)
      | none =>
          rcases hwritten with hview | ⟨d, hd, hwrite'⟩
          · exact Or.inl hview
          · rcases List.mem_cons.mp hd with rfl | hd
            · rw [hwrite] at hwrite'
              cases hwrite'
            · exact Or.inr ⟨d, hd, hwrite'⟩

end AutomaticDoor.Foundations.CallReplays
