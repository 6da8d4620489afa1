import AutomaticDoor.Foundations.EventSystems

/-!
Threads that interrupts preempt.  `weave` places interrupts at the boundaries
of a sequence of calls; `Thread` executes the statements of a call one at a
time, so that other events can fall between them.
-/

namespace AutomaticDoor.Foundations.Interleaving

open AutomaticDoor.Foundations.EventSystems

universe u v w

inductive ThreadEvent (Call : Type u) (Interrupt : Type v)
  | call (c : Call)
  | interrupt (i : Interrupt)

section Weaving

variable {State : Type w} {Call : Type u} {Interrupt : Type v}

/-- The calls in order, with the interrupts `gaps k` taken at boundary `k`:
before the call number `k`, or after the last call. -/
def weave : List Call → (Nat → List Interrupt) → List (ThreadEvent Call Interrupt)
  | [], gaps => (gaps 0).map .interrupt
  | c :: calls, gaps =>
      (gaps 0).map .interrupt ++ .call c :: weave calls fun k => gaps (k + 1)

theorem call_mem_weave_iff {c : Call} {calls : List Call}
    {gaps : Nat → List Interrupt} :
    ThreadEvent.call c ∈ weave calls gaps ↔ c ∈ calls := by
  induction calls generalizing gaps with
  | nil => simp [weave]
  | cons d calls ih => simp [weave, ih]

def threadStep (exec : State → Call → State)
    (interrupt : State → Interrupt → Option State) :
    State → ThreadEvent Call Interrupt → Option State
  | s, .call c => some (exec s c)
  | s, .interrupt i => interrupt s i

variable {exec : State → Call → State}
  {interrupt : State → Interrupt → Option State}

theorem runEvents_map_interrupt (start : State) (interrupts : List Interrupt) :
    runEvents (threadStep exec interrupt) start
        (interrupts.map ThreadEvent.interrupt) =
      runEvents interrupt start interrupts := by
  induction interrupts generalizing start with
  | nil => rfl
  | cons i interrupts ih =>
      rw [List.map_cons, runEvents_cons, runEvents_cons]
      exact congrArg _ (funext ih)

theorem runEvents_weave_cons_eq_some_iff {start finish : State} {c : Call}
    {calls : List Call} {gaps : Nat → List Interrupt} :
    runEvents (threadStep exec interrupt) start (weave (c :: calls) gaps) =
        some finish ↔
      ∃ next, runEvents interrupt start (gaps 0) = some next ∧
        runEvents (threadStep exec interrupt) (exec next c)
          (weave calls fun k => gaps (k + 1)) = some finish := by
  rw [weave, runEvents_append_eq_some_iff]
  simp only [runEvents_map_interrupt, runEvents_cons, threadStep,
    Option.bind_some]

theorem runEvents_weave_quiet (start : State) (calls : List Call) :
    runEvents (threadStep exec interrupt) start (weave calls fun _ => []) =
      some (calls.foldl exec start) := by
  induction calls generalizing start with
  | nil => rfl
  | cons c calls ih => exact ih (exec start c)

end Weaving

section Statements

variable {Store : Type u} {Stmt : Type v}

/-- A thread stopped at a statement boundary: what it shares with the other
events, and the statements it has yet to execute. -/
structure Thread (Store : Type u) (Stmt : Type v) where
  store : Store
  todo : List Stmt

/-- Execute the next statement.  A branch is a statement that puts the
statements of its body in front of the others. -/
def Thread.advance (exec : Store → Stmt → Store × List Stmt) :
    Thread Store Stmt → Option (Thread Store Stmt)
  | ⟨_, []⟩ => none
  | ⟨store, stmt :: rest⟩ =>
      some ⟨(exec store stmt).1, (exec store stmt).2 ++ rest⟩

variable {exec : Store → Stmt → Store × List Stmt}

@[simp] theorem Thread.advance_cons (store : Store) (stmt : Stmt)
    (rest : List Stmt) :
    Thread.advance exec ⟨store, stmt :: rest⟩ =
      some ⟨(exec store stmt).1, (exec store stmt).2 ++ rest⟩ := rfl

theorem Thread.advance_eq_some_iff {s t : Thread Store Stmt} :
    Thread.advance exec s = some t ↔
      ∃ stmt rest, s.todo = stmt :: rest ∧
        t = ⟨(exec s.store stmt).1, (exec s.store stmt).2 ++ rest⟩ := by
  rcases s with ⟨store, todo⟩
  cases todo with
  | nil => simp [Thread.advance]
  | cons stmt rest =>
      simp only [Thread.advance_cons, Option.some.injEq, List.cons.injEq]
      constructor
      · rintro rfl
        exact ⟨stmt, rest, ⟨rfl, rfl⟩, rfl⟩
      · rintro ⟨_, _, ⟨rfl, rfl⟩, rfl⟩
        rfl

end Statements

end AutomaticDoor.Foundations.Interleaving
