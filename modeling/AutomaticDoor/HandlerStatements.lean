import Mathlib.Algebra.Group.Nat.Even
import AutomaticDoor.Foundations.Interleaving
import AutomaticDoor.ExtiLines

/-!
`EXTI15_10_IRQHandler` statement by statement, with edges on one of the pins
between the statements.  The handler reads the level before it acknowledges
the line, so an edge in between is acknowledged with the one it serves.
-/

namespace AutomaticDoor.HandlerStatements

open AutomaticDoor.BoardRegisters
open AutomaticDoor.ExtiLines
open AutomaticDoor.Foundations.EventSystems
open AutomaticDoor.Foundations.Interleaving
open AutomaticDoor.InterruptHandlers

/-- The statements of the handler.  The level that is read is kept in the
update that it selects. -/
inductive HandlerStmt
  | testPending (l : Line)
  | readPin (l : Line)
  | updateFlags (l : Line) (high : Bool)
  | writePr (l : Line)
deriving DecidableEq

def HandlerStmt.exec (b : Board) : HandlerStmt → Board × List HandlerStmt
  | testPending l => (b, if linePending l b then [readPin l, writePr l] else [])
  | readPin l => (b, [updateFlags l (lineHigh l b)])
  | updateFlags l high => (InterruptHandlers.updateFlags l high b, [])
  | writePr l => (acknowledge l b, [])

abbrev HandlerThread := Thread Board HandlerStmt

def handlerBody : List HandlerStmt := [.testPending .button, .testPending .pir]

inductive HandlerEvent
  | edge
  | enter
  | advance
deriving DecidableEq

def handlerStep (l : Line) (t : HandlerThread) :
    HandlerEvent → Option HandlerThread
  | .edge => some { t with store := pinEdge l t.store }
  | .enter => if t.todo = [] then some { t with todo := handlerBody } else none
  | .advance => t.advance HandlerStmt.exec

/-- Without edges between its statements this is the handler. -/
theorem runEvents_handlerBody (l : Line) (b : Board) :
    ∃ n, runEvents (handlerStep l) ⟨b, []⟩
        (.enter :: List.replicate n .advance) =
      some ⟨exti15_10IrqHandler b, []⟩ := by
  have hbody : ∀ events, runEvents (handlerStep l) ⟨b, []⟩ (.enter :: events) =
      runEvents (handlerStep l) ⟨b, handlerBody⟩ events := fun _ => rfl
  by_cases hnone : ∀ m, linePending m b = false
  · refine ⟨2, ?_⟩
    simp [hbody, runEvents_cons, handlerStep, handlerBody, HandlerStmt.exec,
      exti15_10IrqHandler, serveLine, hnone]
  · refine ⟨5, ?_⟩
    cases hbutton : linePending .button b with
    | true =>
        simp [hbody, runEvents_cons, handlerStep, handlerBody,
          HandlerStmt.exec, exti15_10IrqHandler, serveLine, hbutton]
    | false =>
        have hpir : linePending .pir b = true := by
          by_contra hclear
          apply hnone
          intro m
          cases m
          · exact hbutton
          · simpa using hclear
        simp [hbody, runEvents_cons, handlerStep, handlerBody,
          HandlerStmt.exec, exti15_10IrqHandler, serveLine, hbutton, hpir]

def idleHigh : Line → Bool
  | .button => true
  | .pir => false

structure IdleLine (l : Line) (b : Board) : Prop where
  idle : lineHigh l b = idleHigh l
  flagPressed : b.flagPressed = false
  flagReleased : b.flagReleased = false
  sensorStatus : b.sensorStatus = false
  clear : ∀ m, linePending m b = false

/-- `sensor_status` is the PIR level, or `flag_pressed` is true exactly when
the button pin is low. -/
def FlagFits : Line → Board → Prop
  | .button, b => b.flagPressed = true ↔ lineHigh .button b = false
  | .pir, b => b.sensorStatus = lineHigh .pir b

theorem flagFits_iff {l : Line} {b : Board} :
    FlagFits l b ↔ heldHigh l b = lineHigh l b := by
  cases l
  · simp only [FlagFits, heldHigh]
    cases b.flagPressed <;> cases lineHigh .button b <;> simp
  · rfl

def HandlerStmt.inWindow : HandlerStmt → Bool
  | updateFlags _ _ | writePr _ => true
  | testPending _ | readPin _ => false

/-- The number of edges between the last read of the pin and the write to
`PR` that follows it, counted along the events. -/
def lateEdges (t : HandlerThread) (late : Nat) : HandlerEvent → Nat
  | .edge =>
      match t.todo with
      | stmt :: _ => if stmt.inWindow then late + 1 else late
      | [] => late
  | .enter => late
  | .advance =>
      match t.todo with
      | .readPin _ :: _ => 0
      | _ => late

def countedStep (l : Line) (s : HandlerThread × Nat) (e : HandlerEvent) :
    Option (HandlerThread × Nat) :=
  (handlerStep l s.1 e).map fun t => (t, lateEdges s.1 s.2 e)

/-- Counting the late edges restricts no run. -/
theorem runEvents_counted {l : Line} {t t' : HandlerThread} (late : Nat)
    {events : List HandlerEvent}
    (hrun : runEvents (handlerStep l) t events = some t') :
    ∃ late', runEvents (countedStep l) (t, late) events = some (t', late') := by
  have hstep : ∀ s u e u', s.1 = u → handlerStep l u e = some u' →
      ∃ s', countedStep l s e = some s' ∧ s'.1 = u' := by
    rintro s u e u' rfl he
    exact ⟨(u', lateEdges s.1 s.2 e), by simp [countedStep, he], rfl⟩
  obtain ⟨s, hs, rfl⟩ := runEvents_simulated hstep (a := (t, late)) rfl hrun
  exact ⟨s.2, hs⟩

def afterBranch : Line → List HandlerStmt
  | .button => [.testPending .pir]
  | .pir => []

/-- The phases of the handler.  Outside of the branch a line that is not
pending has its level in the flags unless the count of late edges is odd;
between the read and the acknowledgement the level read, and then the flags,
stand in the same relation to the pin. -/
inductive Phase (l : Line) (b : Board) (late : Nat) : List HandlerStmt → Prop
  | outside {todo : List HandlerStmt}
      (htodo : todo = [] ∨ todo = handlerBody ∨ todo = [.testPending .pir])
      (hheld : linePending l b = false →
        (heldHigh l b = lineHigh l b ↔ Even late)) :
      Phase l b late todo
  | reading (hpending : linePending l b = true) :
      Phase l b late (.readPin l :: .writePr l :: afterBranch l)
  | updating (high : Bool) (hpending : linePending l b = true)
      (hread : high = lineHigh l b ↔ Even late) :
      Phase l b late (.updateFlags l high :: .writePr l :: afterBranch l)
  | writing (hpending : linePending l b = true)
      (hheld : heldHigh l b = lineHigh l b ↔ Even late) :
      Phase l b late (.writePr l :: afterBranch l)

def InPhase (l : Line) (s : HandlerThread × Nat) : Prop :=
  (∀ m, m ≠ l → linePending m s.1.store = false) ∧
    Phase l s.1.store s.2 s.1.todo

theorem afterBranch_outside (l : Line) :
    afterBranch l = [] ∨ afterBranch l = handlerBody ∨
      afterBranch l = [.testPending .pir] := by
  cases l <;> simp [afterBranch]

theorem eq_not_iff_even_succ {x y : Bool} {n : Nat} (h : x = y ↔ Even n) :
    x = !y ↔ Even (n + 1) := by
  rw [Nat.even_add_one, ← h]
  cases x <;> cases y <;> simp

section Steps

variable {l : Line} {b : Board} {late : Nat}

theorem inPhase_edge {todo : List HandlerStmt}
    (h : InPhase l (⟨b, todo⟩, late)) :
    InPhase l (⟨pinEdge l b, todo⟩, lateEdges ⟨b, todo⟩ late .edge) := by
  obtain ⟨hother, hphase⟩ := h
  have hpending : linePending l (pinEdge l b) = true :=
    linePending_pinEdge_self l b
  constructor
  · intro m hm
    exact (linePending_pinEdge_of_ne l b (Ne.symm hm)).trans (hother m hm)
  · dsimp only at hphase ⊢
    cases hphase with
    | outside htodo _ =>
        apply Phase.outside htodo
        intro hclear
        exact absurd (hpending.symm.trans hclear) (by simp)
    | reading _ => exact .reading hpending
    | updating high _ hread =>
        -- the line is pending already, so only the level changes
        refine .updating high hpending ?_
        rw [lineHigh_pinEdge_self]
        exact eq_not_iff_even_succ hread
    | writing _ hheld =>
        refine .writing hpending ?_
        rw [lineHigh_pinEdge_self, heldHigh_pinEdge]
        exact eq_not_iff_even_succ hheld

theorem inPhase_testPending {m : Line} {rest : List HandlerStmt}
    (hother : ∀ m, m ≠ l → linePending m b = false)
    (hrest : rest = [] ∨ rest = handlerBody ∨ rest = [.testPending .pir])
    (hafter : m = l → rest = afterBranch l)
    (hheld : linePending l b = false →
      (heldHigh l b = lineHigh l b ↔ Even late)) :
    Phase l b late ((HandlerStmt.exec b (.testPending m)).2 ++ rest) := by
  simp only [HandlerStmt.exec]
  by_cases hm : m = l
  · subst hm
    split
    · rename_i hpending
      rw [hafter rfl]
      exact .reading hpending
    · exact .outside hrest hheld
  · rw [hother m hm]
    exact .outside hrest hheld

theorem inPhase_advance {stmt : HandlerStmt} {rest : List HandlerStmt}
    (h : InPhase l (⟨b, stmt :: rest⟩, late)) :
    InPhase l (⟨(stmt.exec b).1, (stmt.exec b).2 ++ rest⟩,
      lateEdges ⟨b, stmt :: rest⟩ late .advance) := by
  obtain ⟨hother, hphase⟩ := h
  dsimp only at hother hphase
  obtain ⟨todo, htodo⟩ : ∃ todo, todo = stmt :: rest := ⟨_, rfl⟩
  rw [← htodo] at hphase
  cases hphase with
  | outside htests hheld =>
      rw [htodo] at htests
      -- only the test of the line with edges can enter a branch
      rcases htests with hnone | hbody | hpir
      · cases hnone
      · cases hbody
        refine ⟨hother, inPhase_testPending hother ?_ ?_ hheld⟩
        · exact Or.inr (Or.inr rfl)
        · rintro rfl
          rfl
      · cases hpir
        refine ⟨hother, inPhase_testPending hother (Or.inl rfl) ?_ hheld⟩
        rintro rfl
        rfl
  | reading hpending =>
      cases htodo
      exact ⟨hother, .updating (lineHigh l b) hpending
        (by simp [HandlerStmt.exec, lateEdges])⟩
  | updating high hpending hread =>
      cases htodo
      refine ⟨?_, .writing ?_ ?_⟩
      · intro m hm
        exact (linePending_updateFlags l m high b).trans (hother m hm)
      · exact (linePending_updateFlags l l high b).trans hpending
      · simpa [HandlerStmt.exec, lateEdges] using hread
  | writing _ hheld =>
      cases htodo
      refine ⟨fun m _ => linePending_acknowledge l m b,
        .outside (afterBranch_outside l) ?_⟩
      intro _
      simpa [HandlerStmt.exec, lateEdges] using hheld

theorem inPhase_step (s : HandlerThread × Nat) (e : HandlerEvent)
    (s' : HandlerThread × Nat) (h : InPhase l s)
    (hstep : countedStep l s e = some s') : InPhase l s' := by
  obtain ⟨⟨b, todo⟩, late⟩ := s
  obtain ⟨t, ht, rfl⟩ := Option.map_eq_some_iff.mp hstep
  cases e with
  | edge =>
      cases ht
      exact inPhase_edge h
  | enter =>
      simp only [handlerStep, Option.ite_none_right_eq_some,
        Option.some.injEq] at ht
      obtain ⟨rfl, rfl⟩ := ht
      obtain ⟨hother, hphase⟩ := h
      refine ⟨hother, ?_⟩
      cases hphase with
      | outside _ hheld => exact .outside (Or.inr (Or.inl rfl)) hheld
  | advance =>
      obtain ⟨stmt, rest, rfl, rfl⟩ := Thread.advance_eq_some_iff.mp ht
      exact inPhase_advance h

theorem inPhase_of_idleLine (h : IdleLine l b) : InPhase l (⟨b, []⟩, 0) := by
  refine ⟨fun m _ => h.clear m, .outside (Or.inl rfl) ?_⟩
  intro _
  have hheld : heldHigh l b = idleHigh l := by
    cases l
    · simp [heldHigh, h.flagPressed, idleHigh]
    · exact h.sensorStatus
  simp [hheld, h.idle]

end Steps

/-- Whenever the handler is not running and the line is not pending, its flag
fits the pin exactly when an even number of edges fell between the last read
of the pin and the write to `PR` that acknowledged them. -/
theorem flag_fits_iff_even_late_edges (l : Line) (b : Board)
    (hstart : IdleLine l b) (events : List HandlerEvent) (t : HandlerThread)
    (hrun : runEvents (handlerStep l) ⟨b, []⟩ events = some t)
    (hidle : t.todo = []) (hclear : linePending l t.store = false) :
    ∃ late, runEvents (countedStep l) (⟨b, []⟩, 0) events = some (t, late) ∧
      (FlagFits l t.store ↔ Even late) := by
  obtain ⟨late, hcounted⟩ := runEvents_counted 0 hrun
  obtain ⟨_, hphase⟩ : InPhase l (t, late) :=
    invariant_of_runEvents' inPhase_step (inPhase_of_idleLine hstart) hcounted
  refine ⟨late, hcounted, ?_⟩
  rw [flagFits_iff]
  dsimp only at hphase
  rw [hidle] at hphase
  cases hphase with
  | outside _ hheld => exact hheld hclear

theorem idleBoard_idleLine (l : Line) : IdleLine l idleBoard where
  idle := by cases l <;> decide
  flagPressed := rfl
  flagReleased := rfl
  sensorStatus := rfl
  clear m := by cases m <;> decide

def servedWith (late : List HandlerEvent) : Line → List HandlerEvent
  | .button =>
      [.edge, .enter, .advance, .advance] ++ late ++
        [.advance, .advance, .advance]
  | .pir =>
      [.edge, .enter, .advance, .advance, .advance] ++ late ++
        [.advance, .advance]

theorem late_edge_not_fits (l : Line) :
    ∃ t, runEvents (handlerStep l) ⟨idleBoard, []⟩ (servedWith [.edge] l) =
        some t ∧
      t.todo = [] ∧ linePending l t.store = false ∧ ¬ FlagFits l t.store := by
  cases l with
  | button =>
      exact ⟨_, rfl, rfl, by decide,
        fun h => absurd (flagFits_iff.mp h) (by decide)⟩
  | pir =>
      exact ⟨_, rfl, rfl, by decide,
        fun h => absurd (flagFits_iff.mp h) (by decide)⟩

theorem late_edge_lost :
    (IdleLine .pir idleBoard ∧
      ∃ t, runEvents (handlerStep .pir) ⟨idleBoard, []⟩
          (servedWith [.edge] .pir) = some t ∧
        t.todo = [] ∧ linePending .pir t.store = false ∧
          ¬ FlagFits .pir t.store) ∧
      IdleLine .button idleBoard ∧
        ∃ t, runEvents (handlerStep .button) ⟨idleBoard, []⟩
            (servedWith [.edge] .button) = some t ∧
          t.todo = [] ∧ linePending .button t.store = false ∧
            ¬ FlagFits .button t.store :=
  ⟨⟨idleBoard_idleLine .pir, late_edge_not_fits .pir⟩,
    idleBoard_idleLine .button, late_edge_not_fits .button⟩

theorem flag_fits_two_late_edges :
    ∃ t late, runEvents (countedStep .pir) (⟨idleBoard, []⟩, 0)
        (servedWith [.edge, .edge] .pir) = some (t, late) ∧
      (FlagFits .pir t.store ↔ Even late) := by
  obtain ⟨late, hlate⟩ := flag_fits_iff_even_late_edges .pir idleBoard
    (idleBoard_idleLine .pir) (servedWith [.edge, .edge] .pir) _ rfl rfl
    (by decide)
  exact ⟨_, late, hlate⟩

end AutomaticDoor.HandlerStatements
