import AutomaticDoor.ExtiLines

/-!
Runs of `EXTI15_10_IRQHandler` between edges on the two pins.  The flags follow
the pins until a handler run acknowledges a line that it has not served, which
the read-modify-write of the pending register does whenever more than one bit
is pending.
-/

namespace AutomaticDoor.PendingLines

open AutomaticDoor.BoardRegisters
open AutomaticDoor.ExtiLines
open AutomaticDoor.InterruptHandlers

inductive ExtiEvent
  | edge (l : Line)
  | handler
deriving DecidableEq

def extiStep (b : Board) : ExtiEvent → Board
  | .edge l => pinEdge l b
  | .handler => exti15_10IrqHandler b

def runExti (b : Board) (events : List ExtiEvent) : Board :=
  events.foldl extiStep b

structure IdleStart (b : Board) : Prop where
  released : lineHigh .button b = true
  low : lineHigh .pir b = false
  flagPressed : b.flagPressed = false
  flagReleased : b.flagReleased = false
  sensorStatus : b.sensorStatus = false

/-- When no line is pending, `sensor_status` is the PIR level, and
`flag_pressed` is true exactly when the button pin is low. -/
def Settled (b : Board) : Prop :=
  (∀ l, linePending l b = false) →
    b.sensorStatus = lineHigh .pir b ∧
      (b.flagPressed = true ↔ lineHigh .button b = false)

def served : Line → Board → Bool
  | .button, b => linePending .button b
  | .pir, b => linePending .pir (serveLine .button b)

/-- Every bit that the handler run clears is that of a line it has served. -/
def ClearsOnlyServed (b : Board) : Prop :=
  ∀ i, b.exti.pr.getLsbD i = true →
    (exti15_10IrqHandler b).exti.pr.getLsbD i = false →
      ∃ l : Line, (l.pin : Nat) = i ∧ served l b = true

/-- Neither line is pending, or the bit of one of them is all that is pending. -/
def NoneOrOneLine (b : Board) : Prop :=
  (∀ l, linePending l b = false) ∨ ∃ l : Line, b.exti.pr = bitPosToMask l.pin

/-- The condition on the state before an event: a handler run that finds both
lines pending finds the PIR level already in `sensor_status`. -/
def ExtiEvent.Harmless (b : Board) : ExtiEvent → Prop
  | .edge _ => True
  | .handler => (∀ l, linePending l b = true) → b.sensorStatus = lineHigh .pir b

def HarmlessRun : Board → List ExtiEvent → Prop
  | _, [] => True
  | b, e :: events => e.Harmless b ∧ HarmlessRun (extiStep b e) events

/-- The invariant: a line that is not pending has its level in the flags. -/
def LinesHeld (b : Board) : Prop :=
  ∀ l, linePending l b = false → heldHigh l b = lineHigh l b

theorem settled_iff {b : Board} :
    Settled b ↔
      ((∀ l, linePending l b = false) → ∀ l, heldHigh l b = lineHigh l b) := by
  have hlines : (b.sensorStatus = lineHigh .pir b ∧
      (b.flagPressed = true ↔ lineHigh .button b = false)) ↔
        ∀ l, heldHigh l b = lineHigh l b := by
    constructor
    · rintro ⟨hpir, hbutton⟩ l
      cases l with
      | button =>
          simp only [heldHigh]
          cases hpressed : b.flagPressed <;> cases hhigh : lineHigh .button b <;>
            simp_all
      | pir => exact hpir
    · intro h
      refine ⟨h .pir, ?_⟩
      have hbutton := h .button
      simp only [heldHigh] at hbutton
      rw [← hbutton]
      simp
  rw [Settled, hlines]

theorem LinesHeld.settled {b : Board} (h : LinesHeld b) : Settled b :=
  settled_iff.mpr fun hclear l => h l (hclear l)

theorem IdleStart.linesHeld {b : Board} (h : IdleStart b) : LinesHeld b := by
  intro l _
  cases l with
  | button => simp [heldHigh, h.flagPressed, h.released]
  | pir => simp [heldHigh, h.sensorStatus, h.low]

theorem linesHeld_pinEdge {b : Board} (l : Line) (h : LinesHeld b) :
    LinesHeld (pinEdge l b) := by
  intro m hm
  by_cases hlm : l = m
  · subst m
    rw [linePending_pinEdge_self] at hm
    exact absurd hm (by simp)
  · rw [linePending_pinEdge_of_ne l b hlm] at hm
    rw [heldHigh_pinEdge, lineHigh_pinEdge_of_ne l b hlm]
    exact h m hm

theorem linesHeld_serveLine_iff {b : Board} {l m : Line} (hlm : m ≠ l)
    (hpending : linePending l b = true) :
    LinesHeld (serveLine l b) ↔ heldHigh m b = lineHigh m b := by
  rw [serveLine_of_pending l b hpending]
  have hself : ∀ n, n ≠ m → n = l := by
    intro n hn
    cases n <;> cases m <;> cases l <;> simp_all
  constructor
  · intro h
    have hm := h m (linePending_acknowledge l m _)
    rwa [heldHigh_acknowledge, heldHigh_updateFlags_of_ne _ _ hlm,
      lineHigh_acknowledge, lineHigh_updateFlags] at hm
  · intro hm n _
    rw [heldHigh_acknowledge, lineHigh_acknowledge, lineHigh_updateFlags]
    by_cases hn : n = m
    · rw [hn, heldHigh_updateFlags_of_ne _ _ hlm]
      exact hm
    · rw [hself n hn]
      exact heldHigh_updateFlags_self l _ b

theorem linesHeld_handler_iff {b : Board} (h : LinesHeld b) :
    LinesHeld (exti15_10IrqHandler b) ↔ ExtiEvent.handler.Harmless b := by
  by_cases hbutton : linePending .button b = true
  · rw [exti15_10IrqHandler_of_button b hbutton,
      linesHeld_serveLine_iff (m := .pir) (by decide) hbutton]
    constructor
    · exact fun hpir _ => hpir
    · intro hharmless
      by_cases hpir : linePending .pir b = true
      · exact hharmless fun l => by cases l <;> assumption
      · exact h .pir (by simpa using hpir)
  · have hidle : linePending .button b = false := by simpa using hbutton
    rw [exti15_10IrqHandler_of_not_button b hidle]
    refine iff_of_true ?_ fun hboth => absurd (hboth .button) hbutton
    by_cases hpir : linePending .pir b = true
    · rw [linesHeld_serveLine_iff (m := .button) (by decide) hpir]
      exact h .button hidle
    · rwa [serveLine_of_not_pending _ _ (by simpa using hpir)]

/-- A harmful handler run leaves no line pending, so that it shows at once. -/
theorem settled_handler_iff {b : Board} (h : LinesHeld b) :
    Settled (exti15_10IrqHandler b) ↔ ExtiEvent.handler.Harmless b := by
  rw [← linesHeld_handler_iff h]
  refine ⟨?_, LinesHeld.settled⟩
  intro hsettled
  by_cases hnone : ∀ l, linePending l b = false
  · have hbutton := exti15_10IrqHandler_of_not_button b (hnone .button)
    rw [hbutton, serveLine_of_not_pending _ _ (hnone .pir)]
    exact h
  · have hclear : ∀ l, linePending l (exti15_10IrqHandler b) = false := by
      intro l
      by_cases hbutton : linePending .button b = true
      · rw [exti15_10IrqHandler_of_button b hbutton,
          serveLine_of_pending _ _ hbutton, linePending_acknowledge]
      · have hidle : linePending .button b = false := by simpa using hbutton
        have hpir : linePending .pir b = true := by
          by_contra hpir
          exact hnone fun l => by cases l <;> simp_all
        rw [exti15_10IrqHandler_of_not_button b hidle,
          serveLine_of_pending _ _ hpir, linePending_acknowledge]
    exact fun l _ => settled_iff.mp hsettled hclear l

theorem linesHeld_extiStep_iff {b : Board} (e : ExtiEvent) (h : LinesHeld b) :
    Settled (extiStep b e) ↔ e.Harmless b := by
  cases e with
  | edge l => exact iff_of_true (linesHeld_pinEdge l h).settled trivial
  | handler => exact settled_handler_iff h

theorem linesHeld_extiStep {b : Board} {e : ExtiEvent} (h : LinesHeld b)
    (hharmless : e.Harmless b) : LinesHeld (extiStep b e) := by
  cases e with
  | edge l => exact linesHeld_pinEdge l h
  | handler => exact (linesHeld_handler_iff h).mpr hharmless

theorem settled_prefixes_iff {b : Board} (events : List ExtiEvent)
    (h : LinesHeld b) :
    (∀ front, front <+: events → Settled (runExti b front)) ↔
      HarmlessRun b events := by
  induction events generalizing b with
  | nil =>
      refine iff_of_true ?_ trivial
      intro front hfront
      rw [List.prefix_nil.mp hfront]
      exact h.settled
  | cons e events ih =>
      constructor
      · intro hsettled
        have hstep : Settled (extiStep b e) :=
          hsettled [e] ((List.prefix_cons_inj e).mpr List.nil_prefix)
        have hharmless := (linesHeld_extiStep_iff e h).mp hstep
        refine ⟨hharmless, (ih (linesHeld_extiStep h hharmless)).mp ?_⟩
        exact fun front hfront =>
          hsettled (e :: front) ((List.prefix_cons_inj e).mpr hfront)
      · rintro ⟨hharmless, hrest⟩ front hfront
        rcases List.prefix_cons_iff.mp hfront with rfl | ⟨back, rfl, hback⟩
        · exact h.settled
        · exact (ih (linesHeld_extiStep h hharmless)).mpr hrest back hback

theorem served_eq_true_iff (l : Line) (b : Board) :
    served l b = true ↔
      linePending l b = true ∧ (l = .pir → linePending .button b = false) := by
  cases l with
  | button => simp [served]
  | pir =>
      by_cases hbutton : linePending .button b = true
      · simp [served, serveLine_of_pending .button b hbutton, hbutton]
      · have hidle : linePending .button b = false := by simpa using hbutton
        simp [served, serveLine_of_not_pending .button b hidle, hidle]

theorem exists_served {b : Board} (h : ¬ ∀ l, linePending l b = false) :
    ∃ l, served l b = true ∧ ∀ m, served m b = true → m = l := by
  simp only [served_eq_true_iff]
  by_cases hbutton : linePending .button b = true
  · refine ⟨.button, ⟨hbutton, by simp⟩, ?_⟩
    rintro m ⟨_, hm⟩
    cases m with
    | button => rfl
    | pir => exact absurd hbutton (by simp [hm rfl])
  · have hidle : linePending .button b = false := by simpa using hbutton
    have hpir : linePending .pir b = true := by
      by_contra hpir
      exact h fun l => by cases l <;> simp_all
    refine ⟨.pir, ⟨hpir, fun _ => hidle⟩, ?_⟩
    rintro m ⟨hm, _⟩
    cases m with
    | button => exact absurd hm hbutton
    | pir => rfl

theorem exti15_10IrqHandler_pr {b : Board}
    (h : ¬ ∀ l, linePending l b = false) :
    (exti15_10IrqHandler b).exti.pr = 0 := by
  obtain ⟨l, hserved, _⟩ := exists_served h
  obtain ⟨hpending, hfirst⟩ := (served_eq_true_iff l b).mp hserved
  cases l with
  | button =>
      rw [exti15_10IrqHandler_of_button b hpending,
        serveLine_of_pending _ _ hpending, acknowledge_pr]
  | pir =>
      rw [exti15_10IrqHandler_of_not_button b (hfirst rfl),
        serveLine_of_pending _ _ hpending, acknowledge_pr]

theorem clearsOnlyServed_iff (b : Board) :
    ClearsOnlyServed b ↔ NoneOrOneLine b := by
  by_cases hnone : ∀ l, linePending l b = false
  · refine iff_of_true ?_ (.inl hnone)
    intro i hi hcleared
    rw [exti15_10IrqHandler_of_not_button b (hnone .button),
      serveLine_of_not_pending _ _ (hnone .pir), hi] at hcleared
    exact absurd hcleared (by simp)
  · have hcleared := exti15_10IrqHandler_pr hnone
    obtain ⟨l, hserved, hunique⟩ := exists_served hnone
    have hpending := ((served_eq_true_iff l b).mp hserved).1
    rw [linePending_eq] at hpending
    constructor
    · intro h
      refine .inr ⟨l, ?_⟩
      apply BitVec.eq_of_getLsbD_eq
      intro i hi
      rw [bitPosToMask_eq_twoPow, BitVec.getLsbD_twoPow]
      by_cases hbit : b.exti.pr.getLsbD i = true
      · obtain ⟨m, hm, hmserved⟩ := h i hbit (by simp [hcleared])
        rw [hunique m hmserved] at hm
        simp [hbit, hm, hi]
      · have hne : (l.pin : Nat) ≠ i := fun heq => hbit (heq ▸ hpending)
        simpa [hne] using hbit
    · rintro (hidle | ⟨m, hm⟩) i hi _
      · exact absurd hidle hnone
      · rw [hm, bitPosToMask_eq_twoPow, BitVec.getLsbD_twoPow] at hi hpending
        simp only [Bool.and_eq_true, decide_eq_true_eq] at hi hpending
        exact ⟨l, hpending.2.symm.trans hi.2, hserved⟩

/-- The flags follow the pins in every state of a run exactly when each
handler run that finds both lines pending finds the PIR level already in
`sensor_status`, and a handler run clears only lines it has served exactly
when no line is pending, or the bit of one line and no other. -/
theorem handler_loses_no_line_iff (b : Board) (events : List ExtiEvent) :
    (IdleStart b →
      ((∀ front, front <+: events → Settled (runExti b front)) ↔
        HarmlessRun b events)) ∧
      (ClearsOnlyServed b ↔ NoneOrOneLine b) :=
  ⟨fun hstart => settled_prefixes_iff events hstart.linesHeld,
    clearsOnlyServed_iff b⟩

theorem idleBoard_start : IdleStart idleBoard where
  released := by decide
  low := by decide
  flagPressed := rfl
  flagReleased := rfl
  sensorStatus := rfl

/-- A button press and a presence that are handled together: the handler run
acknowledges the PIR line without serving it, and the presence is not seen. -/
theorem presence_lost_with_press :
    IdleStart idleBoard ∧
      ¬ Settled (runExti idleBoard [.edge .pir, .edge .button, .handler]) ∧
      ¬ ClearsOnlyServed (runExti idleBoard [.edge .pir, .edge .button]) := by
  refine ⟨idleBoard_start, ?_, ?_⟩
  · intro h
    have hclear : ∀ l, linePending l (runExti idleBoard
        [.edge .pir, .edge .button, .handler]) = false := by
      intro l
      cases l <;> decide
    exact absurd (h hclear).1 (by decide)
  · intro h
    obtain ⟨l, hl, hserved⟩ := h 10 (by decide) (by decide)
    cases l with
    | button => exact absurd hl (by decide)
    | pir => exact absurd hserved (by decide)

/-- A presence that has come and gone when the button is pressed: the handler
run finds both lines pending, and the level that it misses is the one it had. -/
theorem handler_loses_no_line_both_pending :
    Settled (runExti idleBoard
        [.edge .pir, .edge .pir, .edge .button, .handler]) ∧
      ClearsOnlyServed (runExti idleBoard [.edge .pir]) := by
  have hlevel :
      (runExti idleBoard [.edge .pir, .edge .pir, .edge .button]).sensorStatus =
        lineHigh .pir (runExti idleBoard [.edge .pir, .edge .pir, .edge .button]) := by
    decide
  have hharmless : HarmlessRun idleBoard
      [.edge .pir, .edge .pir, .edge .button, .handler] :=
    ⟨trivial, trivial, trivial, fun _ => hlevel, trivial⟩
  refine ⟨((handler_loses_no_line_iff idleBoard _).1 idleBoard_start).mpr
    hharmless _ (List.prefix_refl _), ?_⟩
  exact (handler_loses_no_line_iff _ []).2.mpr (.inr ⟨.pir, by decide⟩)

end AutomaticDoor.PendingLines
