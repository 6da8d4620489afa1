import Mathlib.Tactic.IntervalCases
import AutomaticDoor.MotorStatements

/-!
The motor timer is a one-shot: over every run of its calls, statement by
statement, an activation arms it and only an overflow reports a timeout.
-/

namespace AutomaticDoor.MotorOneShot

open AutomaticDoor.BoardRegisters
open AutomaticDoor.Foundations.EventSystems
open AutomaticDoor.Foundations.Interleaving
open AutomaticDoor.InterruptHandlers
open AutomaticDoor.MotorStatements
open AutomaticDoor.PortMotor

structure TimerFlags where
  cen : Bool
  urs : Bool
  uie : Bool
  uif : Bool
  timeout : Bool
deriving DecidableEq

namespace TimerFlags

def exec (f : TimerFlags) : MotorStmt → TimerFlags
  | .clearCen => { f with cen := false }
  | .setCen => { f with cen := true }
  | .clearSr | .clearUif => { f with uif := false }
  | .setTimeoutStatus true => { f with uie := false, timeout := true }
  | .setTimeoutStatus false => { f with timeout := false }
  | .generateUpdate => { f with uif := f.uif || !f.urs }
  | .setUrs => { f with urs := true }
  | .setUie => { f with uie := true }
  | .enableClock | .setPriority | .enableIrq | .setArpe | .writePsc _
  | .writeArr _ | .clearCnt => f

def overflow (f : TimerFlags) : TimerFlags := { f with uif := true }

def preempt (f : TimerFlags) : TimerFlags :=
  if f.uif && f.uie then { f with uie := false, uif := false, timeout := true }
  else f

theorem preempt_of_not_pending {f : TimerFlags}
    (h : (f.uif && f.uie) = false) : f.preempt = f := by
  simp [preempt, h]

end TimerFlags

def flagsOf (b : Board) : TimerFlags :=
  ⟨(b.tim .TIM2).cen, (b.tim .TIM2).urs, (b.tim .TIM2).uie, (b.tim .TIM2).uif,
    b.timeout⟩

section Flags

variable (b : Board)

theorem flagsOf_exec (stmt : MotorStmt) :
    flagsOf (stmt.exec b) = (flagsOf b).exec stmt := by
  cases stmt with
  | setTimeoutStatus timeout =>
      cases timeout <;>
        simp [flagsOf, MotorStmt.exec, TimerFlags.exec,
          portMotorSetTimeoutStatus, motorAutomaticDoor]
  | enableClock | setPriority | enableIrq => rfl
  | _ =>
      simp [flagsOf, MotorStmt.exec, TimerFlags.exec, TimRegs.updateGeneration]

theorem flagsOf_overflow :
    flagsOf (b.onTim .TIM2 TimRegs.overflow) = (flagsOf b).overflow := by
  simp [flagsOf, TimerFlags.overflow, TimRegs.overflow]

theorem flagsOf_preempt : flagsOf (preempt b) = (flagsOf b).preempt := by
  rw [preempt, TimerFlags.preempt]
  by_cases hpending : ((b.tim .TIM2).uif && (b.tim .TIM2).uie) = true
  · have hflags : ((flagsOf b).uif && (flagsOf b).uie) = true := hpending
    obtain ⟨huif, _⟩ := Bool.and_eq_true_iff.mp hpending
    rw [if_pos hpending, if_pos hflags]
    simp [flagsOf, tim2IrqHandler, huif, clearUpdateFlag,
      portMotorSetTimeoutStatus, motorAutomaticDoor]
  · have hflags : ¬ ((flagsOf b).uif && (flagsOf b).uie) = true := hpending
    rw [if_neg hpending, if_neg hflags]

end Flags

/-- What holds after `k` statements of an activation. -/
structure Progress (k : Nat) (f : TimerFlags) : Prop where
  stopped : 1 ≤ k → k ≤ 5 → f.cen = false
  reset : 2 ≤ k → f.timeout = false
  counting : 6 ≤ k → f.cen = true
  cleared : 8 ≤ k → f.uif = false
  restricted : 9 ≤ k → f.urs = true
  enabled : 10 ≤ k → f.uie = true

structure Calm (f : TimerFlags) : Prop where
  urs_of_uie : f.uie = true → f.urs = true
  not_pending : (f.uif && f.uie) = false

/-- The call that is being executed, and how far.  Only activations need to
know how far. -/
inductive Stage (f : TimerFlags) : List MotorStmt → Prop
  | activating (arr psc : Word) {k : Nat} (hk : k < 10) (h : Progress k f) :
      Stage f ((MotorCall.activate arr psc).body.drop k)
  | init {todo : List MotorStmt} (h : todo <:+ MotorCall.init.body) :
      Stage f todo
  | deactivating {todo : List MotorStmt} (h : todo <:+ MotorCall.deactivate.body) :
      Stage f todo

structure Reachable (t : MotorThread) : Prop where
  calm : Calm (flagsOf t.store)
  stage : Stage (flagsOf t.store) t.todo

section Statements

variable {f : TimerFlags}

/-- The interrupt has to be enabled last.  An update event can set the flag only
while `URS` is clear, and then the interrupt is not enabled. -/
theorem calm_exec {stmt : MotorStmt} (h : Calm f)
    (hlast : stmt = .setUie → f.urs = true ∧ f.uif = false) :
    Calm (f.exec stmt) := by
  obtain ⟨hurs, hpending⟩ := h
  cases stmt with
  | clearSr | clearUif => exact ⟨hurs, rfl⟩
  | setTimeoutStatus timeout =>
      cases timeout
      · exact ⟨hurs, hpending⟩
      · exact ⟨fun huie => Bool.noConfusion huie, Bool.and_false _⟩
  | generateUpdate =>
      -- with the interrupt enabled `URS` is set, and the flag is not
      refine ⟨hurs, ?_⟩
      cases huie : f.uie <;> simp_all [TimerFlags.exec]
  | setUrs => exact ⟨fun _ => rfl, hpending⟩
  | setUie =>
      obtain ⟨hrestricted, hcleared⟩ := hlast rfl
      exact ⟨fun _ => hrestricted, by simp [TimerFlags.exec, hcleared]⟩
  | _ => exact ⟨hurs, hpending⟩

theorem timeout_exec {c : MotorCall} {stmt : MotorStmt} (hmem : stmt ∈ c.body)
    (h : f.timeout = false) : (f.exec stmt).timeout = false := by
  cases stmt with
  | setTimeoutStatus timeout =>
      cases timeout with
      | false => rfl
      | true => cases c <;> simp [MotorCall.body] at hmem
  | _ => exact h

theorem progress_zero (f : TimerFlags) : Progress 0 f := by
  constructor <;> omega

/-- The proof outline of an activation: each statement carries its assertions
on. -/
theorem progress_exec (arr psc : Word) {k : Nat} (hk : k < 10)
    (h : Progress k f) :
    ∃ stmt, (MotorCall.activate arr psc).body.drop k =
        stmt :: (MotorCall.activate arr psc).body.drop (k + 1) ∧
      Progress (k + 1) (f.exec stmt) ∧ (stmt = .setUie → k = 9) := by
  obtain ⟨hstopped, hreset, hcounting, hcleared, hrestricted, _⟩ := h
  interval_cases k <;> refine ⟨_, rfl, ?_, by simp⟩ <;>
    constructor <;> simp_all [TimerFlags.exec]

theorem calm_overflow (h : Calm f) : Calm f.overflow.preempt := by
  obtain ⟨hurs, hpending⟩ := h
  cases huie : f.uie <;>
    constructor <;> simp_all [TimerFlags.overflow, TimerFlags.preempt]

end Statements

section Steps

variable {t t' : MotorThread}

theorem flagsOf_overflowed (h : motorStep t .overflow = some t') :
    canOverflow t = true ∧ t'.todo = t.todo ∧
      flagsOf t'.store = (flagsOf t.store).overflow.preempt := by
  simp only [motorStep, Option.ite_none_right_eq_some, Option.some.injEq] at h
  obtain ⟨henabled, rfl⟩ := h
  exact ⟨henabled, rfl, by rw [flagsOf_preempt, flagsOf_overflow]⟩

theorem motorStep_call (b : Board) (c : MotorCall) :
    motorStep ⟨b, []⟩ (.call c) = some ⟨b, c.body⟩ := rfl

theorem called {c : MotorCall} (h : motorStep t (.call c) = some t') :
    t.todo = [] ∧ t' = ⟨t.store, c.body⟩ := by
  simp only [motorStep, Option.ite_none_right_eq_some, Option.some.injEq] at h
  exact ⟨h.1, h.2.symm⟩

theorem Reachable.exec {stmt : MotorStmt} {rest : List MotorStmt}
    (h : Reachable t) (htodo : t.todo = stmt :: rest) :
    Calm ((flagsOf t.store).exec stmt) ∧ Stage ((flagsOf t.store).exec stmt) rest ∧
      ∃ c : MotorCall, stmt ∈ c.body := by
  obtain ⟨hcalm, hstage⟩ := h
  rw [htodo] at hstage
  have hbefore : ∀ c : MotorCall, stmt :: rest <:+ c.body → stmt ∈ c.body :=
    fun c hc => hc.mem List.mem_cons_self
  generalize hlist : stmt :: rest = todo at hstage
  cases hstage with
  | activating arr psc hk hprogress =>
      obtain ⟨next, hnext, hprogress', huie⟩ := progress_exec arr psc hk hprogress
      rw [hnext] at hlist
      obtain ⟨rfl, rfl⟩ := List.cons.inj hlist
      refine ⟨calm_exec hcalm ?_, ?_, .activate arr psc,
        hbefore _ (hnext ▸ List.drop_suffix _ _)⟩
      · intro hlast
        have hk9 := huie hlast
        exact ⟨hprogress.restricted (by omega), hprogress.cleared (by omega)⟩
      · rename_i k
        rcases Nat.lt_or_ge (k + 1) 10 with hlt | hge
        · exact .activating arr psc hlt hprogress'
        · obtain rfl : k = 9 := by omega
          exact .init (List.nil_suffix ..)
  | init hsuffix =>
      subst hlist
      have hmem := hbefore _ hsuffix
      refine ⟨calm_exec hcalm ?_, .init ((List.suffix_cons _ _).trans hsuffix),
        _, hmem⟩
      rintro rfl
      simp [MotorCall.body] at hmem
  | deactivating hsuffix =>
      subst hlist
      have hmem := hbefore _ hsuffix
      refine ⟨calm_exec hcalm ?_,
        .deactivating ((List.suffix_cons _ _).trans hsuffix), _, hmem⟩
      rintro rfl
      simp [MotorCall.body] at hmem

/-- Everything an advance does in a reachable state.  No interrupt is pending
after the statement, so that none preempts. -/
theorem Reachable.advance (h : Reachable t)
    (hstep : motorStep t .advance = some t') :
    ∃ stmt rest, t.todo = stmt :: rest ∧ t'.todo = rest ∧
      flagsOf t'.store = (flagsOf t.store).exec stmt ∧ Reachable t' ∧
      ∃ c : MotorCall, stmt ∈ c.body := by
  obtain ⟨next, hnext, rfl⟩ := Option.map_eq_some_iff.mp hstep
  obtain ⟨stmt, rest, htodo, rfl⟩ := Thread.advance_eq_some_iff.mp hnext
  obtain ⟨hcalm, hstage, hmem⟩ := h.exec htodo
  have hflags : flagsOf (preempt (stmt.exec t.store)) =
      (flagsOf t.store).exec stmt := by
    rw [flagsOf_preempt, flagsOf_exec]
    exact TimerFlags.preempt_of_not_pending hcalm.not_pending
  refine ⟨stmt, rest, htodo, rfl, hflags, ⟨?_, ?_⟩, hmem⟩
  · exact hflags ▸ hcalm
  · exact hflags ▸ hstage

/-- An overflow happens before the first statement of an activation, or
outside of activations. -/
theorem stage_overflow (h : Reachable t) (henabled : canOverflow t = true) :
    Stage (flagsOf t.store).overflow.preempt t.todo := by
  obtain ⟨store, todo⟩ := t
  have hstage := h.stage
  obtain ⟨hcen, hwindow⟩ := Bool.and_eq_true_iff.mp henabled
  dsimp only at hstage hwindow ⊢
  cases hstage with
  | init hsuffix => exact .init hsuffix
  | deactivating hsuffix => exact .deactivating hsuffix
  | activating arr psc hk hprogress =>
      rename_i k
      rcases Nat.eq_zero_or_pos k with rfl | hpos
      · exact .activating arr psc hk (progress_zero _)
      · rcases Nat.lt_or_ge 5 k with hlate | hearly
        · exfalso
          interval_cases k <;> simp [MotorCall.body, MotorStmt.afterEnable] at hwindow
        · have hstopped := hprogress.stopped hpos hearly
          exact absurd (hcen.symm.trans hstopped) (by simp)

theorem reachable_step (t : MotorThread) (e : MotorEvent) (t' : MotorThread)
    (h : Reachable t) (hstep : motorStep t e = some t') : Reachable t' := by
  cases e with
  | call c =>
      obtain ⟨_, rfl⟩ := called hstep
      refine ⟨h.calm, ?_⟩
      cases c with
      | init => exact .init (List.suffix_refl _)
      | activate arr psc =>
          exact .activating arr psc (Nat.zero_lt_succ 9) (progress_zero _)
      | deactivate => exact .deactivating (List.suffix_refl _)
  | advance =>
      obtain ⟨_, _, _, _, _, hnext, _⟩ := h.advance hstep
      exact hnext
  | overflow =>
      obtain ⟨henabled, htodo, hflags⟩ := flagsOf_overflowed hstep
      refine ⟨hflags ▸ calm_overflow h.calm, ?_⟩
      rw [hflags, htodo]
      exact stage_overflow h henabled

theorem reachable_reset : Reachable ⟨Board.reset, []⟩ where
  calm := ⟨by decide, rfl⟩
  stage := .init (List.nil_suffix ..)

theorem reachable_run {events : List MotorEvent}
    (hrun : runEvents motorStep ⟨Board.reset, []⟩ events = some t) :
    Reachable t :=
  invariant_of_runEvents' reachable_step reachable_reset hrun

theorem runEvents_advances (t : MotorThread) :
    ∃ t', runEvents motorStep t (List.replicate t.todo.length .advance) =
      some t' ∧ t'.todo = [] := by
  obtain ⟨store, todo⟩ := t
  induction todo generalizing store with
  | nil => exact ⟨_, rfl, rfl⟩
  | cons stmt rest ih => exact ih (preempt (stmt.exec store))

theorem todo_suffix_of_run {events : List MotorEvent}
    (hcalls : ∀ c, .call c ∉ events)
    (hrun : runEvents motorStep t events = some t') : t'.todo <:+ t.todo := by
  have hstep : ∀ s e s', (∀ c, e ≠ MotorEvent.call c) → s.todo <:+ t.todo →
      motorStep s e = some s' → s'.todo <:+ t.todo := by
    intro s e s' hcall hs hstep
    cases e with
    | call c => exact absurd rfl (hcall c)
    | advance =>
        obtain ⟨next, hnext, rfl⟩ := Option.map_eq_some_iff.mp hstep
        obtain ⟨stmt, rest, htodo, rfl⟩ := Thread.advance_eq_some_iff.mp hnext
        rw [htodo] at hs
        exact (List.suffix_cons _ _).trans hs
    | overflow => exact (flagsOf_overflowed hstep).2.1 ▸ hs
  refine invariant_of_runEvents hstep ?_ (List.suffix_refl _) hrun
  rintro e he c rfl
  exact hcalls c he

end Steps

/-- The timer is armed: it counts, its interrupt is enabled, and no timeout has
been reported. -/
structure Armed (b : Board) : Prop where
  timeout : b.timeout = false
  uif : (b.tim .TIM2).uif = false
  cen : (b.tim .TIM2).cen = true
  uie : (b.tim .TIM2).uie = true

section Activations

variable {t t' t₁ t₂ : MotorThread}

theorem progress_of_last {f : TimerFlags} (h : Stage f [.setUie]) :
    Progress 9 f := by
  generalize hlist : [MotorStmt.setUie] = todo at h
  cases h with
  | activating arr psc hk hprogress =>
      rename_i k
      have hlength := congrArg List.length hlist
      rw [List.length_drop] at hlength
      have hbody : (MotorCall.activate arr psc).body.length = 10 := rfl
      obtain rfl : k = 9 := by
        rw [hbody, List.length_singleton] at hlength
        omega
      exact hprogress
  | init hsuffix =>
      subst hlist
      have hmem := hsuffix.mem List.mem_cons_self
      simp [MotorCall.body] at hmem
  | deactivating hsuffix =>
      subst hlist
      have hmem := hsuffix.mem List.mem_cons_self
      simp [MotorCall.body] at hmem

theorem armed_of_return {arr psc : Word} {segment : List MotorEvent}
    (ht : Reachable t) (hcalls : ∀ c, .call c ∉ segment)
    (hrun : runEvents motorStep t
      (.call (.activate arr psc) :: segment ++ [.advance]) = some t₁)
    (hreturn : t₁.todo = []) : Armed t₁.store := by
  obtain ⟨last, hsegment, hlast⟩ := runEvents_concat_eq_some_iff.mp hrun
  obtain ⟨first, hcall, hsegment⟩ := runEvents_cons_eq_some_iff.mp hsegment
  have hfirst := reachable_step _ _ _ ht hcall
  have hreachable : Reachable last :=
    invariant_of_runEvents' reachable_step hfirst hsegment
  have hsuffix := todo_suffix_of_run hcalls hsegment
  rw [(called hcall).2] at hsuffix
  obtain ⟨stmt, rest, htodo, hrest, hflags, _⟩ := hreachable.advance hlast
  rw [hreturn] at hrest
  subst hrest
  obtain rfl : stmt = .setUie := by
    rw [htodo] at hsuffix
    obtain ⟨front, hfront⟩ := hsuffix
    have hgetLast := congrArg List.getLast? hfront
    simpa [MotorCall.body] using hgetLast
  have hprogress := progress_of_last (htodo ▸ hreachable.stage)
  exact
    { timeout := (congrArg TimerFlags.timeout hflags).trans
        (hprogress.reset (by omega))
      uif := (congrArg TimerFlags.uif hflags).trans
        (hprogress.cleared (by omega))
      cen := (congrArg TimerFlags.cen hflags).trans
        (hprogress.counting (by omega))
      uie := congrArg TimerFlags.uie hflags }

theorem timeout_step {e : MotorEvent} (h : Reachable t)
    (hstep : motorStep t e = some t') (hevent : e ≠ .overflow)
    (htimeout : t.store.timeout = false) : t'.store.timeout = false := by
  cases e with
  | call c =>
      obtain ⟨_, rfl⟩ := called hstep
      exact htimeout
  | advance =>
      obtain ⟨_, _, _, _, hflags, _, c, hmem⟩ := h.advance hstep
      exact (congrArg TimerFlags.timeout hflags).trans
        (timeout_exec hmem htimeout)
  | overflow => exact absurd rfl hevent

theorem timeout_run {later : List MotorEvent} (h : Reachable t)
    (hrun : runEvents motorStep t later = some t') (hlater : .overflow ∉ later)
    (htimeout : t.store.timeout = false) : t'.store.timeout = false := by
  have hstep : ∀ s e s', e ≠ MotorEvent.overflow →
      (Reachable s ∧ s.store.timeout = false) → motorStep s e = some s' →
      Reachable s' ∧ s'.store.timeout = false := by
    intro s e s' hevent hs hstep
    exact ⟨reachable_step _ _ _ hs.1 hstep,
      timeout_step hs.1 hstep hevent hs.2⟩
  have hevents : ∀ e ∈ later, e ≠ MotorEvent.overflow := by
    rintro e he rfl
    exact hlater he
  exact (invariant_of_runEvents hstep hevents ⟨h, htimeout⟩ hrun).2

/-- No activation is in progress, and since the last one an overflow has been
reported or not.  The report has disabled the interrupt. -/
structure Reports (reported : Bool) (t : MotorThread) : Prop where
  reachable : Reachable t
  quiet : t.todo <:+ MotorCall.init.body ∨ t.todo <:+ MotorCall.deactivate.body
  timeout : (flagsOf t.store).timeout = reported
  uie : (flagsOf t.store).uie = !reported

theorem exec_of_quiet {f : TimerFlags} {stmt : MotorStmt}
    (h : stmt ∈ MotorCall.init.body ∨ stmt ∈ MotorCall.deactivate.body) :
    (f.exec stmt).timeout = f.timeout ∧ (f.exec stmt).uie = f.uie := by
  cases stmt <;> first | exact ⟨rfl, rfl⟩ | simp [MotorCall.body] at h

theorem reports_step {reported : Bool} {e : MotorEvent} (h : Reports reported t)
    (hevent : ∀ arr psc, e ≠ .call (.activate arr psc))
    (hstep : motorStep t e = some t') :
    Reports (reported || decide (e = .overflow)) t' := by
  have hreachable := reachable_step _ _ _ h.reachable hstep
  cases e with
  | call c =>
      obtain ⟨_, rfl⟩ := called hstep
      refine ⟨hreachable, ?_, by simp [h.timeout], by simp [h.uie]⟩
      cases c with
      | init => exact .inl (List.suffix_refl _)
      | activate arr psc => exact absurd rfl (hevent arr psc)
      | deactivate => exact .inr (List.suffix_refl _)
  | advance =>
      obtain ⟨stmt, rest, htodo, hrest, hflags, _⟩ := h.reachable.advance hstep
      have hquiet := h.quiet
      rw [htodo] at hquiet
      obtain ⟨htimeout, huie⟩ := exec_of_quiet (hquiet.imp
        (fun hs => hs.mem List.mem_cons_self)
        (fun hs => hs.mem List.mem_cons_self))
      refine ⟨hreachable, ?_, ?_, ?_⟩
      · rw [hrest]
        exact hquiet.imp (List.suffix_cons _ _).trans (List.suffix_cons _ _).trans
      · rw [hflags, htimeout, h.timeout]
        simp
      · rw [hflags, huie, h.uie]
        simp
  | overflow =>
      obtain ⟨_, htodo, hflags⟩ := flagsOf_overflowed hstep
      refine ⟨hreachable, htodo ▸ h.quiet, ?_, ?_⟩ <;> rw [hflags] <;>
        cases reported <;>
        simp [TimerFlags.overflow, TimerFlags.preempt, h.timeout, h.uie]

theorem reports_run {reported : Bool} {later : List MotorEvent}
    (h : Reports reported t)
    (hlater : ∀ arr psc, .call (.activate arr psc) ∉ later)
    (hrun : runEvents motorStep t later = some t') :
    Reports (reported || decide (.overflow ∈ later)) t' := by
  induction later generalizing t reported with
  | nil =>
      obtain rfl : t = t' := by simpa using hrun
      simpa using h
  | cons e later ih =>
      obtain ⟨next, hnext, hrest⟩ := runEvents_cons_eq_some_iff.mp hrun
      have hevent : ∀ arr psc, e ≠ .call (.activate arr psc) := by
        rintro arr psc rfl
        exact hlater arr psc List.mem_cons_self
      have hreports := ih (reports_step h hevent hnext)
        (fun arr psc hmem => hlater arr psc (List.mem_cons_of_mem e hmem)) hrest
      simpa [List.mem_cons, eq_comm, Bool.or_assoc] using hreports

end Activations

/-- From here on only an overflow raises the timeout.  Unless the timer is
activated again the first one does, and disables the interrupt. -/
structure OneShot (t₁ : MotorThread) : Prop where
  only : ∀ later t₂, runEvents motorStep t₁ later = some t₂ →
    t₂.store.timeout = true → .overflow ∈ later
  first : ∀ later t₂, runEvents motorStep t₁ later = some t₂ →
    (∀ arr psc, .call (.activate arr psc) ∉ later) →
    .overflow ∈ later → t₂.store.timeout = true
  once : ∀ later t₂, runEvents motorStep t₁ later = some t₂ →
    (∀ arr psc, .call (.activate arr psc) ∉ later) →
    t₂.store.timeout = true → (t₂.store.tim .TIM2).uie = false

theorem oneShot_of_armed {t : MotorThread} (h : Reachable t)
    (hidle : t.todo = []) (harmed : Armed t.store) : OneShot t := by
  have hreports : Reports false t :=
    { reachable := h
      quiet := .inl (hidle ▸ List.nil_suffix ..)
      timeout := harmed.timeout
      uie := harmed.uie }
  refine ⟨fun later t₂ hrun htimeout => ?_, fun later t₂ hrun hcalls hmem => ?_,
    fun later t₂ hrun hcalls htimeout => ?_⟩
  · by_contra hnone
    have hfalse := timeout_run h hrun hnone harmed.timeout
    exact absurd (htimeout.symm.trans hfalse) (by simp)
  · have hafter := reports_run hreports hcalls hrun
    exact hafter.timeout.trans (by simp [hmem])
  · have hafter := reports_run hreports hcalls hrun
    have hreported := hafter.timeout.symm.trans htimeout
    rw [hreported] at hafter
    exact hafter.uie

/-- In every run from reset the interrupt is enabled only when update flags are
restricted to overflows.  Every call returns, an activation with the timer
armed whatever state it was called in, and the timer is then a one-shot. -/
theorem motor_timer_one_shot (events : List MotorEvent) (t : MotorThread)
    (hrun : runEvents motorStep ⟨Board.reset, []⟩ events = some t) :
    ((t.store.tim .TIM2).uie = true → (t.store.tim .TIM2).urs = true) ∧
      (∃ t', runEvents motorStep t (List.replicate t.todo.length .advance) =
        some t' ∧ t'.todo = []) ∧
      ∀ (arr psc : Word) (segment : List MotorEvent) (t₁ : MotorThread),
        (∀ c, .call c ∉ segment) →
        runEvents motorStep t
          (.call (.activate arr psc) :: segment ++ [.advance]) = some t₁ →
        t₁.todo = [] → Armed t₁.store ∧ OneShot t₁ := by
  have hreachable := reachable_run hrun
  refine ⟨hreachable.calm.urs_of_uie, runEvents_advances t, ?_⟩
  intro arr psc segment t₁ hcalls hactivate hreturn
  have harmed := armed_of_return hreachable hcalls hactivate hreturn
  have hreachable₁ : Reachable t₁ :=
    invariant_of_runEvents' reachable_step hreachable hactivate
  exact ⟨harmed, oneShot_of_armed hreachable₁ hreturn harmed⟩

theorem motor_timer_one_shot_first_activation :
    ∃ t₁, runEvents motorStep ⟨Board.reset, []⟩
        (.call (.activate 999 15999) :: List.replicate 9 .advance ++
          [.advance]) = some t₁ ∧ Armed t₁.store ∧ OneShot t₁ := by
  have hstart := motor_timer_one_shot [] ⟨Board.reset, []⟩ rfl
  obtain ⟨t₁, hadvances, hreturn⟩ := runEvents_advances
    ⟨Board.reset, (MotorCall.activate 999 15999).body⟩
  have hactivate : runEvents motorStep ⟨Board.reset, []⟩
      (.call (.activate 999 15999) :: List.replicate 9 .advance ++
        [.advance]) = some t₁ :=
    runEvents_cons_eq_some_iff.mpr ⟨_, motorStep_call _ _, hadvances⟩
  exact ⟨t₁, hactivate, hstart.2.2 999 15999 (List.replicate 9 .advance) t₁
    (by simp) hactivate hreturn⟩

end AutomaticDoor.MotorOneShot
