import AutomaticDoor.PortSystem
import AutomaticDoor.TimerSetting

/-!
Accuracy and monotonicity of the programmed periods, and the durations for
which the computation of the prescaler and auto-reload values is safe.
-/

namespace AutomaticDoor.TimerAccuracy

open AutomaticDoor.BoardRegisters
open AutomaticDoor.Foundations.CountDivision
open AutomaticDoor.Foundations.ExactArithmetic
open AutomaticDoor.Foundations.ExactArithmetic.Exact
open AutomaticDoor.PortSystem
open AutomaticDoor.TimerSetting

/-- The computed values are the natural numbers `psc` and `arr`, they are
loaded as they are, they fit 16-bit registers, and the programmed period is
within half a prescaled tick of the requested one. -/
structure Fits (systemCoreClock ms psc arr : Nat) : Prop where
  setting : timerSetting systemCoreClock ms =
    ⟨finite (psc : ℚ), finite (arr : ℚ)⟩
  psc_loaded : (loadedPsc systemCoreClock ms).toNat = psc
  arr_loaded : (loadedArr systemCoreClock ms).toNat = arr
  psc_le : psc ≤ 65535
  arr_le : arr ≤ 65535
  accurate : |((arr : ℚ) + 1) * (psc + 1) - requestedCount systemCoreClock ms| ≤
    ((psc : ℚ) + 1) / 2

theorem castWord_natCast {n : Nat} (hn : n < 2 ^ 32) :
    (castWord (finite (n : ℚ))).toNat = n := by
  have hround : roundAway (n : ℚ) = (n : Int) := roundAway_intCast (n : Int)
  rw [castWord, libmRound_finite, hround, Int.cast_natCast,
    toUnsigned_natCast hn, BitVec.toNat_ofNat, Nat.mod_eq_of_lt hn]

section Counts

variable {n : ℚ}

theorem leastDivisor_le (hnonneg : 0 ≤ n) (hbound : n < 2 ^ 32 + 32768) :
    leastDivisor 65536 n ≤ 65536 := by
  have hbelow := pred_leastDivisor_mul_le 65536 hnonneg
  push_cast at hbelow
  have hlt : (leastDivisor 65536 n : ℚ) < 65537 := by linarith
  exact Nat.lt_succ_iff.mp (by exact_mod_cast hlt)

theorem le_reload_leastDivisor {m : Int} (hm : 0 ≤ m) (hm' : m ≤ 32768)
    (h : (m : ℚ) ≤ n) : m ≤ reload (leastDivisor 65536 n) n := by
  have hmpos : (0 : ℚ) ≤ m := by exact_mod_cast hm
  have hnonneg : 0 ≤ n := hmpos.trans h
  have hbelow := pred_leastDivisor_mul_le 65536 hnonneg
  push_cast at hbelow
  have hk := leastDivisor_pos 65536 n
  refine le_reload hk ?_
  rcases Nat.eq_or_lt_of_le (Nat.succ_le_of_lt hk) with hone | htwo
  · rw [← hone]
    simpa using h
  · have hk2 : (2 : ℚ) ≤ leastDivisor 65536 n := by exact_mod_cast htwo
    have hm2 : (m : ℚ) ≤ 32768 := by exact_mod_cast hm'
    calc
      (m : ℚ) * leastDivisor 65536 n ≤ 32768 * leastDivisor 65536 n :=
        mul_le_mul_of_nonneg_right hm2 (by linarith)
      _ ≤ n := by linarith

end Counts

section Settings

variable {systemCoreClock ms : Nat}

/-- Every count from one up to half a tick of the largest prescaler beyond
`2 ^ 32` is programmed by the least prescaler. -/
theorem exists_fits (hone : 1 ≤ requestedCount systemCoreClock ms)
    (hbound : requestedCount systemCoreClock ms < 2 ^ 32 + 32768) :
    ∃ psc arr : Nat, Fits systemCoreClock ms psc arr ∧
      psc + 1 = leastDivisor 65536 (requestedCount systemCoreClock ms) ∧
      (arr : Int) + 1 =
        reload (leastDivisor 65536 (requestedCount systemCoreClock ms))
          (requestedCount systemCoreClock ms) := by
  set n := requestedCount systemCoreClock ms with hn
  have hnonneg : 0 ≤ n := by linarith
  have hsetting := pscArr_eq
    (clockHz_mul_seconds systemCoreClock ms) hone hbound
  rw [← hn] at hsetting
  have hk := leastDivisor_pos 65536 n
  have hkmax := leastDivisor_le hnonneg hbound
  have hpos : 1 ≤ reload (leastDivisor 65536 n) n :=
    le_reload_leastDivisor (by norm_num) (by norm_num) (by simpa using hone)
  have hmax := reload_leastDivisor_le 65536 hnonneg
  obtain ⟨psc, hpsc⟩ : ∃ psc, leastDivisor 65536 n = psc + 1 :=
    Nat.exists_eq_succ_of_ne_zero hk.ne'
  obtain ⟨arr, harr⟩ := Int.eq_ofNat_of_zero_le (sub_nonneg.mpr hpos)
  have harr' : reload (leastDivisor 65536 n) n = (arr : Int) + 1 := by omega
  have herror := abs_produced_sub_le hk n
  rw [hpsc] at hsetting harr' hmax herror ⊢
  rw [produced, harr'] at herror
  rw [harr'] at hsetting
  push_cast at hsetting herror
  simp only [add_sub_cancel_right] at hsetting
  have htimer : timerSetting systemCoreClock ms =
      ⟨finite (psc : ℚ), finite (arr : ℚ)⟩ := hsetting
  refine ⟨psc, arr, ⟨htimer, ?_, ?_, by omega, by omega, herror⟩, rfl, harr'.symm⟩
  · rw [loadedPsc, htimer]
    exact castWord_natCast (by omega)
  · rw [loadedArr, htimer]
    exact castWord_natCast (by omega)

theorem programmedCount_eq (hone : 1 ≤ requestedCount systemCoreClock ms)
    (hbound : requestedCount systemCoreClock ms < 2 ^ 32 + 32768) :
    (programmedCount systemCoreClock ms : Int) =
      produced (leastDivisor 65536 (requestedCount systemCoreClock ms))
        (requestedCount systemCoreClock ms) := by
  obtain ⟨psc, arr, hfits, hpsc, harr⟩ := exists_fits hone hbound
  rw [programmedCount, hfits.psc_loaded, hfits.arr_loaded, produced, ← harr,
    ← hpsc]
  push_cast
  rfl

end Settings

/-- On every count that two 16-bit registers can represent, the values loaded
are in range and the programmed period is within half a prescaled tick of the
requested one. -/
theorem timerSetting_accurate (systemCoreClock ms : Nat)
    (htwo : 2 ≤ requestedCount systemCoreClock ms)
    (hbound : requestedCount systemCoreClock ms ≤ 2 ^ 32) :
    ∃ psc arr : Nat, Fits systemCoreClock ms psc arr ∧ 1 ≤ arr := by
  obtain ⟨psc, arr, hfits, _, harr⟩ :=
    exists_fits (by linarith) (by linarith)
  have hreload := le_reload_leastDivisor (m := 2) (by norm_num) (by norm_num)
    (by exact_mod_cast htwo)
  exact ⟨psc, arr, hfits, by omega⟩

theorem timerSetting_accurate_five_seconds :
    ∃ psc arr : Nat, Fits 16000000 5000 psc arr ∧ 1 ≤ arr :=
  timerSetting_accurate 16000000 5000 (by norm_num [requestedCount])
    (by norm_num [requestedCount])

/-- A longer requested time never yields a shorter programmed one. -/
theorem programmedCount_mono (systemCoreClock ms₁ ms₂ : Nat) (hle : ms₁ ≤ ms₂)
    (htwo : 2 ≤ requestedCount systemCoreClock ms₁)
    (hbound : requestedCount systemCoreClock ms₂ ≤ 2 ^ 32) :
    programmedCount systemCoreClock ms₁ ≤ programmedCount systemCoreClock ms₂ := by
  have hcounts : requestedCount systemCoreClock ms₁ ≤
      requestedCount systemCoreClock ms₂ := by
    have hcast : (ms₁ : ℚ) ≤ ms₂ := Nat.cast_le.mpr hle
    exact div_le_div_of_nonneg_right
      (mul_le_mul_of_nonneg_left hcast (Nat.cast_nonneg _)) (by norm_num)
  have hproduced := produced_leastDivisor_mono 65536 (by linarith) hcounts
  rw [← programmedCount_eq (by linarith) (by linarith),
    ← programmedCount_eq (by linarith) (by linarith)] at hproduced
  exact_mod_cast hproduced

theorem programmedCount_mono_five_ten_seconds :
    programmedCount 16000000 5000 ≤ programmedCount 16000000 10000 :=
  programmedCount_mono 16000000 5000 10000 (by norm_num)
    (by norm_num [requestedCount]) (by norm_num [requestedCount])

/-- The computation divides by no zero, and the values it casts and loads are
natural numbers of 16 bits. -/
def SafeSetting (systemCoreClock ms : Nat) : Prop :=
  ¬ DividesByZero (clockHz systemCoreClock) (seconds ms) ∧
    ∃ psc arr : Nat, psc ≤ 65535 ∧ arr ≤ 65535 ∧
      timerSetting systemCoreClock ms = ⟨finite (psc : ℚ), finite (arr : ℚ)⟩

section Safety

variable {scc sec : Exact ℚ} {n : ℚ} {systemCoreClock ms : Nat}

theorem requestedCount_nonneg (systemCoreClock ms : Nat) :
    0 ≤ requestedCount systemCoreClock ms := by
  rw [requestedCount]
  positivity

theorem dividesByZero_of_le (hcount : scc * sec = finite n) (hnonneg : 0 ≤ n)
    (hle : n ≤ 32768) : DividesByZero scc sec := by
  refine Or.inl ?_
  rw [initialPsc_of_le hcount hnonneg hle, finite_add]
  norm_num

theorem not_dividesByZero_of_lt (hcount : scc * sec = finite n)
    (hlt : 32768 < n) : ¬ DividesByZero scc sec := by
  have hpos : 0 < round (n / 65536) := by
    rw [round_eq, Int.floor_pos]
    linarith
  have hcast : (0 : ℚ) < round (n / 65536) := by exact_mod_cast hpos
  rw [DividesByZero, initialPsc_of_lt hcount hlt, finite_add, finite_add,
    sub_add_cancel, finite.injEq, finite.injEq]
  rintro (hzero | ⟨_, hzero⟩) <;> linarith

theorem pscArr_psc_eq (scc sec : Exact ℚ) :
    (pscArr scc sec).psc = initialPsc scc sec ∨
      (pscArr scc sec).psc = initialPsc scc sec + finite 1 := by
  simp only [pscArr]
  split
  · exact Or.inr rfl
  · exact Or.inl rfl

theorem psc_overflows (hcount : scc * sec = finite n)
    (hlarge : 2 ^ 32 + 32768 ≤ n) :
    ∃ x : ℚ, (pscArr scc sec).psc = finite x ∧ 65536 ≤ x := by
  have hround : 65537 ≤ round (n / 65536) := by
    rw [round_eq, Int.le_floor]
    push_cast
    linarith
  have hcast : (65537 : ℚ) ≤ round (n / 65536) := by exact_mod_cast hround
  have hinitial := initialPsc_of_lt hcount (by linarith)
  rcases pscArr_psc_eq scc sec with hpsc | hpsc
  · rw [hpsc, hinitial]
    exact ⟨_, rfl, by linarith⟩
  · rw [hpsc, hinitial, finite_add]
    exact ⟨_, rfl, by linarith⟩

theorem safeSetting_iff :
    SafeSetting systemCoreClock ms ↔
      32768 < requestedCount systemCoreClock ms ∧
        requestedCount systemCoreClock ms < 2 ^ 32 + 32768 := by
  have hcount := clockHz_mul_seconds systemCoreClock ms
  constructor
  · rintro ⟨hdivides, psc, arr, hpsc, _, hsetting⟩
    constructor
    · by_contra hle
      exact hdivides (dividesByZero_of_le hcount
        (requestedCount_nonneg systemCoreClock ms) (not_lt.mp hle))
    · by_contra hge
      obtain ⟨x, hx, hlarge⟩ := psc_overflows hcount (not_lt.mp hge)
      have hloaded : (timerSetting systemCoreClock ms).psc = finite (psc : ℚ) :=
        congrArg PscArr.psc hsetting
      have hvalue : x = psc := finite.inj (hx.symm.trans hloaded)
      have hsmall : (psc : ℚ) ≤ 65535 := by exact_mod_cast hpsc
      linarith
  · rintro ⟨hlt, hbound⟩
    obtain ⟨psc, arr, hfits, _⟩ := exists_fits (by linarith) hbound
    exact ⟨not_dividesByZero_of_lt hcount hlt, psc, arr, hfits.psc_le,
      hfits.arr_le, hfits.setting⟩

/-- Both registers have 16 bits then, and the counter is not blocked. -/
theorem loaded_of_safeSetting (h : SafeSetting systemCoreClock ms) :
    1 ≤ (loadedArr systemCoreClock ms).toNat ∧
      (loadedArr systemCoreClock ms).toNat ≤ 65535 ∧
      (loadedPsc systemCoreClock ms).toNat ≤ 65535 := by
  obtain ⟨hlt, hbound⟩ := safeSetting_iff.mp h
  obtain ⟨psc, arr, hfits, -, harr⟩ := exists_fits (by linarith) hbound
  have htwo : ((2 : Int) : ℚ) ≤ requestedCount systemCoreClock ms := by
    push_cast
    linarith
  have hreload := le_reload_leastDivisor (by norm_num) (by norm_num) htwo
  rw [hfits.arr_loaded, hfits.psc_loaded]
  exact ⟨by omega, hfits.arr_le, hfits.psc_le⟩

theorem loadedArr_ne_zero (h : SafeSetting systemCoreClock ms) :
    loadedArr systemCoreClock ms ≠ 0 := by
  intro hzero
  have hpos := (loaded_of_safeSetting h).1
  rw [hzero] at hpos
  cases hpos

end Safety

/-- For every clock that `system_clock_config` produces, the durations whose
computation is safe, and what is then loaded.  Shorter ones divide by zero,
and longer ones need a prescaler of more than 16 bits. -/
theorem safeSetting_of_clock_iff (b : Board) (t : Word) :
    let clock := (systemClockConfig b).systemCoreClock.toNat
    (SafeSetting clock t.toNat ↔
      32768 < requestedCount clock t.toNat ∧
        requestedCount clock t.toNat < 2 ^ 32 + 32768) ∧
      (SafeSetting clock t.toNat →
        ∃ psc arr : Nat, Fits clock t.toNat psc arr) := by
  intro clock
  refine ⟨safeSetting_iff, ?_⟩
  intro hsafe
  obtain ⟨hlt, hbound⟩ := safeSetting_iff.mp hsafe
  obtain ⟨psc, arr, hfits, _⟩ := exists_fits (by linarith) hbound
  exact ⟨psc, arr, hfits⟩

theorem not_safeSetting_one_ms_five_minutes :
    ¬ SafeSetting (systemClockConfig Board.reset).systemCoreClock.toNat
        (1 : Word).toNat ∧
      ¬ SafeSetting (systemClockConfig Board.reset).systemCoreClock.toNat
        (300000 : Word).toNat := by
  have hclock : (systemClockConfig Board.reset).systemCoreClock.toNat =
      16000000 := by decide
  have hshort : (1 : Word).toNat = 1 := rfl
  have hlong : (300000 : Word).toNat = 300000 := rfl
  rw [hclock, hshort, hlong, safeSetting_iff, safeSetting_iff]
  norm_num [requestedCount]

end AutomaticDoor.TimerAccuracy
