import Mathlib.Data.List.Basic
import Mathlib.Tactic.Common

/-!
Choices among the rows of a table that are enabled together.  Where at most one
row is enabled, they all agree.
-/

namespace AutomaticDoor.Foundations.RowChoices

universe u

/-- An enabled row is chosen whenever there is one, and never another. -/
structure RowChoice (Row : Type u) where
  choose : (Row → Bool) → Option Row
  enabled_of_choose : ∀ {enabled : Row → Bool} {row : Row},
    choose enabled = some row → enabled row = true
  exists_choose : ∀ {enabled : Row → Bool} {row : Row},
    enabled row = true → ∃ chosen, choose enabled = some chosen

namespace RowChoice

section Enabled

variable {Row : Type u} (choice other : RowChoice Row) {enabled : Row → Bool}
  {row a b : Row}

theorem choose_eq_none_iff :
    choice.choose enabled = none ↔ ∀ row, enabled row = false := by
  constructor
  · intro hnone row
    rw [← Bool.not_eq_true]
    intro henabled
    obtain ⟨chosen, hchosen⟩ := choice.exists_choose henabled
    rw [hnone] at hchosen
    cases hchosen
  · intro h
    rw [Option.eq_none_iff_forall_ne_some]
    intro row hrow
    have henabled := choice.enabled_of_choose hrow
    rw [h row] at henabled
    cases henabled

theorem choose_of_only (h : enabled row = true)
    (hunique : ∀ r, enabled r = true → r = row) :
    choice.choose enabled = some row := by
  obtain ⟨chosen, hchosen⟩ := choice.exists_choose h
  rw [hchosen, hunique chosen (choice.enabled_of_choose hchosen)]

theorem choose_of_pair (h : enabled a = true)
    (hpair : ∀ r, enabled r = true → r = a ∨ r = b) :
    choice.choose enabled = some a ∨ choice.choose enabled = some b := by
  obtain ⟨chosen, hchosen⟩ := choice.exists_choose h
  rw [hchosen, Option.some.injEq, Option.some.injEq]
  exact hpair chosen (choice.enabled_of_choose hchosen)

theorem choose_eq_of_subsingleton
    (h : ∀ a b, enabled a = true → enabled b = true → a = b) :
    choice.choose enabled = other.choose enabled := by
  by_cases hrow : ∃ row, enabled row = true
  · obtain ⟨row, hrow⟩ := hrow
    have hunique : ∀ r, enabled r = true → r = row := fun r hr => h r row hr hrow
    rw [choice.choose_of_only hrow hunique, other.choose_of_only hrow hunique]
  · have hnone : ∀ row, enabled row = false := by simpa using hrow
    rw [choice.choose_eq_none_iff.mpr hnone, other.choose_eq_none_iff.mpr hnone]

end Enabled

/-- The first enabled row of a table that has them all. -/
def firstEnabled {Row : Type u} (table : List Row) (complete : ∀ row, row ∈ table) :
    RowChoice Row where
  choose enabled := table.find? enabled
  enabled_of_choose h := List.find?_some h
  exists_choose h := by
    rw [← Option.isSome_iff_exists, List.find?_isSome]
    exact ⟨_, complete _, h⟩

section Tables

variable {Row : Type u} [DecidableEq Row] {enabled : Row → Bool} {a b : Row}

theorem find?_eq_some_iff_idxOf_lt (hne : a ≠ b)
    (h : ∀ r, enabled r = true ↔ r = a ∨ r = b) {table : List Row} (hmem : a ∈ table) :
    table.find? enabled = some a ↔ table.idxOf a < table.idxOf b := by
  induction table with
  | nil => cases hmem
  | cons row table ih =>
      by_cases hab : row = a ∨ row = b
      · rw [List.find?_cons_of_pos ((h row).mpr hab), Option.some.injEq]
        rcases hab with rfl | rfl
        · simp [hne]
        · simp [Ne.symm hne]
      · have hlater : a ∈ table := by
          rcases List.mem_cons.mp hmem with rfl | hlater
          · exact absurd (Or.inl rfl) hab
          · exact hlater
        obtain ⟨ha, hb⟩ := not_or.mp hab
        rw [List.find?_cons_of_neg (mt (h row).mp hab), ih hlater,
          List.idxOf_cons_ne _ ha, List.idxOf_cons_ne _ hb]
        exact Nat.succ_lt_succ_iff.symm

/-- Where two rows are enabled, the first of them is chosen. -/
theorem firstEnabled_iff (hne : a ≠ b) {table : List Row}
    (complete : ∀ row, row ∈ table) (h : ∀ r, enabled r = true ↔ r = a ∨ r = b) :
    (firstEnabled table complete).choose enabled = some a ↔
      table.idxOf a < table.idxOf b :=
  find?_eq_some_iff_idxOf_lt hne h (complete a)

end Tables

end RowChoice

end AutomaticDoor.Foundations.RowChoices
