import Mathlib.Algebra.Group.Nat.Defs
import Mathlib.Logic.Function.Basic
import Mathlib.Tactic.Common

/-!
Fields packed into a word and rewritten by clear-then-or: the bits of the
field are cleared through a mask, then the new value is shifted into place.
-/

namespace AutomaticDoor.Foundations.PackedFields

variable {w n : Nat} {field value reg : BitVec w}

/-- The mask of a field of `n` bits, before it is shifted into place. -/
def IsFieldMask (n : Nat) (field : BitVec w) : Prop :=
  ∀ i < w, field.getLsbD i = decide (i < n)

def clearThenOr (field value : BitVec w) (shift : Nat) (reg : BitVec w) :
    BitVec w :=
  (reg &&& ~~~(field <<< shift)) ||| (value <<< shift)

/-- The value of a field of a word divided into fields of `n` bits. -/
def fieldAt (n slot : Nat) (reg : BitVec w) : Nat :=
  (reg.extractLsb' (slot * n) n).toNat

theorem fieldAt_zero (n slot : Nat) : fieldAt n slot (0#w) = 0 := by
  simp [fieldAt]

theorem getLsbD_clearThenOr {shift i : Nat} (hfield : IsFieldMask n field)
    (hvalue : value.toNat < 2 ^ n) (hi : i < w) :
    (clearThenOr field value shift reg).getLsbD i =
      if shift ≤ i ∧ i < shift + n then value.getLsbD (i - shift)
      else reg.getLsbD i := by
  simp only [clearThenOr, BitVec.getLsbD_or, BitVec.getLsbD_and,
    BitVec.getLsbD_not, BitVec.getLsbD_shiftLeft, hi, decide_true, Bool.true_and]
  by_cases hlow : i < shift
  · have hout : ¬ (shift ≤ i ∧ i < shift + n) := by omega
    simp [hlow, hout]
  · have hbit : field.getLsbD (i - shift) = decide (i - shift < n) :=
      hfield _ (by omega)
    by_cases hin : i - shift < n
    · have hfit : shift ≤ i ∧ i < shift + n := by omega
      simp [hlow, hbit, hin, hfit]
    · have hout : ¬ (shift ≤ i ∧ i < shift + n) := by omega
      have hle : 2 ^ n ≤ 2 ^ (i - shift) :=
        Nat.pow_le_pow_right (by omega) (by omega)
      have hzero : value.getLsbD (i - shift) = false :=
        Nat.testBit_lt_two_pow (Nat.lt_of_lt_of_le hvalue hle)
      simp [hlow, hbit, hin, hout, hzero]

theorem fieldAt_clearThenOr_self {slot : Nat} (hfield : IsFieldMask n field)
    (hvalue : value.toNat < 2 ^ n) (hslot : slot * n + n ≤ w) :
    fieldAt n slot (clearThenOr field value (slot * n) reg) = value.toNat := by
  have hbits : (clearThenOr field value (slot * n) reg).extractLsb' (slot * n) n =
      value.setWidth n := by
    apply BitVec.eq_of_getLsbD_eq
    intro i hi
    rw [BitVec.getLsbD_extractLsb', BitVec.getLsbD_setWidth,
      getLsbD_clearThenOr hfield hvalue (by omega), if_pos (by omega),
      Nat.add_sub_cancel_left]
  rw [fieldAt, hbits, BitVec.toNat_setWidth, Nat.mod_eq_of_lt hvalue]

/-- The bits outside of the field rewritten are kept. -/
theorem extractLsb'_clearThenOr {shift start len : Nat}
    (hfield : IsFieldMask n field) (hvalue : value.toNat < 2 ^ n)
    (hdisjoint : start + len ≤ shift ∨ shift + n ≤ start) :
    (clearThenOr field value shift reg).extractLsb' start len =
      reg.extractLsb' start len := by
  apply BitVec.eq_of_getLsbD_eq
  intro i hi
  rw [BitVec.getLsbD_extractLsb', BitVec.getLsbD_extractLsb']
  by_cases hw : start + i < w
  · rw [getLsbD_clearThenOr hfield hvalue hw, if_neg (by omega)]
  · rw [BitVec.getLsbD_of_ge _ _ (by omega), BitVec.getLsbD_of_ge _ _ (by omega)]

theorem ushiftRight_clearThenOr {shift k : Nat} (hfield : IsFieldMask n field)
    (hvalue : value.toNat < 2 ^ n) (hk : shift + n ≤ k) :
    clearThenOr field value shift reg >>> k = reg >>> k := by
  apply BitVec.eq_of_getLsbD_eq
  intro i hi
  rw [BitVec.getLsbD_ushiftRight, BitVec.getLsbD_ushiftRight]
  by_cases hw : k + i < w
  · rw [getLsbD_clearThenOr hfield hvalue hw, if_neg (by omega)]
  · rw [BitVec.getLsbD_of_ge _ _ (by omega), BitVec.getLsbD_of_ge _ _ (by omega)]

theorem slots_disjoint (n : Nat) {slot other : Nat} (h : other ≠ slot) :
    other * n + n ≤ slot * n ∨ slot * n + n ≤ other * n := by
  rcases Nat.lt_or_gt_of_ne h with hlt | hgt
  · left
    rw [← Nat.succ_mul]
    exact Nat.mul_le_mul_right n hlt
  · right
    rw [← Nat.succ_mul]
    exact Nat.mul_le_mul_right n hgt

theorem fieldAt_clearThenOr {slot other : Nat} (hfield : IsFieldMask n field)
    (hvalue : value.toNat < 2 ^ n) (hslot : slot * n + n ≤ w) :
    fieldAt n other (clearThenOr field value (slot * n) reg) =
      if other = slot then value.toNat else fieldAt n other reg := by
  split
  · subst other
    exact fieldAt_clearThenOr_self hfield hvalue hslot
  · rename_i h
    exact congrArg BitVec.toNat
      (extractLsb'_clearThenOr hfield hvalue (slots_disjoint n h))

/-- The same for a register of one entry of a table: the other entries keep
their fields as well. -/
theorem fieldAt_update {Index Entry : Type*} [DecidableEq Index]
    {slot other : Nat} {table : Index → Entry} (register : Entry → BitVec w)
    {a b : Index} {entry : Entry}
    (hentry : register entry =
      clearThenOr field value (slot * n) (register (table a)))
    (hfield : IsFieldMask n field) (hvalue : value.toNat < 2 ^ n)
    (hslot : slot * n + n ≤ w) :
    fieldAt n other (register (Function.update table a entry b)) =
      if b = a ∧ other = slot then value.toNat
      else fieldAt n other (register (table b)) := by
  by_cases h : b = a
  · subst b
    rw [Function.update_self, hentry, fieldAt_clearThenOr hfield hvalue hslot]
    simp only [true_and]
  · rw [Function.update_of_ne h, if_neg (fun hboth => h hboth.1)]

theorem clearThenOr_clearThenOr_self {shift : Nat} (hfield : IsFieldMask n field)
    (hvalue : value.toNat < 2 ^ n) :
    clearThenOr field value shift (clearThenOr field value shift reg) =
      clearThenOr field value shift reg := by
  apply BitVec.eq_of_getLsbD_eq
  intro i hi
  rw [getLsbD_clearThenOr hfield hvalue hi, getLsbD_clearThenOr hfield hvalue hi]
  split <;> rfl

theorem clearThenOr_comm {value' : BitVec w} {slot slot' : Nat}
    (hfield : IsFieldMask n field) (hvalue : value.toNat < 2 ^ n)
    (hvalue' : value'.toNat < 2 ^ n) (h : slot' ≠ slot) :
    clearThenOr field value (slot * n) (clearThenOr field value' (slot' * n) reg) =
      clearThenOr field value' (slot' * n)
        (clearThenOr field value (slot * n) reg) := by
  have hdisjoint := slots_disjoint n h
  apply BitVec.eq_of_getLsbD_eq
  intro i hi
  simp only [getLsbD_clearThenOr hfield hvalue hi,
    getLsbD_clearThenOr hfield hvalue' hi]
  split
  · rw [if_neg (by omega)]
  · rfl

section Tables

variable {Index Entry : Type*} [DecidableEq Index] {f g : Entry → Entry}
  {a b : Index}

/-- Update one entry of a table of registers. -/
def updateEntry (a : Index) (f : Entry → Entry) (table : Index → Entry) :
    Index → Entry :=
  Function.update table a (f (table a))

/-- What the update keeps of the entry, it keeps of the table. -/
theorem updateEntry_kept {Kept : Type*} (get : Entry → Kept)
    (h : ∀ e, get (f e) = get e) (table : Index → Entry) :
    get (updateEntry a f table b) = get (table b) := by
  by_cases hab : b = a
  · subst b
    rw [updateEntry, Function.update_self, h]
  · rw [updateEntry, Function.update_of_ne hab]

theorem updateEntry_comm (h : a = b → ∀ e, f (g e) = g (f e))
    (table : Index → Entry) :
    updateEntry a f (updateEntry b g table) =
      updateEntry b g (updateEntry a f table) := by
  rw [updateEntry, updateEntry, updateEntry, updateEntry]
  by_cases hab : a = b
  · subst b
    rw [Function.update_self, Function.update_self, Function.update_idem,
      Function.update_idem, h rfl]
  · rw [Function.update_of_ne hab, Function.update_of_ne (Ne.symm hab),
      Function.update_comm hab]

theorem updateEntry_updateEntry_self (h : ∀ e, f (f e) = f e)
    (table : Index → Entry) :
    updateEntry a f (updateEntry a f table) = updateEntry a f table := by
  rw [updateEntry, updateEntry, Function.update_self, Function.update_idem, h]

end Tables

end AutomaticDoor.Foundations.PackedFields
