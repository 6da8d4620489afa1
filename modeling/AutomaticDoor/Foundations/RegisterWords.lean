import Mathlib.Tactic.Common

/-!
Words whose bits are set, cleared, toggled and tested through masks, and the
write-one-to-clear rule of pending registers.
-/

namespace AutomaticDoor.Foundations.RegisterWords

variable {w : Nat}

theorem and_twoPow_ne_zero_iff {i : Nat} (hi : i < w) (x : BitVec w) :
    x &&& BitVec.twoPow w i ≠ 0#w ↔ x.getLsbD i = true := by
  rw [BitVec.and_twoPow]
  constructor
  · intro h
    by_contra hbit
    simp [hbit] at h
  · intro hbit hzero
    rw [if_pos hbit] at hzero
    have hget := congrArg (fun y => y.getLsbD i) hzero
    simp [hi] at hget

theorem getLsbD_or_twoPow_self {i : Nat} (hi : i < w) (x : BitVec w) :
    (x ||| BitVec.twoPow w i).getLsbD i = true := by
  simp [hi]

theorem getLsbD_or_twoPow_of_ne {i j : Nat} (hij : i ≠ j) (x : BitVec w) :
    (x ||| BitVec.twoPow w i).getLsbD j = x.getLsbD j := by
  simp [BitVec.getLsbD_twoPow, hij]

theorem getLsbD_and_not_twoPow_self {i : Nat} (hi : i < w) (x : BitVec w) :
    (x &&& ~~~BitVec.twoPow w i).getLsbD i = false := by
  simp [hi]

theorem getLsbD_and_not_twoPow_of_ne {i j : Nat} (hij : i ≠ j) (x : BitVec w) :
    (x &&& ~~~BitVec.twoPow w i).getLsbD j = x.getLsbD j := by
  by_cases hj : j < w
  · simp [Ne.symm hij, hj]
  · rw [BitVec.getLsbD_of_ge _ j (by omega), BitVec.getLsbD_of_ge _ j (by omega)]

theorem getLsbD_xor_twoPow_self {i : Nat} (hi : i < w) (x : BitVec w) :
    (x ^^^ BitVec.twoPow w i).getLsbD i = !x.getLsbD i := by
  simp [hi]

theorem getLsbD_xor_twoPow_of_ne {i j : Nat} (hij : i ≠ j) (x : BitVec w) :
    (x ^^^ BitVec.twoPow w i).getLsbD j = x.getLsbD j := by
  simp [BitVec.getLsbD_twoPow, hij]

theorem or_twoPow_of_getLsbD {i : Nat} {x : BitVec w} (h : x.getLsbD i = true) :
    x ||| BitVec.twoPow w i = x := by
  apply BitVec.eq_of_getLsbD_eq
  intro j hj
  by_cases hij : i = j
  · subst hij
    rw [getLsbD_or_twoPow_self hj, h]
  · rw [getLsbD_or_twoPow_of_ne hij]

theorem and_not_twoPow_of_getLsbD {i : Nat} {x : BitVec w}
    (h : x.getLsbD i = false) : x &&& ~~~BitVec.twoPow w i = x := by
  apply BitVec.eq_of_getLsbD_eq
  intro j hj
  by_cases hij : i = j
  · subst hij
    rw [getLsbD_and_not_twoPow_self hj, h]
  · rw [getLsbD_and_not_twoPow_of_ne hij]

/-- A pending register after a write: each bit written as one is cleared, and
each bit written as zero keeps its value. -/
def writeOneToClear (pending written : BitVec w) : BitVec w :=
  pending &&& ~~~written

/-- A read-modify-write that sets bits of the value read writes a one to every
pending bit, so it acknowledges all of them whatever the mask. -/
theorem writeOneToClear_or_self (pending mask : BitVec w) :
    writeOneToClear pending (pending ||| mask) = 0#w := by
  ext i hi
  simp only [writeOneToClear, BitVec.getElem_and, BitVec.getElem_not,
    BitVec.getElem_or, BitVec.getElem_zero]
  cases pending[i] <;> simp

end AutomaticDoor.Foundations.RegisterWords
