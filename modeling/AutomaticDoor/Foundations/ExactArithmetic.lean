import Mathlib.Algebra.Order.Round
import Mathlib.Tactic.Linarith
import Mathlib.Tactic.Ring
import Mathlib.Tactic.NormNum

/-!
Floating-point expressions read in exact arithmetic: the operations of
IEEE 754 without rounding of the results, on an ordered field extended by the
infinities and NaN.  There is one zero, and dividing a nonzero number by it
gives the infinity of that number's sign.
-/

namespace AutomaticDoor.Foundations.ExactArithmetic

universe u

inductive Exact (α : Type u)
  | finite (x : α)
  | posInf
  | negInf
  | nan
deriving DecidableEq

namespace Exact

variable {α : Type u} [Field α] [LinearOrder α]

def infinityOfSign (x : α) : Exact α :=
  if 0 < x then posInf else if x < 0 then negInf else nan

def neg : Exact α → Exact α
  | finite x => finite (-x)
  | posInf => negInf
  | negInf => posInf
  | nan => nan

def add : Exact α → Exact α → Exact α
  | finite x, finite y => finite (x + y)
  | nan, _ | _, nan | posInf, negInf | negInf, posInf => nan
  | posInf, _ | _, posInf => posInf
  | negInf, _ | _, negInf => negInf

def mul : Exact α → Exact α → Exact α
  | finite x, finite y => finite (x * y)
  | nan, _ | _, nan => nan
  | posInf, finite x | finite x, posInf => infinityOfSign x
  | negInf, finite x | finite x, negInf => infinityOfSign (-x)
  | posInf, posInf | negInf, negInf => posInf
  | posInf, negInf | negInf, posInf => negInf

def div : Exact α → Exact α → Exact α
  | finite x, finite y => if y = 0 then infinityOfSign x else finite (x / y)
  | nan, _ | _, nan => nan
  | finite _, posInf | finite _, negInf => finite 0
  | posInf, finite y => if 0 ≤ y then posInf else negInf
  | negInf, finite y => if 0 ≤ y then negInf else posInf
  | posInf, posInf | posInf, negInf | negInf, posInf | negInf, negInf => nan

instance : Neg (Exact α) := ⟨neg⟩
instance : Add (Exact α) := ⟨add⟩
instance : Sub (Exact α) := ⟨fun x y => x + -y⟩
instance : Mul (Exact α) := ⟨mul⟩
instance : Div (Exact α) := ⟨div⟩

def gt : Exact α → Exact α → Bool
  | finite x, finite y => decide (y < x)
  | posInf, finite _ | posInf, negInf | finite _, negInf => true
  | _, _ => false

omit [LinearOrder α] in
@[simp] theorem finite_add (x y : α) :
    (finite x + finite y : Exact α) = finite (x + y) := rfl

omit [LinearOrder α] in
@[simp] theorem finite_sub (x y : α) :
    (finite x - finite y : Exact α) = finite (x - y) :=
  congrArg finite (sub_eq_add_neg x y).symm

@[simp] theorem finite_mul (x y : α) :
    (finite x * finite y : Exact α) = finite (x * y) := rfl

theorem finite_div_of_ne_zero (x : α) {y : α} (hy : y ≠ 0) :
    (finite x / finite y : Exact α) = finite (x / y) := if_neg hy

theorem finite_div_zero_of_pos {x : α} (hx : 0 < x) :
    (finite x / finite 0 : Exact α) = posInf :=
  (if_pos rfl).trans (if_pos hx)

omit [Field α] in
@[simp] theorem gt_finite (x y : α) :
    gt (finite x) (finite y) = decide (y < x) := rfl

omit [Field α] in
@[simp] theorem posInf_gt_finite (x : α) : gt posInf (finite x) = true := rfl

variable [FloorRing α]

/-- The C library's `round`: to the nearest integer, halves away from zero. -/
def roundAway (x : α) : Int :=
  if 0 ≤ x then round x else -round (-x)

theorem roundAway_of_nonneg {x : α} (hx : 0 ≤ x) :
    roundAway x = round x := if_pos hx

def libmRound : Exact α → Exact α
  | finite x => finite (roundAway x : α)
  | posInf => posInf
  | negInf => negInf
  | nan => nan

@[simp] theorem libmRound_finite (x : α) :
    libmRound (finite x) = finite (roundAway x : α) := rfl

/-- Conversion to an unsigned integer below `bound`.  C defines it when the
value truncated towards zero is in range; outside of that range the target's
conversion routine saturates, and it takes NaN to zero. -/
def toUnsigned (bound : Nat) : Exact α → Nat
  | finite x => min ⌊x⌋.toNat (bound - 1)
  | posInf => bound - 1
  | negInf | nan => 0

theorem toUnsigned_natCast [IsStrictOrderedRing α] {bound n : Nat}
    (hn : n < bound) : toUnsigned bound (finite (n : α)) = n := by
  simp only [toUnsigned, Int.floor_natCast, Int.toNat_natCast]
  omega

variable [IsStrictOrderedRing α]

@[simp] theorem roundAway_intCast (n : Int) : roundAway (n : α) = n := by
  rw [roundAway, round_intCast, ← Int.cast_neg, round_intCast, neg_neg, ite_self]

theorem roundAway_eq_floor_of_half_lt {x : α} (hx : -(1 / 2) < x) :
    roundAway x = ⌊x + 1 / 2⌋ := by
  rw [roundAway]
  split
  · exact round_eq x
  · rename_i hneg
    have hround : round (-x) = 0 := by
      rw [round_eq, Int.floor_eq_iff]
      constructor <;> push_cast <;> linarith
    have hfloor : ⌊x + 1 / 2⌋ = 0 := by
      rw [Int.floor_eq_iff]
      constructor <;> push_cast <;> linarith
    rw [hround, hfloor, neg_zero]

theorem roundAway_eq_neg_one {x : α} (hlow : -1 ≤ x) (hhigh : x ≤ -(1 / 2)) :
    roundAway x = -1 := by
  have hneg : ¬ 0 ≤ x := by linarith
  have hround : round (-x) = 1 := by
    rw [round_eq, Int.floor_eq_iff]
    constructor <;> push_cast <;> linarith
  rw [roundAway, if_neg hneg, hround]

end Exact

end AutomaticDoor.Foundations.ExactArithmetic
