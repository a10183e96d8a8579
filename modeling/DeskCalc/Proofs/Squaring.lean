import DeskCalc.Power
import DeskCalc.Integer
import Mathlib.Algebra.Group.Int.Defs

/-! # Powers by squaring are products

Repeated squaring reads the exponent digit by digit. It multiplies the same factors as repeated
multiplication does, only in other groups, so that any product that may be regrouped gives the same
power.

* **`raiseFrom_eq_mul_npowRec`** — what one run of the loop multiplies to its accumulator.
* **`raise_eq_npowRec`** — the power is the product of as many factors as the exponent says.
* **`MachineInt.raise_wrap`** — wrapped powers are the powers of wrapped numbers. -/

namespace DeskCalc

section Products

variable {α : Type} [Numeric α] [Std.Associative (α := α) (· * ·)]
  [Std.LawfulIdentity (α := α) (· * ·) 1]

/-- The products of a number type as a monoid, whose powers are repeated products. -/
abbrev productMonoid : Monoid α where
  mul_assoc := Std.Associative.assoc
  one_mul := Std.LawfulLeftIdentity.left_id
  mul_one := Std.LawfulRightIdentity.right_id

/-- **A run of the loop multiplies its accumulator by the power.** The last binary digit of the
exponent decides whether the base is taken once; the others are those of half the exponent, for the
square of the base. -/
theorem raiseFrom_eq_mul_npowRec (acc base : α) (n : Nat) :
    raiseFrom acc base n = acc * npowRec n base := by
  let _ : Monoid α := productMonoid
  change raiseFrom acc base n = acc * base ^ n
  induction n using Nat.strongRecOn generalizing acc base with
  | ind n ih =>
    have hdigit : (if n % 2 = 1 then acc * base else acc) * (base * base) ^ (n / 2) =
        acc * base ^ n := by
      have hhalves : base ^ (2 * (n / 2)) = (base * base) ^ (n / 2) := by rw [pow_mul, pow_two]
      rcases Nat.mod_two_eq_zero_or_one n with heven | hodd
      · rw [if_neg (by omega), ← hhalves, show 2 * (n / 2) = n by omega]
      · rw [if_pos hodd, ← hhalves, mul_assoc, ← pow_succ', show 2 * (n / 2) + 1 = n by omega]
    rw [raiseFrom]
    by_cases hzero : n = 0
    · rw [if_pos hzero, hzero, pow_zero, mul_one]
    · rw [if_neg hzero, ← hdigit]
      dsimp only
      by_cases hlast : n / 2 = 0
      · -- after the last digit the base is not squared any more
        rw [if_pos hlast, hlast, pow_zero, mul_one]
      · rw [if_neg hlast]
        exact ih (n / 2) (by omega) _ _

/-- **The power is a repeated product.** -/
theorem raise_eq_npowRec (base : α) (n : Nat) : raise base n = npowRec n base := by
  rw [raise, raiseFrom_eq_mul_npowRec]
  exact Std.LawfulLeftIdentity.left_id _

end Products

/-- The power with an exponent that is not negative. -/
theorem power_of_nonneg {α : Type} [Numeric α] (base : α) {exponent : Int} (h : 0 ≤ exponent) :
    power base exponent = .ok (raise base exponent.toNat) := by
  unfold power
  by_cases hzero : exponent = 0
  · rw [if_pos hzero, hzero, raise, Int.toNat_zero, raiseFrom, if_pos rfl]
  · have hnat : exponent.natAbs = exponent.toNat := by omega
    rw [if_neg hzero, if_neg (by omega), hnat]

/-- A power with a negative exponent is a quotient of 1. -/
theorem power_of_neg {α : Type} [Numeric α] (base : α) {exponent : Int} (h : exponent < 0) :
    power base exponent = Numeric.divide 1 (raise base exponent.natAbs) := by
  unfold power
  rw [if_neg (Int.ne_of_lt h)]
  exact if_pos h

/-! ## Machine integers -/

namespace MachineInt

variable {f : IntFormat}

/-- The number of values is a power of two. -/
theorem modulus_eq_two_pow (f : IntFormat) : f.modulus = 2 ^ f.width.bits :=
  Int.natCast_pow 2 f.width.bits

instance : Std.Associative (α := MachineInt f) (· * ·) where
  assoc a b c := by
    rw [← wrap_val a, ← wrap_val b, ← wrap_val c]
    simp only [← wrap_mul, Int.mul_assoc]

instance : Std.LawfulIdentity (α := MachineInt f) (· * ·) 1 where
  left_id a := by
    rw [← wrap_val a, one_eq_wrap, ← wrap_mul, Int.one_mul]
  right_id a := by
    rw [← wrap_val a, one_eq_wrap, ← wrap_mul, Int.mul_one]

/-- **The power of a wrapped number is the wrapped power.** -/
theorem raise_wrap (f : IntFormat) (base : Int) (n : Nat) :
    raise (wrap f base) n = wrap f (base ^ n) := by
  rw [raise_eq_npowRec]
  induction n with
  | zero => rw [npowRec, one_eq_wrap, pow_zero]
  | succ n ih => rw [npowRec, ih, ← wrap_mul, pow_succ]

end MachineInt

end DeskCalc
