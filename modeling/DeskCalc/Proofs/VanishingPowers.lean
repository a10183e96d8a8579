import DeskCalc.Operator
import DeskCalc.Proofs.Squaring
import Mathlib.NumberTheory.Padics.PadicVal.Basic

/-! # Powers that vanish

An integer power with a negative exponent divides 1 by the power with the opposite exponent, which
has been brought back into range before. So not only zero cannot be raised to it: each factor of two
of the base stands in the power as often as the exponent says, and once there is one for every bit,
nothing of the power is left in range.

* **`Vanishes`** — the powers of which nothing is left in a width.
* **`MachineInt.power_eq_error_iff`** — just these have no inverse.
* **`MachineInt.power_apply_eq_error_iff`** — so an operator fails for them, and for quotients by
  zero. -/

namespace DeskCalc

/-! ## Factors of two -/

/-- **Whether nothing is left of a power** of `n` in a width: `n` is zero, or `n` to the `k`-th has at
least as many factors of two as there are bits. -/
def Vanishes (w : Width) (n : Int) (k : Nat) : Prop :=
  n = 0 ∨ w.bits ≤ k * padicValInt 2 n

/-- **A power vanishes if it is a multiple of the number of values.** It has each factor of two of its
base as often as the exponent says. -/
theorem vanishes_iff_dvd {w : Width} {n : Int} {k : Nat} (hk : k ≠ 0) :
    Vanishes w n k ↔ (2 : Int) ^ w.bits ∣ n ^ k := by
  have hfactors : padicValInt 2 (n ^ k) = k * padicValInt 2 n := by
    rw [padicValInt, padicValInt, Int.natAbs_pow, padicValNat.pow]
  rw [Vanishes, ← hfactors, ← pow_eq_zero_iff hk]
  exact (padicValInt_dvd_iff w.bits (n ^ k)).symm

/-- Past the number of bits, all exponents are alike. -/
theorem vanishes_iff_of_le {w : Width} {n : Int} {k : Nat} (hk : w.bits ≤ k) :
    Vanishes w n k ↔ n = 0 ∨ 0 < padicValInt 2 n := by
  have hbits : 0 < w.bits := by cases w <;> decide
  refine or_congr_right ⟨fun h => Nat.pos_of_ne_zero fun hzero => ?_, fun h => ?_⟩
  · rw [hzero, Nat.mul_zero] at h
    omega
  · exact Nat.le_trans hk (Nat.le_mul_of_pos_right k h)

/-- It makes no difference that exponents are kept within their range. -/
theorem vanishes_clampExponent {w : Width} {n exponent : Int} (h : exponent < 0) :
    Vanishes w n (clampExponent exponent).natAbs ↔ Vanishes w n exponent.natAbs := by
  by_cases hleast : leastExponent ≤ exponent
  · rw [clampExponent_of_mem hleast (Int.le_trans (Int.le_of_lt h) (by decide))]
  · have hbits : w.bits ≤ 128 := by cases w <;> decide
    have hfar : w.bits ≤ exponent.natAbs := by
      unfold leastExponent at hleast
      omega
    have hnear : w.bits ≤ (clampExponent exponent).natAbs := by
      unfold clampExponent leastExponent greatestExponent at *
      omega
    rw [vanishes_iff_of_le hnear, vanishes_iff_of_le hfar]

namespace MachineInt

variable {f : IntFormat}

/-! ## Powers of machine integers -/

/-- A number wraps to zero if it is a multiple of the number of values. -/
theorem val_wrap_eq_zero_iff {n : Int} : (wrap f n).val = 0 ↔ (2 : Int) ^ f.width.bits ∣ n := by
  rw [← modulus_eq_two_pow, Int.dvd_iff_emod_eq_zero]
  constructor
  · intro h
    rw [← val_wrap_emod, h, Int.zero_emod]
  · intro h
    rw [← val_wrap_zero f]
    exact congrArg val (wrap_eq_of_emod_eq (h.trans (Int.zero_emod _).symm))

/-- Nothing is left of a power that vanishes. -/
theorem val_raise_eq_zero_iff {base : MachineInt f} {k : Nat} (hk : k ≠ 0) :
    (raise base k).val = 0 ↔ Vanishes f.width base.val k := by
  rw [vanishes_iff_dvd hk, ← val_wrap_eq_zero_iff, ← raise_wrap, wrap_val]

/-- **A power fails if its exponent is negative and the power with the opposite exponent vanishes.** -/
theorem power_eq_error_iff {base : MachineInt f} {exponent : Int} {why : RuntimeError} :
    power base exponent = .error why ↔
      exponent < 0 ∧ Vanishes f.width base.val exponent.natAbs ∧ why = .divisionByZero := by
  by_cases hnegative : exponent < 0
  · have hdivides : power base exponent = divide 1 (raise base exponent.natAbs) :=
      power_of_neg base hnegative
    have hk : exponent.natAbs ≠ 0 := Int.natAbs_ne_zero.mpr hnegative.ne
    rw [hdivides, divide_eq_error_iff, val_raise_eq_zero_iff hk, and_iff_right hnegative]
  · rw [power_of_nonneg base (Int.not_lt.mp hnegative)]
    exact ⟨nofun, fun h => absurd h.1 hnegative⟩

/-- **What integer powers and operators fail for.** A power fails if its exponent is negative and
nothing is left in range of the power with the opposite exponent: the base is zero, or has enough
factors of two. Of the operators, the quotient fails for a zero divisor, and the power as said. There
is no other failure, and each is a division by zero. -/
theorem power_apply_eq_error_iff (f : IntFormat) :
    (∀ (base : MachineInt f) (exponent : Int) (why : RuntimeError),
      power base exponent = .error why ↔
        exponent < 0 ∧ Vanishes f.width base.val exponent.natAbs ∧ why = .divisionByZero) ∧
      ∀ (op : Operator) (left right : MachineInt f) (why : RuntimeError),
        op.apply left right = .error why ↔
          (op = .div ∧ right.val = 0 ∨
            op = .pow ∧ right.val < 0 ∧ Vanishes f.width left.val right.val.natAbs) ∧
          why = .divisionByZero := by
  refine ⟨fun _ _ _ => power_eq_error_iff, fun op left right why => ?_⟩
  cases op with
  | add | sub | mul => simp [Operator.apply]
  | div =>
    show divide left right = .error why ↔ _
    simp [divide_eq_error_iff]
  | pow =>
    rw [Operator.apply, exponent_eq_clampExponent]
    have hsign : clampExponent right.val < 0 ↔ right.val < 0 := by
      unfold clampExponent leastExponent greatestExponent
      omega
    rw [power_eq_error_iff, hsign]
    simp +contextual [and_assoc, vanishes_clampExponent]

/-- In 8 bits, nothing is left of 256, and so 2 to the power of -8 divides by zero, though 2 is not
zero. -/
theorem power_two_eq_error :
    (wrap ⟨.w8, false⟩ 2).val ≠ 0 ∧
      power (wrap ⟨.w8, false⟩ 2) (-8) = .error .divisionByZero ∧
      (wrap ⟨.w8, true⟩ 2).val ≠ 0 ∧
      Operator.apply .pow (wrap ⟨.w8, true⟩ 2) (wrap ⟨.w8, true⟩ (-8)) =
        .error .divisionByZero := by
  decide +kernel

end MachineInt

end DeskCalc
