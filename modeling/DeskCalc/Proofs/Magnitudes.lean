import DeskCalc.Binary.Format
import Mathlib.Algebra.Ring.Parity
import Mathlib.Order.Monotone.Basic

/-! # The magnitudes of a format

The rank of a magnitude is a scale and a significand. From a rank to the next one, the significand
grows by one; where it outgrows the scale, the next scale takes over at the same magnitude. So the
magnitudes grow with their ranks, by a whole power of two from each to the next.

* **`BinaryFormat.units_of_significand`** — the magnitude of a scale and a significand, both ends of
  the scale included.
* **`BinaryFormat.units_succ`** — the distance to the next magnitude.
* **`BinaryFormat.units_strictMono`** — magnitudes are ordered as their ranks. -/

namespace DeskCalc

namespace BinaryFormat

variable {f : BinaryFormat}

theorem binade_pos (f : BinaryFormat) : 0 < f.binade :=
  Nat.pow_pos (by decide)

/-- The ranks of a scale are even in number, so that ranks are even as their significands are. -/
theorem even_binade (f : BinaryFormat) : Even f.binade := by
  cases f <;> exact (Nat.even_pow.mpr ⟨even_two, by decide⟩)

/-! ## Scale and significand -/

/-- A rank is made of its scale and its significand. -/
theorem eq_scale_mul_add_significand (f : BinaryFormat) (rank : Nat) :
    rank = f.scale rank * f.binade + f.significand rank := by
  have hdiv := Nat.div_add_mod rank f.binade
  rw [Nat.mul_comm] at hdiv
  unfold scale significand
  by_cases hlow : rank / f.binade = 0
  · rw [if_pos hlow, hlow, Nat.zero_sub, Nat.zero_mul, Nat.zero_add]
  · obtain ⟨k, hk⟩ := Nat.exists_eq_succ_of_ne_zero hlow
    rw [if_neg hlow, hk, Nat.succ_sub_one]
    rw [hk, Nat.succ_mul] at hdiv
    omega

/-- A significand has one bit more than are stored. -/
theorem significand_lt (f : BinaryFormat) (rank : Nat) : f.significand rank < 2 * f.binade := by
  have hmod := Nat.mod_lt rank f.binade_pos
  unfold significand
  split
  · rename_i hlow
    have := Nat.lt_of_div_eq_zero f.binade_pos hlow
    omega
  · omega

/-- Above the least scale, significands have their leading bit. -/
theorem scale_eq_zero_or (f : BinaryFormat) (rank : Nat) :
    f.scale rank = 0 ∨ f.binade ≤ f.significand rank := by
  unfold scale significand
  split
  · rename_i hlow
    exact .inl (by rw [hlow])
  · exact .inr (Nat.le_add_right _ _)

/-- **A rank is even if its significand is.** -/
theorem even_significand_iff {rank : Nat} : Even (f.significand rank) ↔ Even rank := by
  conv_rhs => rw [eq_scale_mul_add_significand f rank, Nat.even_add]
  exact (iff_true_left (f.even_binade.mul_left _)).symm

/-! ## Magnitudes -/

/-- The magnitude of a significand with its leading bit. -/
theorem units_of_lt {k j : Nat} (hj : j < f.binade) :
    f.units ((k + 1) * f.binade + j) = (f.binade + j) * 2 ^ k := by
  have hdiv : ((k + 1) * f.binade + j) / f.binade = k + 1 := by
    rw [Nat.mul_comm, Nat.mul_add_div f.binade_pos, Nat.div_eq_of_lt hj, Nat.add_zero]
  have hmod : ((k + 1) * f.binade + j) % f.binade = j :=
    Nat.mul_add_mod_of_lt hj
  rw [units, significand, scale, hdiv, hmod, if_neg (Nat.succ_ne_zero k)]
  rfl

/-- **The magnitude of a scale and a significand.** The significand may be twice as great as the first
one that has its leading bit: then it is the first one of the next scale. -/
theorem units_of_significand {k m : Nat} (hlow : k = 0 ∨ f.binade ≤ m) (hhigh : m ≤ 2 * f.binade) :
    f.units (k * f.binade + m) = m * 2 ^ k := by
  rcases Nat.lt_or_ge m f.binade with hsubnormal | hnormal
  · obtain rfl := hlow.resolve_right (Nat.not_le.mpr hsubnormal)
    rw [Nat.zero_mul, Nat.zero_add, units, significand, scale, Nat.div_eq_of_lt hsubnormal, if_pos rfl]
    rfl
  · obtain ⟨j, rfl⟩ := Nat.exists_eq_add_of_le hnormal
    rcases Nat.lt_or_ge j f.binade with hj | hj
    · rw [← Nat.add_assoc, ← Nat.succ_mul]
      exact units_of_lt hj
    · obtain rfl : j = f.binade := by omega
      rw [← Nat.add_assoc, ← Nat.succ_mul, ← Nat.succ_mul, ← Nat.add_zero (_ * f.binade),
        units_of_lt f.binade_pos, pow_succ', ← Nat.mul_assoc, Nat.add_zero, Nat.mul_two]

@[simp] theorem units_zero (f : BinaryFormat) : f.units 0 = 0 := by
  cases f <;> rfl

/-- **The distance to the next magnitude** is the power of two of the scale. -/
theorem units_succ (f : BinaryFormat) (rank : Nat) :
    f.units (rank + 1) = f.units rank + 2 ^ f.scale rank := by
  have hrank := f.eq_scale_mul_add_significand rank
  have hnext := units_of_significand (f := f) (k := f.scale rank) (m := f.significand rank + 1)
    ((f.scale_eq_zero_or rank).imp_right Nat.le_succ_of_le) (f.significand_lt rank)
  rw [← Nat.add_assoc, ← hrank] at hnext
  rw [hnext, Nat.succ_mul]
  rfl

/-- **Magnitudes are ordered as their ranks.** -/
theorem units_strictMono (f : BinaryFormat) : StrictMono f.units := by
  refine strictMono_nat_of_lt_succ fun rank => ?_
  rw [units_succ]
  exact Nat.lt_add_of_pos_right (Nat.two_pow_pos _)

end BinaryFormat

end DeskCalc
