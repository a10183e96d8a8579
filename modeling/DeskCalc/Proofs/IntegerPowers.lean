import DeskCalc.Proofs.Congruence
import DeskCalc.Proofs.VanishingPowers

/-! # Powers of integers

Squaring takes the same factors as repeated multiplication, and wrapping commutes with each product.
The power of an integer type is therefore the exact power brought back into range once, however large
the exponent is. A negative exponent divides 1 by that, and of 1 a divisor leaves itself or nothing.

* **`MachineInt.raise_val_modEq`** — the power is congruent to the exact one.
* **`MachineInt.exists_divide_one`** — the quotient of 1 is exact.
* **`power_eq_of_repeated_product`** — the powers of each integer type and of each exponent, and those
  of any type whose product may be regrouped. -/

namespace DeskCalc

/-- Divided into 1, a number leaves itself or nothing. -/
theorem tdiv_one_eq_or (n : Int) : Int.tdiv 1 n = n ∨ Int.tdiv 1 n = 0 := by
  by_cases hunit : n.natAbs = 1
  · rcases Int.natAbs_eq_iff.mp hunit with rfl | rfl
    · exact .inl rfl
    · exact .inl rfl
  · refine .inr (Int.natAbs_eq_zero.mp ?_)
    rw [Int.natAbs_tdiv, Int.natAbs_one]
    exact Nat.div_eq_zero_iff.mpr (by omega)

namespace MachineInt

variable {f : IntFormat}

/-- One is in every range. -/
theorem val_one (f : IntFormat) : (1 : MachineInt f).val = 1 := by
  obtain ⟨width, signed⟩ := f
  cases width <;> cases signed <;> rfl

/-- **The power is congruent to the exact power.** -/
theorem raise_val_modEq (base : MachineInt f) (n : Nat) :
    (raise base n).val ≡ base.val ^ n [ZMOD 2 ^ f.width.bits] := by
  have hraise := raise_wrap f base.val n
  rw [wrap_val] at hraise
  rw [hraise]
  exact val_wrap_modEq f _

/-- **The quotient of 1 is the exact one**, truncated toward zero: it does not leave the range. -/
theorem exists_divide_one {m : MachineInt f} (hm : m.val ≠ 0) :
    ∃ q, divide 1 m = .ok q ∧ q.val = Int.tdiv 1 m.val := by
  refine ⟨wrap f (Int.tdiv 1 m.val), ?_, ?_⟩
  · rw [divide, if_neg hm, val_one]
  · rcases tdiv_one_eq_or m.val with hself | hnone
    · rw [hself, wrap_val]
    · rw [hnone, val_wrap_zero]

end MachineInt

/-- **Powers by squaring are repeated products.** In each integer type of width `w`, let `m` be the only
value congruent to `base ^ |e|` modulo `2 ^ w`. The power with the exponent `e` is `m` if `e` is not
negative, and so 1 if `e` is zero. If `e` is negative it is 1 divided by `m` and truncated toward
zero, or a division by zero if `m` is zero. In any type whose product is associative with unit one,
the power by squaring is the product of as many factors as the exponent says. -/
theorem power_eq_of_repeated_product :
    (∀ (f : IntFormat) (base : MachineInt f) (e : Int), ∃ m : MachineInt f,
      m.val ≡ base.val ^ e.natAbs [ZMOD 2 ^ f.width.bits] ∧
        (∀ other : MachineInt f,
          other.val ≡ base.val ^ e.natAbs [ZMOD 2 ^ f.width.bits] → other = m) ∧
        (0 ≤ e → power base e = .ok m) ∧
        (e = 0 → m.val = 1) ∧
        (e < 0 → m.val = 0 → power base e = .error .divisionByZero) ∧
        (e < 0 → m.val ≠ 0 → ∃ q, power base e = .ok q ∧ q.val = Int.tdiv 1 m.val)) ∧
      ∀ (α : Type) [Numeric α] [Std.Associative (α := α) (· * ·)]
        [Std.LawfulIdentity (α := α) (· * ·) 1] (base : α) (n : Nat),
        raise base n = npowRec n base := by
  refine ⟨fun f base e => ⟨raise base e.natAbs, base.raise_val_modEq e.natAbs,
    fun other hother => ?_, fun hnonneg => ?_, ?_, fun hneg hzero => ?_, fun hneg hne => ?_⟩,
    fun α _ _ _ => raise_eq_npowRec⟩
  · have hm := MachineInt.eq_wrap_of_modEq (base.raise_val_modEq e.natAbs)
    rw [hm]
    exact MachineInt.eq_wrap_of_modEq hother
  · rw [power_of_nonneg base hnonneg, ← Int.natAbs_of_nonneg hnonneg, Int.toNat_natCast,
      Int.natAbs_natCast]
  · rintro rfl
    rw [Int.natAbs_zero, raise_eq_npowRec, npowRec, MachineInt.val_one]
  · rw [power_of_neg base hneg]
    exact MachineInt.divide_eq_error_iff.mpr ⟨hzero, rfl⟩
  · rw [power_of_neg base hneg]
    exact MachineInt.exists_divide_one hne

/-- In 8 bits, 3 to the power of the least exponent divides 1 by an odd number; 2 to the power of -8
divides it by 256, of which nothing is left. The value of 3 to the fifth wraps to -13. -/
theorem power_eq_of_repeated_product_three :
    (∃ m q : MachineInt ⟨.w8, true⟩, m.val ≡ 3 ^ leastExponent.natAbs [ZMOD 2 ^ 8] ∧ m.val ≠ 0 ∧
        power (MachineInt.wrap ⟨.w8, true⟩ 3) leastExponent = .ok q ∧ q.val = Int.tdiv 1 m.val) ∧
      power (MachineInt.wrap ⟨.w8, true⟩ 2) (-8) = .error .divisionByZero ∧
      power (MachineInt.wrap ⟨.w8, true⟩ 3) 5 = .ok (MachineInt.wrap ⟨.w8, true⟩ (-13)) ∧
      raise (MachineInt.wrap ⟨.w8, true⟩ 3) 5 = npowRec 5 (MachineInt.wrap ⟨.w8, true⟩ 3) := by
  have hpowers := power_eq_of_repeated_product.1 ⟨.w8, true⟩
  refine ⟨?_, ?_, ?_, power_eq_of_repeated_product.2 _ _ 5⟩
  · obtain ⟨m, hm, -, -, -, -, hinverse⟩ := hpowers (MachineInt.wrap ⟨.w8, true⟩ 3) leastExponent
    have hne : m.val ≠ 0 := by
      intro hzero
      rw [hzero] at hm
      have hdvd : (2 : Int) ∣ 3 ^ leastExponent.natAbs :=
        (dvd_pow_self 2 (by decide)).trans (Int.modEq_zero_iff_dvd.mp hm.symm)
      exact absurd (Int.prime_two.dvd_of_dvd_pow hdvd) (by decide)
    obtain ⟨q, hq, hval⟩ := hinverse (by decide) hne
    exact ⟨m, q, hm, hne, hq, hval⟩
  · obtain ⟨m, hm, -, -, -, hzero, -⟩ := hpowers (MachineInt.wrap ⟨.w8, true⟩ 2) (-8)
    refine hzero (by decide) ?_
    have hwrap := MachineInt.eq_wrap_of_modEq hm
    rw [hwrap]
    decide +kernel
  · obtain ⟨m, hm, -, hpower, -⟩ := hpowers (MachineInt.wrap ⟨.w8, true⟩ 3) 5
    rw [hpower (by decide), MachineInt.eq_wrap_of_modEq hm]
    decide +kernel

end DeskCalc
