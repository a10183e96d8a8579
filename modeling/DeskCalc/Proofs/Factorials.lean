import DeskCalc.Factorial
import DeskCalc.Proofs.IntegerPowers
import Mathlib.Data.Nat.Factorial.Basic

/-! # Factorials of integers

The product of a factorial wraps, its counter must not. Each turn of the loop keeps one fact: the
product is the factorial of the number before the counter, brought back into range. A counter that
stops at `n` never has to leave the range for that, and one that must step past `n` leaves it for one
`n` only, the greatest of the type.

* **`MachineInt.factorialFrom_eq`** — what is multiplied from a counter on.
* **`MachineInt.factorial?_isFactorial`** — the factorial is the exact one, brought back into range.
* **`MachineInt.countingFactorialFrom_eq`** — both counters take the same factors below the greatest
  number.
* **`MachineInt.countingFactorial?_agrees_iff`** — the two factorials agree for just these numbers. -/

namespace DeskCalc

namespace MachineInt

variable {f : IntFormat}

/-! ## Counters -/

/-- The first counter is 2: no range is so small that it would wrap. -/
theorem val_two (f : IntFormat) : (1 + 1 : MachineInt f).val = 2 := by
  obtain ⟨width, signed⟩ := f
  cases width <;> cases signed <;> rfl

/-- A counter steps to the next number and to no other. -/
theorem succ?_eq_some_iff {a b : MachineInt f} : a.succ? = some b ↔ b.val = a.val + 1 :=
  ofInt?_eq_some_iff

/-- A counter can step as long as it is less than the greatest number. -/
theorem exists_succ? {a : MachineInt f} (h : a.val < f.greatest) :
    ∃ next, a.succ? = some next ∧ next.val = a.val + 1 := by
  have hleast := a.least_le
  exact ⟨⟨a.val + 1, by omega, by omega⟩, succ?_eq_some_iff.mpr rfl, rfl⟩

/-! ## Leaving at `n` -/

/-- The next factor takes the product from one factorial to the next. -/
theorem wrap_factorial_mul {factor : MachineInt f} {k : ℕ} (hk : factor.val = k + 1) :
    wrap f k.factorial * factor = wrap f (k + 1).factorial := by
  calc wrap f k.factorial * factor
      = wrap f k.factorial * wrap f (k + 1) := by rw [← hk, wrap_val]
    _ = wrap f (k.factorial * (k + 1)) := (wrap_mul f _ _).symm
    _ = wrap f (k + 1).factorial := by
        rw [Nat.factorial_succ, Nat.cast_mul, Nat.cast_succ, mul_comm]

/-- **A product up to `n`.** While the counter is not past `n` and the product is the factorial of the
number before it, the loop ends with the factorial of `n`. -/
theorem factorialFrom_eq {n factor : MachineInt f} {k : ℕ} (hle : factor.val ≤ n.val)
    (hk : factor.val = k + 1) :
    factorialFrom n (wrap f k.factorial) factor = some (wrap f n.val.toNat.factorial) := by
  -- on how many numbers the counter has still to pass
  induction hleft : (n.val - factor.val).toNat generalizing factor k with
  | zero =>
    obtain rfl : factor = n := MachineInt.ext (by omega)
    have hn : factor.val.toNat = k + 1 := by omega
    rw [factorialFrom, if_pos rfl, wrap_factorial_mul hk, hn]
  | succ left ih =>
    have hne : factor ≠ n := by
      rintro rfl
      omega
    have hgreatest := n.le_greatest
    obtain ⟨next, hnext, hval⟩ := exists_succ? (a := factor) (by omega)
    rw [factorialFrom, if_neg hne, hnext, wrap_factorial_mul hk]
    exact ih (by omega) (by push_cast; omega) (by omega)

/-- **The factorial is the exact one, brought back into range.** That it is given at all says that the
counter has never left the range. -/
theorem factorial?_eq (n : MachineInt f) :
    n.factorial? = some (wrap f n.val.toNat.factorial) := by
  rw [factorial?, val_one]
  by_cases hsmall : n.val ≤ 1
  · have hone : n.val.toNat.factorial = 1 := Nat.factorial_eq_one.mpr (by omega)
    rw [if_pos hsmall, hone]
    rfl
  · rw [if_neg hsmall]
    exact factorialFrom_eq (k := 1) (by rw [val_two]; omega) (val_two f)

/-- The number before a positive number is in range. -/
theorem val_sub_one {n : MachineInt f} (hn : 1 ≤ n.val) : (n - 1).val = n.val - 1 := by
  have hzero : f.least ≤ 0 := by
    rw [← val_wrap_zero f]
    exact (wrap f 0).least_le
  have hgreatest := n.le_greatest
  rw [sub_eq_wrap, val_one]
  exact val_wrap_of_mem (by omega) (by omega)

/-- **The recurrence of the factorial** holds in wrapping arithmetic. -/
theorem wrap_factorial_eq_mul {n : MachineInt f} (hn : 1 ≤ n.val) :
    wrap f n.val.toNat.factorial = n * wrap f (n - 1).val.toNat.factorial := by
  have hprevious := val_sub_one hn
  have hsucc : n.val.toNat = (n - 1).val.toNat + 1 := by omega
  have hstep : wrap f (n - 1).val.toNat.factorial * n = wrap f ((n - 1).val.toNat + 1).factorial :=
    wrap_factorial_mul (by omega)
  rw [hsucc, ← hstep, mul_eq_wrap, Int.mul_comm, ← mul_eq_wrap]

/-- **The factorial of each integer of each type is the exact factorial modulo `2 ^ w`.** It is always
given, so that its counter never leaves the range. It is 1 for all numbers up to 1, the only value of
the type that is congruent to the exact factorial, and from 1 on the product of the number and of the
factorial before it. -/
theorem factorial?_isFactorial (f : IntFormat) (n : MachineInt f) :
    ∃ product, n.factorial? = some product ∧
      (n.val ≤ 1 → product.val = 1) ∧
      product.val ≡ n.val.toNat.factorial [ZMOD 2 ^ f.width.bits] ∧
      (∀ other : MachineInt f,
        other.val ≡ n.val.toNat.factorial [ZMOD 2 ^ f.width.bits] → other = product) ∧
      (1 ≤ n.val → ∃ previous, (n - 1).factorial? = some previous ∧ product = n * previous) := by
  refine ⟨_, factorial?_eq n, fun hsmall => ?_, val_wrap_modEq f _,
    fun other hother => eq_wrap_of_modEq hother,
    fun hn => ⟨_, factorial?_eq (n - 1), wrap_factorial_eq_mul hn⟩⟩
  have hone : n.val.toNat.factorial = 1 := Nat.factorial_eq_one.mpr (by omega)
  rw [hone]
  exact val_one f

/-- In 8 bits with a sign, the factorial of -3 is 1, and of the factorial of the greatest number, 127,
nothing is left: it is 127 times the factorial of 126, which has vanished before. -/
theorem factorial?_isFactorial_greatest :
    (∃ product, (wrap ⟨.w8, true⟩ (-3)).factorial? = some product ∧ product.val = 1) ∧
      ∃ product previous, (wrap ⟨.w8, true⟩ 127).factorial? = some product ∧
        (wrap ⟨.w8, true⟩ 127 - 1).factorial? = some previous ∧
        product = wrap ⟨.w8, true⟩ 127 * previous ∧ product = wrap ⟨.w8, true⟩ 0 := by
  obtain ⟨product, hproduct, hsmall, -⟩ := factorial?_isFactorial ⟨.w8, true⟩ (wrap _ (-3))
  obtain ⟨product', hproduct', -, -, hunique, hrecurrence⟩ :=
    factorial?_isFactorial ⟨.w8, true⟩ (wrap _ 127)
  obtain ⟨previous, hprevious, heq⟩ := hrecurrence (by decide)
  refine ⟨⟨product, hproduct, hsmall (by decide)⟩, product', previous, hproduct', hprevious, heq, ?_⟩
  exact (hunique (wrap _ 0) (by decide +kernel)).symm

/-! ## Counting past `n` -/

/-- **Both counters take the same factors** where there is a number past `n` to step to. -/
theorem countingFactorialFrom_eq {n factor : MachineInt f} (product : MachineInt f)
    (hn : n.val < f.greatest) (hle : factor.val ≤ n.val) :
    countingFactorialFrom n product factor = factorialFrom n product factor := by
  induction product, factor using factorialFrom.induct n with
  | case1 product =>
    -- one more step, and then the counter is past `n`
    obtain ⟨next, hnext, hval⟩ := exists_succ? hn
    rw [countingFactorialFrom, if_pos le_rfl, hnext, factorialFrom, if_pos rfl]
    dsimp only
    rw [countingFactorialFrom, if_neg (by omega)]
  | case2 product factor hne hnone =>
    obtain ⟨next, hnext, -⟩ := exists_succ? (a := factor) (by omega)
    rw [hnext] at hnone
    cases hnone
  | case3 product factor hne next hnext ih =>
    have hval := succ?_eq_some_iff.mp hnext
    have hlt : factor.val ≠ n.val := fun h => hne (MachineInt.ext h)
    rw [countingFactorialFrom, if_pos hle, hnext, factorialFrom, if_neg hne, hnext]
    exact ih (by omega)

/-- Up to the greatest number itself, the counter is never past it, and so leaves the range. -/
theorem countingFactorialFrom_eq_none {n : MachineInt f} (product factor : MachineInt f)
    (hn : n.val = f.greatest) : countingFactorialFrom n product factor = none := by
  have hle : ∀ counter : MachineInt f, counter.val ≤ n.val := fun counter =>
    hn ▸ counter.le_greatest
  induction product, factor using countingFactorialFrom.induct n with
  | case1 product factor _ hnone => rw [countingFactorialFrom, if_pos (hle factor), hnone]
  | case2 product factor _ next hnext ih =>
    rw [countingFactorialFrom, if_pos (hle factor), hnext]
    exact ih
  | case3 product factor hpast => exact absurd (hle factor) hpast

/-- **Below the greatest number the two factorials agree.** -/
theorem countingFactorial?_eq {n : MachineInt f} (hn : n.val < f.greatest) :
    n.countingFactorial? = n.factorial? := by
  rw [countingFactorial?, factorial?, val_one]
  by_cases hsmall : n.val ≤ 1
  · rw [if_pos hsmall, countingFactorialFrom, if_neg (by rw [val_two]; omega)]
  · rw [if_neg hsmall]
    exact countingFactorialFrom_eq 1 hn (by rw [val_two]; omega)

/-- **The counter that steps past `n` agrees just where there is a number past `n`.** In each type, the
factorial by this counter is that by the other one, and congruent to the exact factorial, for all
numbers but the greatest. For the greatest one, and for no other, the counter leaves the range. -/
theorem countingFactorial?_agrees_iff (f : IntFormat) (n : MachineInt f) :
    ((∃ product, n.countingFactorial? = some product ∧ n.factorial? = some product ∧
        product.val ≡ n.val.toNat.factorial [ZMOD 2 ^ f.width.bits]) ↔ n.val ≠ f.greatest) ∧
      (n.countingFactorial? = none ↔ n.val = f.greatest) := by
  have hgreatest : n.val = f.greatest → n.countingFactorial? = none :=
    countingFactorialFrom_eq_none 1 (1 + 1)
  have hless : n.val ≠ f.greatest → n.countingFactorial? = some (wrap f n.val.toNat.factorial) := by
    intro hne
    rw [countingFactorial?_eq (lt_of_le_of_ne n.le_greatest hne), factorial?_eq]
  refine ⟨⟨?_, fun hne => ⟨_, hless hne, factorial?_eq n, val_wrap_modEq f _⟩⟩,
    fun hnone => ?_, hgreatest⟩
  · rintro ⟨product, hproduct, -⟩ hn
    rw [hgreatest hn] at hproduct
    cases hproduct
  · by_contra hne
    rw [hless hne] at hnone
    cases hnone

/-- In 64 bits without a sign, the factorial of the greatest number has more than 64 factors of two, so
that it is 0, and the counter that steps past the number does not give it. -/
theorem countingFactorial?_greatest :
    (∃ product, (wrap ⟨.w64, false⟩ 18446744073709551615).factorial? = some product ∧
        product.val = 0) ∧
      (wrap ⟨.w64, false⟩ 18446744073709551615).countingFactorial? = none := by
  refine ⟨⟨_, factorial?_eq _, val_wrap_eq_zero_iff.mpr ?_⟩,
    countingFactorialFrom_eq_none 1 (1 + 1) (by decide)⟩
  have hle : 66 ≤ (wrap ⟨.w64, false⟩ 18446744073709551615).val.toNat := by decide
  have htwos : 2 ^ 64 ∣ Nat.factorial 66 := by decide +kernel
  exact_mod_cast htwos.trans (Nat.factorial_dvd_factorial hle)

end MachineInt

end DeskCalc
