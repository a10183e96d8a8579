import DeskCalc.Integer

/-! # Factorials of machine integers

The product wraps like any other, but the counter does not: it is an integer of the same type, and a
step beyond the greatest value is reported by `none`.

* **`MachineInt.factorial?`** — stops as soon as the counter has reached `n`.
* **`MachineInt.countingFactorial?`** — counts on as long as the counter is at most `n`, so that the
  counter ends one above `n`. -/

namespace DeskCalc

namespace MachineInt

variable {f : IntFormat}

/-- The next integer, if the type has it. -/
def succ? (a : MachineInt f) : Option (MachineInt f) :=
  ofInt? f (a.val + 1)

theorem val_of_succ? {a b : MachineInt f} (h : a.succ? = some b) : b.val = a.val + 1 := by
  unfold succ? ofInt? at h
  split at h
  · cases h
    rfl
  · cases h

/-- A counter has fewer steps left after each one. -/
theorem steps_lt_of_succ? {a b : MachineInt f} (h : a.succ? = some b) :
    (f.greatest - b.val).toNat < (f.greatest - a.val).toNat := by
  have hval := val_of_succ? h
  have hle := b.le_greatest
  omega

/-! ## Leaving at `n` -/

/-- Multiplies `product` by the integers from `factor` to `n`. -/
def factorialFrom (n product factor : MachineInt f) : Option (MachineInt f) :=
  if factor = n then some (product * factor)
  else
    match _step : factor.succ? with
    | none => none
    | some next => factorialFrom n (product * factor) next
  termination_by (f.greatest - factor.val).toNat
  decreasing_by exact steps_lt_of_succ? _step

/-- **The factorial of `n`**, wrapped; it is 1 for `n ≤ 1`. -/
def factorial? (n : MachineInt f) : Option (MachineInt f) :=
  if n.val ≤ (1 : MachineInt f).val then some 1 else factorialFrom n 1 (1 + 1)

/-! ## Counting past `n` -/

/-- Multiplies `product` by the integers from `factor` up to `n`, and then takes one more step. -/
def countingFactorialFrom (n product factor : MachineInt f) : Option (MachineInt f) :=
  if factor.val ≤ n.val then
    match _step : factor.succ? with
    | none => none
    | some next => countingFactorialFrom n (product * factor) next
  else some product
  termination_by (f.greatest - factor.val).toNat
  decreasing_by exact steps_lt_of_succ? _step

/-- **The factorial of `n`** by a counter that must step past `n`. -/
def countingFactorial? (n : MachineInt f) : Option (MachineInt f) :=
  countingFactorialFrom n 1 (1 + 1)

end MachineInt

end DeskCalc
