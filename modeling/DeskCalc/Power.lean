import DeskCalc.Numeric

/-! # Whole powers

* **`raise`** — the power with a natural exponent, by repeated squaring.
* **`power`** — the power with any whole exponent. A negative one divides 1 by the power, under the
  type's rule for division. -/

namespace DeskCalc

variable {α : Type} [Numeric α]

/-- **Multiplies `acc` by `base` to the `n`-th,** one binary digit of `n` at a time. The base is
squared only while digits are left. -/
def raiseFrom (acc base : α) (n : Nat) : α :=
  if n = 0 then acc
  else
    let acc := if n % 2 = 1 then acc * base else acc
    if n / 2 = 0 then acc else raiseFrom acc (base * base) (n / 2)
  termination_by n
  decreasing_by omega

/-- **The power with a natural exponent.** -/
def raise (base : α) (n : Nat) : α :=
  raiseFrom 1 base n

/-- **The power with a whole exponent.** The 0-th power is 1, also of zero. -/
def power (base : α) (exponent : Int) : Except RuntimeError α :=
  if exponent = 0 then .ok 1
  else
    let magnitude := raise base exponent.natAbs
    if exponent < 0 then Numeric.divide 1 magnitude else .ok magnitude

end DeskCalc
