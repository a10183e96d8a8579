import DeskCalc.Error
import DeskCalc.Numeral

/-! # Number types

What the calculator asks of a type it computes in. The evaluator, the powers and the registers are
written once, over this class; the integers and the binary floating-point types are its instances.

* **`Numeric`** — the operations. Only division can fail; the others follow the type's own rule for
  what does not fit (integers wrap, floating-point numbers round).
* **`readNumber`** — the value of a literal, or an error that quotes it.
* **`Numeric.exponent`** — the value as an exponent, within the exponents' range. -/

namespace DeskCalc

/-! ## Classes -/

/-- **A type to calculate in.** -/
class Numeric (α : Type) extends Zero α, One α, Add α, Sub α, Mul α where
  /-- Division, with the type's rule for a zero divisor. -/
  divide : α → α → Except RuntimeError α
  /-- Whether the value compares equal to zero. -/
  isZero : α → Bool
  /-- Whether one value compares less than another. -/
  lt : α → α → Bool
  /-- The whole number that is left when the fraction of a value is dropped, if there is one within the
  signed 64-bit range. -/
  truncate? : α → Option Int
  /-- The value that a numeral denotes, unless the type has none for it. -/
  ofNumeral? : Numeral → Option α
  /-- The text of a value. -/
  format : α → String

/-- **A number type with square roots.** -/
class SquareRoot (α : Type) where
  /-- The square root, as close as the type's method comes to it. -/
  squareRoot : α → α

/-! ## Literals -/

/-- **The value of a literal.** An error quotes the literal as written and places it at `position`. -/
def readNumber {α : Type} [Numeric α] (literal : String) (position : Nat) : Except ParseError α :=
  match (Numeral.ofText? literal).bind Numeric.ofNumeral? with
  | some value => .ok value
  | none => .error (.invalidNumber literal position)

/-! ## Exponents -/

/-- The least exponent, `-2 ^ 63`. -/
def leastExponent : Int :=
  -9223372036854775808

/-- The greatest exponent, `2 ^ 63 - 1`. -/
def greatestExponent : Int :=
  9223372036854775807

/-- A whole number, if it is in the range of exponents. -/
def exponent? (n : Int) : Option Int :=
  if leastExponent ≤ n ∧ n ≤ greatestExponent then some n else none

/-- **The value as an exponent:** its whole part, if that is in range. Beyond the range it is the end on
the value's side of zero. A value that is on neither side, not-a-number, counts as 0. -/
def Numeric.exponent {α : Type} [Numeric α] (a : α) : Int :=
  match truncate? a with
  | some n => n
  | none =>
      if lt 0 a then greatestExponent
      else if lt a 0 then leastExponent
      else 0

/-- The exponent nearest to a whole number: the number itself, or the end of the range that it lies
beyond. -/
def clampExponent (n : Int) : Int :=
  max leastExponent (min n greatestExponent)

/-- An exponent that is in range is left as it is. -/
theorem clampExponent_of_mem {n : Int} (hleast : leastExponent ≤ n)
    (hgreatest : n ≤ greatestExponent) : clampExponent n = n := by
  rw [clampExponent, Int.min_eq_left hgreatest, Int.max_eq_right hleast]

/-- Above the range, the greatest exponent is the nearest. -/
theorem clampExponent_of_gt {n : Int} (h : greatestExponent < n) :
    clampExponent n = greatestExponent := by
  rw [clampExponent, Int.min_eq_right (Int.le_of_lt h), Int.max_eq_right (by decide)]

/-- Below the range, the least exponent is the nearest. -/
theorem clampExponent_of_lt {n : Int} (h : n < leastExponent) :
    clampExponent n = leastExponent := by
  have hgreatest : n ≤ greatestExponent := Int.le_trans (Int.le_of_lt h) (by decide)
  rw [clampExponent, Int.min_eq_left hgreatest, Int.max_eq_left (Int.le_of_lt h)]

/-- **A value whose whole part is `n` has the exponent nearest to `n`.** Where `n` is beyond the range,
the value must compare with zero as `n` does. -/
theorem Numeric.exponent_eq_clampExponent {α : Type} [Numeric α] {a : α} {n : Int}
    (htruncate : truncate? a = exponent? n) (hpositive : greatestExponent < n → lt 0 a = true)
    (hnegative : n < leastExponent → lt 0 a = false ∧ lt a 0 = true) :
    exponent a = clampExponent n := by
  unfold exponent
  rw [htruncate, exponent?]
  rcases Int.lt_or_le greatestExponent n with habove | hgreatest
  · rw [if_neg fun h => Int.not_le.mpr habove h.2, if_pos (hpositive habove),
      clampExponent_of_gt habove]
  · rcases Int.lt_or_le n leastExponent with hbelow | hleast
    · obtain ⟨hnot, hlt⟩ := hnegative hbelow
      rw [if_neg fun h => Int.not_le.mpr hbelow h.1, hnot, if_neg Bool.false_ne_true, if_pos hlt,
        clampExponent_of_lt hbelow]
    · rw [if_pos ⟨hleast, hgreatest⟩, clampExponent_of_mem hleast hgreatest]

end DeskCalc
