import DeskCalc.Binary.Arithmetic

/-! # Shortest decimal text of binary floating-point values

A finite value is written with the fewest significant digits that read back as the same value in its
format; of two such numerals the nearer one is taken, and halfway between them the greater. The text
is positional: no exponent, zeros where the chosen digits end.

Magnitudes are counted in `10 ^ (-unitExponent)` here. Every magnitude of a format is a whole number
of these *decimal units*, since a unit `2 ^ (-q)` is `5 ^ q` of them.

* **`Binary.shortestFrom`** — the coarsest power of ten with a multiple that reads back.
* **`Binary.toNumeral`** — the numeral of a finite value.
* **`Binary.format`** — the text of a value. -/

namespace DeskCalc

namespace Binary

variable {f : BinaryFormat}

/-! ## The search -/

/-- How many decimal units make a unit. -/
def decimalUnitsPerUnit (f : BinaryFormat) : Nat :=
  Nat.pow 5 f.unitExponent

/-- Whether a magnitude in decimal units is nearest to a rank. -/
def readsBack (f : BinaryFormat) (rank magnitude : Nat) : Bool :=
  f.roundRank magnitude (decimalUnitsPerUnit f) == rank

/-- The multiple of `step` next to `exact` that reads back as the rank: the nearer one if both do,
and the greater one if they are equally near. It is given as a count of steps. -/
def neighbour? (f : BinaryFormat) (rank exact step : Nat) : Option Nat :=
  let lower := exact / step
  let upper := lower + 1
  if readsBack f rank (upper * step) then
    if readsBack f rank (lower * step) && 2 * (exact % step) < step then some lower else some upper
  else if readsBack f rank (lower * step) then some lower
  else none

/-- **The coarsest grid with a multiple that reads back.** Tries the powers of ten from `10 ^ n`
down and gives the digits and the power; the decimal units themselves are exact. -/
def shortestFrom (f : BinaryFormat) (rank exact : Nat) : Nat → Nat × Nat
  | 0 => (exact, 0)
  | n + 1 =>
      match neighbour? f rank exact (Nat.pow 10 (n + 1)) with
      | some digits => (digits, n + 1)
      | none => shortestFrom f rank exact n

/-- An exponent whose power of ten is greater than `n`, and not much greater. It is right because
`10 ^ 151` is greater than `2 ^ 500`. -/
def powerAbove (n : Nat) : Nat :=
  (n.log2 + 1) * 151 / 500 + 1

/-! ## Text -/

/-- **The shortest numeral that reads back as a finite value.** -/
def toNumeral (f : BinaryFormat) (negative : Bool) (rank : Nat) : Numeral :=
  let exact := f.units rank * decimalUnitsPerUnit f
  if exact = 0 then ⟨negative, 0, none⟩
  else
    let (digits, power) := shortestFrom f rank exact (powerAbove exact)
    if f.unitExponent ≤ power then
      ⟨negative, digits * Nat.pow 10 (power - f.unitExponent), none⟩
    else ⟨negative, digits, some (f.unitExponent - power)⟩

/-- **The text of a value.** -/
def format : Binary f → String
  | nan => "NaN"
  | infinite negative => if negative then "-inf" else "inf"
  | finite negative rank => (toNumeral f negative rank).text

end Binary

end DeskCalc
