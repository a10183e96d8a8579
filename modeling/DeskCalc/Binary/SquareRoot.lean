import DeskCalc.Binary.Arithmetic

/-! # Square roots by Newton's method

The guess for the root of `x` starts at half of `x` and is replaced by the mean of itself and of `x`
divided by it. The method stops when a guess moves by less than a fixed tolerance, or after twenty
rounds, and gives the last guess.

* **`Binary.newtonStep`**, **`Binary.newton`** — one round, and the bounded run.
* **`Binary.sqrt`** — the root; of zero, and of every value below it, it is zero. -/

namespace DeskCalc

namespace Binary

variable {f : BinaryFormat}

/-- How many rounds are run at most. -/
def newtonRounds : Nat := 20

/-- A guess has settled when it moves by less than this: a hundred times the distance from 1 to the
next value. -/
def newtonTolerance : Binary f :=
  (ofRatio false 1 f.binade).mul (ofNat 100)

/-- **The next guess** for the root of `x`. -/
def newtonStep (x guess : Binary f) : Binary f :=
  (guess.add (x.div guess)).div (ofNat 2)

/-- **Improves a guess** for the given number of rounds, or until it settles. -/
def newton (x guess : Binary f) : Nat → Binary f
  | 0 => guess
  | rounds + 1 =>
      let next := newtonStep x guess
      if (next.sub guess).abs.lt newtonTolerance then next else newton x next rounds

/-- **The square root by Newton's method.** -/
def sqrt (x : Binary f) : Binary f :=
  if x.le zero then zero
  else if x.eq (ofNat 1) then ofNat 1
  else newton x (x.div (ofNat 2)) newtonRounds

instance : SquareRoot (Binary f) where
  squareRoot := sqrt

end Binary

end DeskCalc
