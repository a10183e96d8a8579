import DeskCalc.Binary.Basic
import DeskCalc.Numeric

/-! # Arithmetic of binary floating-point values

Each operation takes the exact result of its finite operands as a ratio of natural numbers, and
rounds it once.

* **`Binary.add`**, **`Binary.sub`**, **`Binary.mul`**, **`Binary.div`** — the four operations with
  the signs, infinities and invalid cases of IEEE 754.
* **`Binary.quotient`** — division with the calculator's rule for a zero divisor.
* **`Binary.truncate?`** — the whole part of a value, if it is in the range of exponents. -/

namespace DeskCalc

namespace Binary

variable {f : BinaryFormat}

/-! ## The four operations -/

/-- A finite magnitude with its sign, in units. -/
def signedUnits (f : BinaryFormat) (negative : Bool) (rank : Nat) : Int :=
  if negative then -(f.units rank) else f.units rank

/-- The value nearest to a whole number of units. A zero gets the sign that is asked for. -/
def ofSignedUnits (zeroSign : Bool) (n : Int) : Binary f :=
  ofUnitRatio (if n = 0 then zeroSign else n < 0) n.natAbs 1

/-- **The sum.** Opposite infinities have none, and a zero sum is negative only when both operands
are. -/
def add : Binary f → Binary f → Binary f
  | nan, _ => nan
  | _, nan => nan
  | infinite s, infinite t => if s = t then infinite s else nan
  | infinite s, finite _ _ => infinite s
  | finite _ _, infinite t => infinite t
  | finite s a, finite t b =>
      ofSignedUnits (s && t) (signedUnits f s a + signedUnits f t b)

/-- **The difference:** the sum with the opposite value. -/
def sub (a b : Binary f) : Binary f :=
  a.add b.neg

/-- **The product.** A zero times an infinity has none. -/
def mul : Binary f → Binary f → Binary f
  | nan, _ => nan
  | _, nan => nan
  | infinite s, infinite t => infinite (s != t)
  | infinite s, finite t b => if b.val = 0 then nan else infinite (s != t)
  | finite s a, infinite t => if a.val = 0 then nan else infinite (s != t)
  | finite s a, finite t b =>
      ofUnitRatio (s != t) (f.units a * f.units b) f.unitsPerOne

/-- **The quotient.** A zero divisor gives an infinity whose sign is that of both operands; a zero by
a zero, and an infinity by an infinity, have no quotient. -/
def div : Binary f → Binary f → Binary f
  | nan, _ => nan
  | _, nan => nan
  | infinite _, infinite _ => nan
  | infinite s, finite t _ => infinite (s != t)
  | finite s _, infinite t => ofRank (s != t) 0
  | finite s a, finite t b =>
      if b.val = 0 then
        if a.val = 0 then nan else infinite (s != t)
      else ofUnitRatio (s != t) (f.units a * f.unitsPerOne) (f.units b)

/-! ## Rules of the calculator -/

/-- **Division that never fails.** The sign of a zero divisor does not count: by either zero a
positive value gives positive infinity, a negative one negative infinity, and all else
not-a-number. -/
def quotient (a b : Binary f) : Binary f :=
  if b.isZero then
    if (zero : Binary f).lt a then infinite false
    else if a.lt zero then infinite true
    else nan
  else a.div b

/-- The whole number that is left of a finite value when its fraction is dropped. -/
def truncate (f : BinaryFormat) (negative : Bool) (rank : Nat) : Int :=
  let whole : Nat := f.units rank / f.unitsPerOne
  if negative then -whole else whole

/-- **The whole part of a value**, if it is in the range of exponents. Infinities have none, and neither
has not-a-number. -/
def truncate? : Binary f → Option Int
  | nan => none
  | infinite _ => none
  | finite negative rank => exponent? (truncate f negative rank)

end Binary

end DeskCalc
