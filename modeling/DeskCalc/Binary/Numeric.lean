import DeskCalc.Binary.Shortest

/-! # Calculating in binary floating-point values

* **`Binary.ofNumeral`** — the value of a literal.
* **`Single`**, **`Double`** — the two number types. They never fail: division has its own rule for
  a zero divisor, and a literal out of range is infinite or zero. -/

namespace DeskCalc

namespace Binary

variable {f : BinaryFormat}

/-- **The value of a literal:** the exact number it writes, rounded once. Literals out of range give
an infinity or a zero of their sign. -/
def ofNumeral (n : Numeral) : Binary f :=
  ofRatio n.negative n.coefficient (Nat.pow 10 (n.places.getD 0))

instance : Numeric (Binary f) where
  zero := zero
  one := ofNat 1
  add := add
  sub := sub
  mul := mul
  divide a b := .ok (a.quotient b)
  isZero := isZero
  lt := lt
  truncate? := truncate?
  ofNumeral? n := some (ofNumeral n)
  format := format

end Binary

/-- The floating-point numbers of single precision. -/
abbrev Single : Type :=
  Binary .single

/-- The floating-point numbers of double precision. -/
abbrev Double : Type :=
  Binary .double

end DeskCalc
