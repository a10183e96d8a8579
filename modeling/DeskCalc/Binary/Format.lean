/-! # Binary floating-point formats

The magnitudes of a format are numbered: the rank of a magnitude is its place in their increasing
order, with zero at rank 0, and at the same time its bit pattern. All magnitudes are whole multiples
of the least positive one, the *unit*, so that exact arithmetic on them is arithmetic on natural
numbers.

* **`BinaryFormat`** — single and double precision.
* **`BinaryFormat.units`** — the magnitude of a rank, counted in units.
* **`BinaryFormat.roundRank`** — the rank nearest to a ratio of natural numbers, in units; of two
  equally near ranks the even one. It is the only place where anything is rounded. -/

namespace DeskCalc

/-- **A binary floating-point format:** 32 or 64 bits with IEEE 754's layout. -/
inductive BinaryFormat where
  /-- Single precision, 32 bits. -/
  | single
  /-- Double precision, 64 bits. -/
  | double
  deriving DecidableEq, Repr

namespace BinaryFormat

/-- The number of stored bits of a significand. -/
def fractionBits : BinaryFormat → Nat
  | single => 23
  | double => 52

/-- The number of bits of an exponent. -/
def exponentBits : BinaryFormat → Nat
  | single => 8
  | double => 11

/-- The unit of the format is `2 ^ (-unitExponent)`. -/
def unitExponent : BinaryFormat → Nat
  | single => 149
  | double => 1074

/-- The bits of a magnitude: all but the sign. -/
def magnitudeBits (f : BinaryFormat) : Nat :=
  f.exponentBits + f.fractionBits

/-- How many ranks share an exponent, and with it their spacing. -/
def binade (f : BinaryFormat) : Nat :=
  Nat.pow 2 f.fractionBits

/-- How many units make 1. -/
def unitsPerOne (f : BinaryFormat) : Nat :=
  Nat.pow 2 f.unitExponent

/-- The rank above every finite magnitude, which stands for infinity. -/
def infinityRank (f : BinaryFormat) : Nat :=
  (Nat.pow 2 f.exponentBits - 1) * f.binade

/-! ## Magnitudes -/

/-- The significand of a rank. Above the subnormal ranks its leading bit is implied. -/
def significand (f : BinaryFormat) (rank : Nat) : Nat :=
  if rank / f.binade = 0 then rank else f.binade + rank % f.binade

/-- The power of two that the significand of a rank is multiplied by, in units. The subnormal ranks
and the first normal ones share the power 0. -/
def scale (f : BinaryFormat) (rank : Nat) : Nat :=
  rank / f.binade - 1

/-- **The magnitude of a rank, in units.** -/
def units (f : BinaryFormat) (rank : Nat) : Nat :=
  f.significand rank * Nat.pow 2 (f.scale rank)

/-! ## Rounding -/

/-- The whole number nearest to `num / den`; halfway between two of them, the even one. -/
def roundHalfEven (num den : Nat) : Nat :=
  let quotient := num / den
  let twice := 2 * (num % den)
  if twice < den then quotient
  else if den < twice then quotient + 1
  else quotient + quotient % 2

/-- **The rank nearest to `num / den` units**, and the even one of two that are equally near. The
result is not bounded: from `infinityRank` on, the magnitude overflows the format.

The ratio's leading bit decides the spacing `2 ^ k` of the ranks around it; a significand that is
rounded up to the next power of two carries into the rank of that power by itself. -/
def roundRank (f : BinaryFormat) (num den : Nat) : Nat :=
  let k := (num / den).log2 - f.fractionBits
  k * f.binade + roundHalfEven num (den * Nat.pow 2 k)

end BinaryFormat

end DeskCalc
