import DeskCalc.Binary.Format

/-! # Binary floating-point values

* **`Binary`** — not-a-number, two infinities, and the finite values as a sign and a rank. Zero has
  both signs.
* **`Binary.ofRatio`** — a ratio of natural numbers rounded once to a value.
* **`Binary.eq`**, **`Binary.lt`** — the comparisons of values: nothing compares with
  not-a-number, and the two zeros are equal.
* **`Binary.ofBits`**, **`Binary.toBits?`** — values as bit patterns. -/

namespace DeskCalc

/-- **A value of a binary floating-point format.** -/
inductive Binary (f : BinaryFormat) where
  /-- Not a number. There is only one: signs and payloads of it are not told apart. -/
  | nan
  /-- An infinity. -/
  | infinite (negative : Bool)
  /-- The magnitude of a rank, with a sign. -/
  | finite (negative : Bool) (rank : Fin f.infinityRank)
  deriving DecidableEq, Repr

namespace Binary

variable {f : BinaryFormat}

/-! ## Building values -/

/-- The value of a rank that may be out of range: from `infinityRank` on it is infinite. -/
def ofRank (negative : Bool) (rank : Nat) : Binary f :=
  if h : rank < f.infinityRank then finite negative ⟨rank, h⟩ else infinite negative

/-- The value nearest to `num / den` units, ties to even. -/
def ofUnitRatio (negative : Bool) (num den : Nat) : Binary f :=
  ofRank negative (f.roundRank num den)

/-- **The value nearest to `num / den`**, ties to even. -/
def ofRatio (negative : Bool) (num den : Nat) : Binary f :=
  ofUnitRatio negative (num * f.unitsPerOne) den

/-- The value of a natural number, rounded if it needs to be. -/
def ofNat (n : Nat) : Binary f :=
  ofRatio false n 1

/-- Changes the sign. -/
def neg : Binary f → Binary f
  | nan => nan
  | infinite negative => infinite (!negative)
  | finite negative rank => finite (!negative) rank

/-- Drops the sign. -/
def abs : Binary f → Binary f
  | nan => nan
  | infinite _ => infinite false
  | finite _ rank => finite false rank

/-! ## Comparing -/

/-- Where a value stands in the order of the values. Both zeros stand at 0. -/
def place? : Binary f → Option Int
  | nan => none
  | infinite negative => some (if negative then -f.infinityRank else f.infinityRank)
  | finite negative rank => some (if negative then -rank.val else rank.val)

/-- Whether two values compare equal. -/
def eq (a b : Binary f) : Bool :=
  match a.place?, b.place? with
  | some x, some y => x == y
  | _, _ => false

/-- Whether one value is less than another. -/
def lt (a b : Binary f) : Bool :=
  match a.place?, b.place? with
  | some x, some y => x < y
  | _, _ => false

/-- Whether one value is less than another or equal to it. -/
def le (a b : Binary f) : Bool :=
  a.lt b || a.eq b

/-- Positive zero. -/
def zero : Binary f :=
  ofRank false 0

/-- A rank in range is that of a finite value. -/
theorem ofRank_val (negative : Bool) (rank : Fin f.infinityRank) :
    ofRank negative rank = finite negative rank :=
  dif_pos rank.isLt

/-- Rank 0 is that of zero. -/
theorem ofRank_zero (negative : Bool) :
    (ofRank negative 0 : Binary f) = finite negative ⟨0, by cases f <;> decide⟩ :=
  dif_pos _

/-- Zero stands at 0. -/
theorem place?_zero : (zero : Binary f).place? = some 0 := by
  rw [zero, ofRank_zero]
  rfl

/-- Whether the value is a zero, of either sign. -/
def isZero (a : Binary f) : Bool :=
  a.eq zero

/-! ## Bit patterns -/

/-- The value of a bit pattern: the sign bit on top, then the rank. Above the pattern of infinity
there are only patterns of not-a-number. -/
def ofBits (bits : Nat) : Binary f :=
  let negative := bits.testBit f.magnitudeBits
  let magnitude := bits % Nat.pow 2 f.magnitudeBits
  if h : magnitude < f.infinityRank then finite negative ⟨magnitude, h⟩
  else if magnitude = f.infinityRank then infinite negative
  else nan

/-- The bits of a magnitude under its sign bit. -/
def signedBits (f : BinaryFormat) (negative : Bool) (magnitude : Nat) : Nat :=
  if negative then Nat.pow 2 f.magnitudeBits + magnitude else magnitude

/-- The bit pattern of a value. Not-a-number has many, and none of them is singled out. -/
def toBits? : Binary f → Option Nat
  | nan => none
  | infinite negative => some (signedBits f negative f.infinityRank)
  | finite negative rank => some (signedBits f negative rank)

end Binary

end DeskCalc
