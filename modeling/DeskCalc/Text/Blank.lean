/-! # Blank characters

The characters with Unicode's `White_Space` property, and the texts that have no others.

* **`isWhiteSpace`** — the property, as a table of ranges.
* **`isBlank`** — whether a text holds only white space. -/

namespace DeskCalc

/-- The ranges of the characters with the `White_Space` property. Both ends belong to a range. -/
def whiteSpaceRanges : List (Nat × Nat) :=
  [(0x09, 0x0d), (0x20, 0x20), (0x85, 0x85), (0xa0, 0xa0), (0x1680, 0x1680), (0x2000, 0x200a),
    (0x2028, 0x2029), (0x202f, 0x202f), (0x205f, 0x205f), (0x3000, 0x3000)]

/-- **Whether a character has the `White_Space` property.** -/
def isWhiteSpace (c : Char) : Bool :=
  whiteSpaceRanges.any fun range => range.1 ≤ c.toNat && c.toNat ≤ range.2

/-- **Whether a text holds only white space.** -/
def isBlank (text : List Char) : Bool :=
  text.all isWhiteSpace

end DeskCalc
