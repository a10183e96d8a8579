/-! # Decimal numerals

A numeral is what a literal writes down: an optional sign, digits, and at most one point among
them. It keeps its digits exactly, so that each number type can round or refuse it by its own rule.

* **`Numeral.ofText?`** — the numeral that a text spells. At least one digit is needed; the point
  may come first or last; there is no exponent, no blank and no digit grouping.
* **`Numeral.text`** — the plain spelling of a numeral, never with an exponent. -/

namespace DeskCalc

/-- **A decimal numeral.** Its magnitude is `coefficient / 10 ^ places`; `places = none` says that
it has no point at all, which `some 0` (as in `5.`) does not. -/
structure Numeral where
  /-- Whether a minus sign leads; zero may have one too. -/
  negative : Bool
  /-- The digits without the point, read as one number. -/
  coefficient : Nat
  /-- How many digits follow the point, if there is a point. -/
  places : Option Nat
  deriving DecidableEq, Repr

namespace Numeral

/-! ## Reading -/

/-- The number that a row of decimal digits writes, leading zeros included. -/
def ofDigits (digits : List Char) : Nat :=
  Nat.ofDigitChars 10 digits 0

/-- Reads digits with at most one point among them, and gives them the sign. -/
def ofMagnitude? (negative : Bool) (body : List Char) : Option Numeral :=
  let whole := body.takeWhile Char.isDigit
  match body.dropWhile Char.isDigit with
  | [] => if whole.isEmpty then none else some ⟨negative, ofDigits whole, none⟩
  | '.' :: fraction =>
      if fraction.all Char.isDigit && !(whole ++ fraction).isEmpty then
        some ⟨negative, ofDigits (whole ++ fraction), some fraction.length⟩
      else none
  | _ => none

/-- **The numeral that a row of characters spells**, if it spells one. A sign may lead. -/
def ofChars? : List Char → Option Numeral
  | '-' :: body => ofMagnitude? true body
  | '+' :: body => ofMagnitude? false body
  | body => ofMagnitude? false body

/-- **The numeral that a text spells**, if it spells one. -/
def ofText? (text : String) : Option Numeral :=
  ofChars? text.toList

/-! ## Writing -/

/-- The decimal digits of a number, at least `length` of them. -/
def paddedDigits (length n : Nat) : List Char :=
  (Nat.toDigits 10 n).leftpad length '0'

/-- The digits of a magnitude with the point before the last `places` of them. One digit stands
before the point at least. -/
def magnitudeChars (coefficient : Nat) : Option Nat → List Char
  | none => Nat.toDigits 10 coefficient
  | some places =>
      let digits := paddedDigits (places + 1) coefficient
      digits.take (digits.length - places) ++ '.' :: digits.drop (digits.length - places)

/-- The characters of a numeral: a minus sign if it is negative, then its magnitude. -/
def chars (n : Numeral) : List Char :=
  if n.negative then '-' :: magnitudeChars n.coefficient n.places
  else magnitudeChars n.coefficient n.places

/-- **The plain spelling of a numeral.** -/
def text (n : Numeral) : String :=
  String.ofList n.chars

end Numeral

end DeskCalc
