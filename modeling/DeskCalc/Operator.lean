import DeskCalc.Power

/-! # Binary operators

* **`Operator`** — the five operators, with their symbols and how strongly they bind.
* **`Operator.apply`** — the value of an operator for two operands. -/

namespace DeskCalc

/-- **A binary operator.** -/
inductive Operator where
  /-- The sum. -/
  | add
  /-- The difference. -/
  | sub
  /-- The product. -/
  | mul
  /-- The quotient. -/
  | div
  /-- The power. -/
  | pow
  deriving DecidableEq, Repr

namespace Operator

/-- How strongly the operator binds. Operators of one strength group from left to right, powers
too. -/
def precedence : Operator → Nat
  | add => 1
  | sub => 1
  | mul => 2
  | div => 2
  | pow => 3

/-- The character that writes the operator. -/
def symbol : Operator → Char
  | add => '+'
  | sub => '-'
  | mul => '*'
  | div => '/'
  | pow => '^'

/-- The operator that a character writes. -/
def ofSymbol? : Char → Option Operator
  | '+' => some add
  | '-' => some sub
  | '*' => some mul
  | '/' => some div
  | '^' => some pow
  | _ => none

/-- The text of an operator is its symbol. -/
def text (op : Operator) : String :=
  op.symbol.toString

/-- **The value of an operator.** The right operand of a power is taken as a whole exponent. -/
def apply {α : Type} [Numeric α] (op : Operator) (left right : α) : Except RuntimeError α :=
  match op with
  | add => .ok (left + right)
  | sub => .ok (left - right)
  | mul => .ok (left * right)
  | div => Numeric.divide left right
  | pow => power left (Numeric.exponent right)

end Operator

end DeskCalc
