/-! # Errors of reading and evaluating expressions

What can go wrong, as causes, and the one text of each cause.

* **`ParseError`** — the text is not an expression. Positions are byte offsets into the text.
* **`RuntimeError`** — the text is an expression, but one of its operations has no value.
* **`EvalError`** — either of the two: what an evaluation can fail with. -/

namespace DeskCalc

/-! ## Causes -/

/-- **Why a text is not an expression.** A position is the UTF-8 byte offset of the token, or of the
character, that is to blame. -/
inductive ParseError where
  /-- The literal denotes no value of the type that is evaluated in. -/
  | invalidNumber (literal : String) (position : Nat)
  /-- The character starts no token. -/
  | invalidCharacter (character : Char) (position : Nat)
  /-- The parenthesis has no partner. -/
  | mismatchedParenthesis (position : Nat)
  /-- There is no operand at all. -/
  | emptyExpression
  /-- A sign is followed by something other than digits. -/
  | danglingMinus (position : Nat)
  /-- The operator lacks a value on one of its sides. -/
  | missingOperand (operator : Char) (position : Nat)
  /-- Two operands follow each other. -/
  | missingOperator (position : Nat)
  deriving DecidableEq, Repr

/-- **Why an operation has no value.** -/
inductive RuntimeError where
  /-- An integer was divided by zero. -/
  | divisionByZero
  /-- The operation is not defined for its argument. -/
  | domainError (details : String)
  deriving DecidableEq, Repr

/-- **What an evaluation can fail with.** -/
inductive EvalError where
  /-- The text is not an expression. -/
  | parse (cause : ParseError)
  /-- An operation of the expression has no value. -/
  | runtime (cause : RuntimeError)
  deriving DecidableEq, Repr

/-! ## Texts -/

/-- Opens the text of an error that is bound to a place in the source. -/
def atPosition (position : Nat) (text : String) : String :=
  "Error at position " ++ toString position ++ ": " ++ text

/-- The text of a parse error. The literal and the character stand in it as they were written. -/
def ParseError.message : ParseError → String
  | invalidNumber literal position =>
      atPosition position ("Invalid number '" ++ literal ++ "'.")
  | invalidCharacter character position =>
      atPosition position ("Invalid character in expression: '" ++ character.toString ++ "'.")
  | mismatchedParenthesis position => atPosition position "Mismatched parentheses."
  | emptyExpression => "Error: Empty expression."
  | danglingMinus position => atPosition position "Unary minus not followed by a number."
  | missingOperand operator position =>
      atPosition position ("Operator '" ++ operator.toString ++ "' is missing an operand.")
  | missingOperator position => atPosition position "Expected an operator."

/-- The text of a runtime error. -/
def RuntimeError.message : RuntimeError → String
  | divisionByZero => "Error: Division by zero."
  | domainError details => "Error: Domain error: " ++ details ++ "."

/-- The text of an evaluation's error is that of its cause. -/
def EvalError.message : EvalError → String
  | parse cause => cause.message
  | runtime cause => cause.message

/-- The place that a parse error is bound to, if it has one. -/
def ParseError.position? : ParseError → Option Nat
  | invalidNumber _ position => some position
  | invalidCharacter _ position => some position
  | mismatchedParenthesis position => some position
  | emptyExpression => none
  | danglingMinus position => some position
  | missingOperand _ position => some position
  | missingOperator position => some position

end DeskCalc
