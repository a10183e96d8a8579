import DeskCalc.Evaluation

/-! # Expressions as trees

What an expression means, apart from how its text is worked through: the tree of its operators, the
value of a tree, and the rows of lexemes that a tree is written as.

* **`Expression`** — literals joined by binary operators.
* **`Expression.evaluate`** — the value of a tree, with its left operand evaluated first.
* **`Derives`** — the grammar. Every strength of operators groups from the left, powers included,
  and a minus sign belongs to its literal. -/

namespace DeskCalc

/-! ## Trees -/

/-- **The tree of an expression.** -/
inductive Expression where
  /-- A literal with its sign, at the place where it starts. -/
  | literal (text : String) (position : Nat)
  /-- An operator with its operands. -/
  | binary (op : Operator) (left right : Expression)
  deriving DecidableEq, Repr

/-- **The value of a tree:** the left operand, the right operand, then the operator. The first
failure in this order ends the evaluation. -/
def Expression.evaluate {α : Type} [Numeric α] : Expression → Evaluation α α
  | literal text position => Logged.ofExcept ((readNumber text position).mapError .parse)
  | binary op left right => do
      let a ← left.evaluate
      let b ← right.evaluate
      let value ← Logged.ofExcept ((op.apply a b).mapError .runtime)
      Logged.emit (.applied a op b value)
      pure value

/-! ## Grammar -/

/-- The strength of what no operator can break up: a literal, or an expression in parentheses. -/
def atomStrength : Nat := 4

/-- The strength of a whole expression, in which all operators may stand. -/
def wholeStrength : Nat := 1

/-- **The rows of lexemes that write a tree.** `Derives strength` allows no operator that binds less
strongly than `strength` outside of parentheses. A right operand binds more strongly than its
operator, so that a row of equal operators groups from the left. -/
inductive Derives : Nat → List Lexeme → Expression → Prop
  /-- A literal without a sign. -/
  | unsigned {text : String} {position : Nat} :
      Derives atomStrength [⟨.number text, position⟩] (.literal text position)
  /-- A minus sign and the literal that it belongs to. -/
  | signed {text : String} {minus position : Nat} :
      Derives atomStrength [⟨.operator .sub, minus⟩, ⟨.number text, position⟩]
        (.literal ("-" ++ text) minus)
  /-- An expression in parentheses. -/
  | parenthesized {lexemes : List Lexeme} {tree : Expression} {left right : Nat} :
      Derives wholeStrength lexemes tree →
      Derives atomStrength (⟨.leftParen, left⟩ :: lexemes ++ [⟨.rightParen, right⟩]) tree
  /-- An operator between its operands. -/
  | binary {op : Operator} {before after : List Lexeme} {left right : Expression}
      {position : Nat} :
      Derives op.precedence before left →
      Derives (op.precedence + 1) after right →
      Derives op.precedence (before ++ ⟨.operator op, position⟩ :: after) (.binary op left right)
  /-- What binds more strongly may stand wherever less is asked for. -/
  | weaken {strength : Nat} {lexemes : List Lexeme} {tree : Expression} :
      Derives (strength + 1) lexemes tree → Derives strength lexemes tree

end DeskCalc
