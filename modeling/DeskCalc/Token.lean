import DeskCalc.Error
import DeskCalc.Operator

/-! # Tokens

The words that expressions are made of, and their places in a text.

* **`Token`** — a number literal, an operator or a parenthesis.
* **`Lexeme`** — a token at a byte offset.
* **`Lexeme.scan`** — the lexemes of a text. A literal is as long a run of digits and points as
  possible; whether it denotes a number is not decided here. -/

namespace DeskCalc

/-! ## Tokens -/

/-- **A word of an expression.** -/
inductive Token where
  /-- A run of digits and points. -/
  | number (literal : String)
  /-- An operator. A minus may turn out to be the sign of a literal. -/
  | operator (op : Operator)
  /-- An opening parenthesis. -/
  | leftParen
  /-- A closing parenthesis. -/
  | rightParen
  deriving DecidableEq, Repr

namespace Token

/-- Whether a character may stand between tokens. -/
def isGap (c : Char) : Bool :=
  c == ' ' || c == '\t' || c == '\r' || c == '\n' || c == '\x0c'

/-- Whether a character belongs to a literal. -/
def isLiteral (c : Char) : Bool :=
  c.isDigit || c == '.'

/-- The token that a single character writes, if it is an operator or a parenthesis. -/
def ofMark? : Char → Option Token
  | '(' => some leftParen
  | ')' => some rightParen
  | c => (Operator.ofSymbol? c).map operator

/-- The text of a token. -/
def text : Token → String
  | number literal => literal
  | operator op => op.text
  | leftParen => "("
  | rightParen => ")"

end Token

/-! ## Tokens in a text -/

/-- **A token at a place of a text.** -/
structure Lexeme where
  /-- The token. -/
  token : Token
  /-- The byte offset at which its text starts. -/
  position : Nat
  deriving DecidableEq, Repr

namespace Lexeme

/-- The lexemes of a row of characters whose first one is at the byte offset `position`. Only ASCII
characters are passed over, so that each of them moves the offset by one. -/
def scanFrom (position : Nat) : List Char → Except ParseError (List Lexeme)
  | [] => .ok []
  | c :: rest =>
      if Token.isGap c then scanFrom (position + 1) rest
      else if Token.isLiteral c then
        let literal := c :: rest.takeWhile Token.isLiteral
        (scanFrom (position + literal.length) (rest.dropWhile Token.isLiteral)).map
          (⟨.number (String.ofList literal), position⟩ :: ·)
      else
        match Token.ofMark? c with
        | some token => (scanFrom (position + 1) rest).map (⟨token, position⟩ :: ·)
        | none => .error (.invalidCharacter c position)
  termination_by cs => cs.length
  decreasing_by
    · exact Nat.lt_succ_self _
    · exact Nat.lt_succ_of_le (List.dropWhile_sublist _).length_le
    · exact Nat.lt_succ_self _

/-- **The lexemes of a text**, or its first character that starts no token. -/
def scan (source : String) : Except ParseError (List Lexeme) :=
  scanFrom 0 source.toList

end Lexeme

end DeskCalc
