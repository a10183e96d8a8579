import DeskCalc.Token

/-! # Texts of tokens

The texts that a row of tokens can be written as: each token as it is spelled, with gaps of white
space around it.

* **`Piece`** — a token with the gap that follows it.
* **`Piece.render`** — the text of a row of pieces after a first gap.
* **`Piece.place`** — the lexemes that stand in that text.
* **`Piece.Separate`** — no two literals touch, so that the text splits in one way only. -/

namespace DeskCalc

/-- **Whether a token can be scanned:** a literal has a character, and only digits and points. -/
def Token.WellFormed : Token → Prop
  | number literal => literal.toList ≠ [] ∧ ∀ c ∈ literal.toList, isLiteral c = true
  | _ => True

/-- Whether a token is a literal. -/
def Token.isNumber : Token → Bool
  | number _ => true
  | _ => false

/-- **A token with the gap that follows it.** -/
structure Piece where
  /-- The token. -/
  token : Token
  /-- What stands between it and the next token. -/
  gap : List Char

namespace Piece

/-- The characters of a piece. -/
def chars (piece : Piece) : List Char :=
  piece.token.text.toList ++ piece.gap

/-- The characters of a row of pieces. -/
def charsOf (pieces : List Piece) : List Char :=
  pieces.flatMap chars

/-- **The text of a row of pieces** after a first gap. -/
def render (lead : List Char) (pieces : List Piece) : String :=
  String.ofList (lead ++ charsOf pieces)

/-- **The lexemes of a row of pieces** whose first token starts at the byte offset `position`. -/
def place (position : Nat) : List Piece → List Lexeme
  | [] => []
  | piece :: pieces =>
      ⟨piece.token, position⟩ ::
        place (position + (String.ofList piece.chars).utf8ByteSize) pieces

/-- Whether a row of characters may stand between tokens. -/
def IsGap (gap : List Char) : Prop :=
  ∀ c ∈ gap, Token.isGap c = true

/-- **Whether a row of pieces can be told apart again:** its tokens can be scanned, its gaps are
gaps, and the gap between two literals is not empty. -/
def Separate : List Piece → Prop
  | [] => True
  | [piece] => piece.token.WellFormed ∧ IsGap piece.gap
  | piece :: next :: pieces =>
      piece.token.WellFormed ∧ IsGap piece.gap ∧
        (piece.token.isNumber = true → next.token.isNumber = true → piece.gap ≠ []) ∧
        Separate (next :: pieces)

end Piece

end DeskCalc
