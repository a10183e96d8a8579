import DeskCalc.Binary.Numeric
import DeskCalc.Event
import DeskCalc.Logged
import DeskCalc.Token

/-! # Evaluation of expressions

One pass over the lexemes with two stacks: values, and the operators and open parentheses that wait
for them. An operator is applied as soon as the next one does not bind more strongly, so that
operators of one strength group from the left.

* **`Workspace`** — the two stacks, and what may come next.
* **`Workspace.step`** — takes in one lexeme.
* **`Workspace.finish`** — the value that is left at the end.
* **`evaluateAs`**, **`evaluate`** — the value of a text in a given type, and in double precision. -/

namespace DeskCalc

/-! ## The workspace -/

/-- What waits for values. -/
inductive Held where
  /-- An operator whose right operand is not complete. -/
  | operator (op : Operator) (position : Nat)
  /-- A parenthesis that is still open. -/
  | paren (position : Nat)
  deriving DecidableEq, Repr

/-- Where the waiting token stands. -/
def Held.position : Held → Nat
  | operator _ position => position
  | paren position => position

/-- What may come next. -/
inductive Expecting where
  /-- An operand. -/
  | operand
  /-- The digits that belong to the minus sign at `minus`. -/
  | literal (minus : Nat)
  /-- An operator, or the end. -/
  | operator
  deriving DecidableEq, Repr

/-- **The state between two lexemes.** Both stacks have their top first. -/
structure Workspace (α : Type) where
  /-- The operators and parentheses that wait. -/
  held : List Held
  /-- The values that no operator has taken yet. -/
  values : List α
  /-- What may come next. -/
  expecting : Expecting
  deriving DecidableEq, Repr

/-- What an evaluation yields, with the events that it logs. -/
abbrev Evaluation (α β : Type) : Type :=
  Logged (EvaluationEvent α) EvalError β

namespace Workspace

/-- The state before the first lexeme. -/
def empty {α : Type} : Workspace α :=
  ⟨[], [], .operand⟩

variable {α : Type} [Numeric α]

/-! ## Applying operators -/

/-- Puts the value of an operator in place of the two topmost values. -/
def applyOperator (op : Operator) (position : Nat) : List α → Evaluation α (List α)
  | right :: left :: values =>
      match op.apply left right with
      | .ok value => do
          Logged.emit (.applied left op right value)
          pure (value :: values)
      | .error cause => Logged.fail (.runtime cause)
  | _ => Logged.fail (.parse (.missingOperand op.symbol position))

/-- **Applies the waiting operators** from the top down to the first parenthesis, or to the first
operator that binds less strongly than `strength`. -/
def unwind (strength : Nat) : List Held → List α → Evaluation α (List Held × List α)
  | .operator op position :: held, values =>
      if strength ≤ op.precedence then do
        let values ← applyOperator op position values
        unwind strength held values
      else pure (.operator op position :: held, values)
  | held, values => pure (held, values)

theorem applyOperator_eq (op : Operator) (position : Nat) (left right : α) (values : List α) :
    applyOperator op position (right :: left :: values) = (do
      let value ← Logged.ofExcept ((op.apply left right).mapError .runtime)
      Logged.emit (.applied left op right value)
      pure (value :: values)) := by
  rw [applyOperator]
  cases op.apply left right <;> rfl

@[simp] theorem unwind_nil (strength : Nat) (values : List α) :
    unwind strength [] values = pure ([], values) := by
  rw [unwind]
  exact fun _ _ _ h => nomatch h

@[simp] theorem unwind_paren (strength position : Nat) (held : List Held) (values : List α) :
    unwind strength (.paren position :: held) values = pure (.paren position :: held, values) := by
  rw [unwind]
  exact fun _ _ _ h => nomatch h

theorem unwind_of_le {strength : Nat} {op : Operator} (h : strength ≤ op.precedence)
    (position : Nat) (held : List Held) (values : List α) :
    unwind strength (.operator op position :: held) values =
      applyOperator op position values >>= unwind strength held := by
  rw [unwind, if_pos h]

theorem unwind_of_lt {strength : Nat} {op : Operator} (h : op.precedence < strength)
    (position : Nat) (held : List Held) (values : List α) :
    unwind strength (.operator op position :: held) values =
      pure (.operator op position :: held, values) := by
  rw [unwind, if_neg (Nat.not_le.mpr h)]

/-! ## Taking in lexemes -/

/-- Reads a literal onto the values. -/
def pushLiteral (w : Workspace α) (literal : String) (position : Nat) :
    Evaluation α (Workspace α) :=
  match readNumber literal position with
  | .ok value => pure { w with values := value :: w.values, expecting := .operator }
  | .error cause => Logged.fail (.parse cause)

/-- Lets an operator wait, once those before it that bind as strongly are applied. -/
def pushOperator (w : Workspace α) (op : Operator) (position : Nat) :
    Evaluation α (Workspace α) := do
  let (held, values) ← unwind op.precedence w.held w.values
  pure ⟨.operator op position :: held, values, .operand⟩

/-- Applies all that waits inside the innermost parenthesis, and closes it. What came directly before
does not matter here. -/
def closeParen (w : Workspace α) (position : Nat) : Evaluation α (Workspace α) := do
  let (held, values) ← unwind 0 w.held w.values
  match held with
  | _ :: held => pure ⟨held, values, .operator⟩
  | [] => Logged.fail (.parse (.mismatchedParenthesis position))

/-- Takes in what comes directly after the sign of a literal: its digits, or nothing else. -/
def stepLiteral (w : Workspace α) (minus : Nat) : Token → Evaluation α (Workspace α)
  | .number literal => w.pushLiteral ("-" ++ literal) minus
  | _ => Logged.fail (.parse (.danglingMinus minus))

/-- Takes in a lexeme where an operand may start. A minus is a sign there. -/
def stepOperand (w : Workspace α) (position : Nat) : Token → Evaluation α (Workspace α)
  | .number literal => w.pushLiteral literal position
  | .operator op =>
      if op = .sub then pure { w with expecting := .literal position }
      else Logged.fail (.parse (.missingOperand op.symbol position))
  | .leftParen => pure { w with held := .paren position :: w.held }
  | .rightParen => w.closeParen position

/-- Takes in a lexeme after an operand. -/
def stepOperator (w : Workspace α) (position : Nat) : Token → Evaluation α (Workspace α)
  | .operator op => w.pushOperator op position
  | .rightParen => w.closeParen position
  | _ => Logged.fail (.parse (.missingOperator position))

/-- **Takes in one lexeme.** -/
def step (w : Workspace α) (lexeme : Lexeme) : Evaluation α (Workspace α) :=
  match w.expecting with
  | .literal minus => w.stepLiteral minus lexeme.token
  | .operand => w.stepOperand lexeme.position lexeme.token
  | .operator => w.stepOperator lexeme.position lexeme.token

/-- **The value at the end.** All that still waits is applied; a parenthesis must not be left open. -/
def finish (w : Workspace α) : Evaluation α α :=
  match w.expecting with
  | .literal minus => Logged.fail (.parse (.danglingMinus minus))
  | _ => do
      let (held, values) ← unwind 0 w.held w.values
      match held, values with
      | waiting :: _, _ => Logged.fail (.parse (.mismatchedParenthesis waiting.position))
      | [], value :: _ => pure value
      | [], [] => Logged.fail (.parse .emptyExpression)

/-- The state after a row of lexemes. -/
def run (w : Workspace α) (lexemes : List Lexeme) : Evaluation α (Workspace α) :=
  lexemes.foldlM step w

@[simp] theorem run_nil (w : Workspace α) : w.run [] = pure w :=
  rfl

@[simp] theorem run_cons (w : Workspace α) (lexeme : Lexeme) (lexemes : List Lexeme) :
    w.run (lexeme :: lexemes) = w.step lexeme >>= fun w => w.run lexemes :=
  rfl

/-- A row of lexemes is taken in piece by piece. -/
theorem run_append (w : Workspace α) (before after : List Lexeme) :
    w.run (before ++ after) = w.run before >>= fun w => w.run after :=
  List.foldlM_append

theorem run_concat (w : Workspace α) (lexemes : List Lexeme) (lexeme : Lexeme) :
    w.run (lexemes ++ [lexeme]) = w.run lexemes >>= fun w => w.step lexeme := by
  rw [run_append]
  simp only [run_cons, run_nil, bind_pure]

end Workspace

/-! ## Whole texts -/

/-- The value of a row of lexemes. -/
def evaluateLexemes {α : Type} [Numeric α] (lexemes : List Lexeme) : Evaluation α α := do
  let w ← Workspace.empty.run lexemes
  w.finish

/-- **The value of a text in the type `α`.** A text that does not split into lexemes fails before
anything is evaluated. -/
def evaluateAs (α : Type) [Numeric α] (source : String) : Evaluation α α :=
  match Lexeme.scan source with
  | .error cause => Logged.fail (.parse cause)
  | .ok lexemes => do
      let value ← evaluateLexemes lexemes
      Logged.emit (.evaluated source value)
      pure value

/-- **The value of a text in double precision.** -/
def evaluate (source : String) : Evaluation Double Double :=
  evaluateAs Double source

end DeskCalc
