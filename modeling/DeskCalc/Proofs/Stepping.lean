import DeskCalc.Evaluation
import DeskCalc.Rendering

/-! # What one step can do

The evaluator's functions turned around: what must have held when a step gave a state, and what when
it failed. Proofs about runs take these cases and need not look at the functions again.

* **`Workspace.Unwinds`**, **`Workspace.UnwindFails`** — the waiting operators that are applied,
  down to where unwinding stops, or to the one that cannot be applied.
* **`Workspace.Steps`**, **`Workspace.StepFails`** — one lexeme.
* **`Workspace.step_ok_iff`**, **`Workspace.step_error_iff`** — a step does one of these or fails.
* **`Workspace.finish_ok_iff`**, **`Workspace.FinishFails`** — the end.
* **`Workspace.run_induction`**, **`Workspace.evaluateLexemes_error_iff`** — what every step keeps
  holds of all states that are reached, and a failure is that of one step, or of the end. -/

namespace DeskCalc

/-- Whether a parenthesis may close: anywhere but directly after the sign of a literal. -/
def Expecting.MayClose : Expecting → Prop
  | .literal _ => False
  | _ => True

namespace Workspace

variable {α : Type} [Numeric α]

/-! ## Applying one operator -/

/-- Two values and an operator give the operator's value, or its failure. -/
theorem outcome_applyOperator (op : Operator) (position : Nat) (left right : α) (rest : List α) :
    (applyOperator op position (right :: left :: rest)).outcome =
      ((op.apply left right).mapError .runtime).map (· :: rest) := by
  rw [applyOperator]
  cases op.apply left right <;> rfl

/-- An operator that was applied had two values, and left one in their place. -/
theorem applyOperator_ok_iff {op : Operator} {position : Nat} {values after : List α} :
    (applyOperator op position values).outcome = .ok after ↔
      ∃ right left rest value, values = right :: left :: rest ∧ op.apply left right = .ok value ∧
        after = value :: rest := by
  -- with fewer than two values, nothing is applied
  match values with
  | [] => simp [applyOperator]
  | [_] => simp [applyOperator]
  | right :: left :: rest =>
    rw [outcome_applyOperator]
    cases h : op.apply left right with
    | error cause =>
      constructor
      · rintro ⟨⟩
      · rintro ⟨_, _, _, _, ⟨⟩, happly, -⟩
        rw [h] at happly
        cases happly
    | ok value =>
      constructor
      · rintro ⟨⟩
        exact ⟨right, left, rest, value, rfl, h, rfl⟩
      · rintro ⟨_, _, _, _, ⟨⟩, happly, rfl⟩
        rw [h] at happly
        cases happly
        rfl

/-- An operator that could not be applied had no value for its operands, or not two operands. -/
theorem applyOperator_error_iff {op : Operator} {position : Nat} {values : List α}
    {cause : EvalError} :
    (applyOperator op position values).outcome = .error cause ↔
      (∃ right left rest why, values = right :: left :: rest ∧ op.apply left right = .error why ∧
        cause = .runtime why) ∨
      values.length < 2 ∧ cause = .parse (.missingOperand op.symbol position) := by
  match values with
  | [] => simp [applyOperator, eq_comm]
  | [_] => simp [applyOperator, eq_comm]
  | right :: left :: rest =>
    rw [outcome_applyOperator]
    cases h : op.apply left right with
    | error why =>
      constructor
      · rintro ⟨⟩
        exact .inl ⟨right, left, rest, why, rfl, h, rfl⟩
      · rintro (⟨_, _, _, _, ⟨⟩, happly, rfl⟩ | ⟨hlength, -⟩)
        · rw [h] at happly
          cases happly
          rfl
        · exact absurd hlength (by simp)
    | ok value =>
      constructor
      · rintro ⟨⟩
      · rintro (⟨_, _, _, _, ⟨⟩, happly, -⟩ | ⟨hlength, -⟩)
        · rw [h] at happly
          cases happly
        · exact absurd hlength (by simp)

/-! ## Unwinding -/

/-- **Whether unwinding stops at once:** at the bottom, at a parenthesis, or at an operator that
binds less strongly than `strength`. -/
def Stops (strength : Nat) : List Held → Prop
  | .operator op _ :: _ => op.precedence < strength
  | _ => True

/-- Where a strength stops, a greater one does too. -/
theorem Stops.mono {strength level : Nat} {held : List Held} (h : Stops strength held)
    (hle : strength ≤ level) : Stops level held := by
  match held, h with
  | [], _ => trivial
  | .paren _ :: _, _ => trivial
  | .operator _ _ :: _, hlt => exact Nat.lt_of_lt_of_le hlt hle

/-- Unwinding that stops at once changes nothing. -/
theorem unwind_of_stops {strength : Nat} {held : List Held} (h : Stops strength held)
    (values : List α) : unwind strength held values = pure (held, values) := by
  match held, h with
  | [], _ => exact unwind_nil strength values
  | .paren position :: held, _ => exact unwind_paren strength position held values
  | .operator _ position :: held, hlt => exact unwind_of_lt hlt position held values

/-- **What unwinding has done:** the operators on top that bind at least as strongly as `strength`
are applied one after the other, and it stopped below them. -/
inductive Unwinds (strength : Nat) : List Held → List α → List Held → List α → Prop
  /-- Nothing on top must be applied. -/
  | stop {held : List Held} {values : List α} :
      Stops strength held → Unwinds strength held values held values
  /-- The operator on top is applied, and what waits below is unwound. -/
  | apply {op : Operator} {position : Nat} {held held' : List Held} {right left value : α}
      {rest values' : List α} :
      strength ≤ op.precedence → op.apply left right = .ok value →
      Unwinds strength held (value :: rest) held' values' →
      Unwinds strength (.operator op position :: held) (right :: left :: rest) held' values'

/-- **Why unwinding fails:** some operator on top cannot be applied. -/
inductive UnwindFails (strength : Nat) : List Held → List α → EvalError → Prop
  /-- The operator on top cannot be applied. -/
  | here {op : Operator} {position : Nat} {held : List Held} {values : List α}
      {cause : EvalError} :
      strength ≤ op.precedence → (applyOperator op position values).outcome = .error cause →
      UnwindFails strength (.operator op position :: held) values cause
  /-- The operator on top is applied, and what waits below cannot be unwound. -/
  | later {op : Operator} {position : Nat} {held : List Held} {right left value : α}
      {rest : List α} {cause : EvalError} :
      strength ≤ op.precedence → op.apply left right = .ok value →
      UnwindFails strength held (value :: rest) cause →
      UnwindFails strength (.operator op position :: held) (right :: left :: rest) cause

/-- Unwinding gives what it says to have done. -/
theorem unwind_ok_iff {strength : Nat} {held held' : List Held} {values values' : List α} :
    (unwind strength held values).outcome = .ok (held', values') ↔
      Unwinds strength held values held' values' := by
  constructor
  · intro h
    -- unwinding goes down the waiting entries, with the values that each application leaves
    induction held generalizing values with
    | nil =>
      rw [unwind_nil] at h
      cases h
      exact .stop trivial
    | cons entry held ih =>
      match entry with
      | .paren position =>
        rw [unwind_paren] at h
        cases h
        exact .stop trivial
      | .operator op position =>
        by_cases hop : strength ≤ op.precedence
        · rw [unwind_of_le hop, Logged.outcome_bind_eq_ok_iff] at h
          obtain ⟨after, happly, h⟩ := h
          obtain ⟨right, left, rest, value, rfl, hvalue, rfl⟩ := applyOperator_ok_iff.mp happly
          exact .apply hop hvalue (ih h)
        · rw [unwind_of_lt (Nat.lt_of_not_le hop)] at h
          cases h
          exact .stop (Nat.lt_of_not_le hop)
  · intro h
    induction h with
    | stop hstops => rw [unwind_of_stops hstops, Logged.outcome_pure]
    | apply hop hvalue _ ih =>
      rw [unwind_of_le hop, Logged.outcome_bind_eq_ok_iff]
      exact ⟨_, applyOperator_ok_iff.mpr ⟨_, _, _, _, rfl, hvalue, rfl⟩, ih⟩

/-- Unwinding fails for the reason that is given. -/
theorem unwind_error_iff {strength : Nat} {held : List Held} {values : List α}
    {cause : EvalError} :
    (unwind strength held values).outcome = .error cause ↔
      UnwindFails strength held values cause := by
  constructor
  · intro h
    induction held generalizing values with
    | nil =>
      rw [unwind_nil] at h
      cases h
    | cons entry held ih =>
      match entry with
      | .paren position =>
        rw [unwind_paren] at h
        cases h
      | .operator op position =>
        by_cases hop : strength ≤ op.precedence
        · rw [unwind_of_le hop, Logged.outcome_bind_eq_error_iff] at h
          rcases h with h | ⟨after, happly, h⟩
          · exact .here hop h
          · obtain ⟨right, left, rest, value, rfl, hvalue, rfl⟩ := applyOperator_ok_iff.mp happly
            exact .later hop hvalue (ih h)
        · rw [unwind_of_lt (Nat.lt_of_not_le hop)] at h
          cases h
  · intro h
    induction h with
    | here hop hfails =>
      rw [unwind_of_le hop, Logged.outcome_bind_eq_error_iff]
      exact .inl hfails
    | later hop hvalue _ ih =>
      rw [unwind_of_le hop, Logged.outcome_bind_eq_error_iff]
      exact .inr ⟨_, applyOperator_ok_iff.mpr ⟨_, _, _, _, rfl, hvalue, rfl⟩, ih⟩

/-- What unwinding leaves is where it stops. -/
theorem Unwinds.stops {strength : Nat} {held held' : List Held} {values values' : List α}
    (h : Unwinds strength held values held' values') : Stops strength held' := by
  induction h with
  | stop hstops => exact hstops
  | apply _ _ _ ih => exact ih

/-- Unwinding with the least strength applies all operators on top: what it leaves is empty, or
starts with a parenthesis. -/
theorem Unwinds.eq_nil_or_paren {held held' : List Held} {values values' : List α}
    (h : Unwinds 0 held values held' values') :
    held' = [] ∨ ∃ position rest, held' = .paren position :: rest := by
  match held', h.stops with
  | [], _ => exact .inl rfl
  | .paren position :: rest, _ => exact .inr ⟨position, rest, rfl⟩
  | .operator op _ :: _, hlt => exact absurd hlt (Nat.not_lt_zero op.precedence)

/-! ## Literals and closing parentheses -/

/-- A literal that is read has a value, which goes on top. -/
theorem pushLiteral_ok_iff {w w' : Workspace α} {text : String} {position : Nat} :
    (w.pushLiteral text position).outcome = .ok w' ↔
      ∃ value, readNumber text position = .ok value ∧
        w' = ⟨w.held, value :: w.values, .operator⟩ := by
  rw [pushLiteral]
  cases hvalue : (readNumber text position : Except ParseError α) with
  | error why =>
    constructor
    · rintro ⟨⟩
    · rintro ⟨_, ⟨⟩, _⟩
  | ok value =>
    constructor
    · rintro ⟨⟩
      exact ⟨value, rfl, rfl⟩
    · rintro ⟨_, ⟨⟩, rfl⟩
      rfl

/-- A literal that is not read has no value. -/
theorem pushLiteral_error_iff {w : Workspace α} {text : String} {position : Nat}
    {cause : EvalError} :
    (w.pushLiteral text position).outcome = .error cause ↔
      ∃ why, (readNumber text position : Except ParseError α) = .error why ∧
        cause = .parse why := by
  rw [pushLiteral]
  cases hvalue : (readNumber text position : Except ParseError α) with
  | error why =>
    constructor
    · rintro ⟨⟩
      exact ⟨why, rfl, rfl⟩
    · rintro ⟨_, ⟨⟩, rfl⟩
      rfl
  | ok value =>
    constructor
    · rintro ⟨⟩
    · rintro ⟨_, ⟨⟩, _⟩

/-- Wherever a parenthesis may close, it is closed in the same way. -/
theorem step_rightParen {w : Workspace α} (hclose : w.expecting.MayClose) (position : Nat) :
    w.step ⟨.rightParen, position⟩ = w.closeParen position := by
  obtain ⟨held, values, expecting⟩ := w
  match expecting, hclose with
  | .operand, _ => rfl
  | .operator, _ => rfl

/-- A parenthesis that is closed was open, and all that waited inside is applied. -/
theorem closeParen_ok_iff {w w' : Workspace α} {position : Nat} :
    (w.closeParen position).outcome = .ok w' ↔
      ∃ partner held' values', Unwinds 0 w.held w.values (.paren partner :: held') values' ∧
        w' = ⟨held', values', .operator⟩ := by
  rw [closeParen, Logged.outcome_bind_eq_ok_iff]
  constructor
  · rintro ⟨⟨held', values'⟩, hunwind, h⟩
    have hunwinds := unwind_ok_iff.mp hunwind
    obtain rfl | ⟨partner, rest, rfl⟩ := hunwinds.eq_nil_or_paren
    · cases h
    · cases h
      exact ⟨partner, rest, values', hunwinds, rfl⟩
  · rintro ⟨partner, held', values', hunwinds, rfl⟩
    exact ⟨_, unwind_ok_iff.mpr hunwinds, rfl⟩

/-- A parenthesis that is not closed was not open, or something inside cannot be applied. -/
theorem closeParen_error_iff {w : Workspace α} {position : Nat} {cause : EvalError} :
    (w.closeParen position).outcome = .error cause ↔
      UnwindFails 0 w.held w.values cause ∨
        (∃ values', Unwinds 0 w.held w.values [] values') ∧
          cause = .parse (.mismatchedParenthesis position) := by
  rw [closeParen, Logged.outcome_bind_eq_error_iff, unwind_error_iff]
  constructor
  · rintro (hfails | ⟨⟨held', values'⟩, hunwind, h⟩)
    · exact .inl hfails
    · have hunwinds := unwind_ok_iff.mp hunwind
      obtain rfl | ⟨partner, rest, rfl⟩ := hunwinds.eq_nil_or_paren
      · cases h
        exact .inr ⟨⟨values', hunwinds⟩, rfl⟩
      · cases h
  · rintro (hfails | ⟨⟨values', hunwinds⟩, rfl⟩)
    · exact .inl hfails
    · exact .inr ⟨_, unwind_ok_iff.mpr hunwinds, rfl⟩

/-! ## One lexeme -/

/-- **What one lexeme does.** -/
inductive Steps : Workspace α → Lexeme → Workspace α → Prop
  /-- A literal is read. -/
  | literal {held : List Held} {values : List α} {text : String} {position : Nat} {value : α} :
      readNumber text position = .ok value →
      Steps ⟨held, values, .operand⟩ ⟨.number text, position⟩ ⟨held, value :: values, .operator⟩
  /-- A minus where an operand may start is a sign. -/
  | sign {held : List Held} {values : List α} {position : Nat} :
      Steps ⟨held, values, .operand⟩ ⟨.operator .sub, position⟩ ⟨held, values, .literal position⟩
  /-- A literal is read together with its sign. -/
  | negative {held : List Held} {values : List α} {text : String} {minus position : Nat}
      {value : α} :
      readNumber ("-" ++ text) minus = .ok value →
      Steps ⟨held, values, .literal minus⟩ ⟨.number text, position⟩
        ⟨held, value :: values, .operator⟩
  /-- A parenthesis is opened. -/
  | opening {held : List Held} {values : List α} {position : Nat} :
      Steps ⟨held, values, .operand⟩ ⟨.leftParen, position⟩
        ⟨.paren position :: held, values, .operand⟩
  /-- An operator waits, once those before it that bind as strongly are applied. -/
  | operator {held held' : List Held} {values values' : List α} {op : Operator} {position : Nat} :
      Unwinds op.precedence held values held' values' →
      Steps ⟨held, values, .operator⟩ ⟨.operator op, position⟩
        ⟨.operator op position :: held', values', .operand⟩
  /-- A parenthesis is closed, once all that waits inside is applied. -/
  | closing {held held' : List Held} {values values' : List α} {expecting : Expecting}
      {position partner : Nat} :
      expecting.MayClose → Unwinds 0 held values (.paren partner :: held') values' →
      Steps ⟨held, values, expecting⟩ ⟨.rightParen, position⟩ ⟨held', values', .operator⟩

/-- A step gives a state just if it is one of these. -/
theorem step_ok_iff {w w' : Workspace α} {lexeme : Lexeme} :
    (w.step lexeme).outcome = .ok w' ↔ Steps w lexeme w' := by
  constructor
  · obtain ⟨held, values, expecting⟩ := w
    obtain ⟨token, position⟩ := lexeme
    intro h
    -- the pairs that are left out fail at once
    match expecting, token with
    | .literal minus, .number text =>
      obtain ⟨value, hvalue, rfl⟩ := pushLiteral_ok_iff.mp h
      exact .negative hvalue
    | .operand, .number text =>
      obtain ⟨value, hvalue, rfl⟩ := pushLiteral_ok_iff.mp h
      exact .literal hvalue
    | .operand, .operator op =>
      -- a minus is a sign here, and any other operator lacks its left operand
      simp only [step, stepOperand] at h
      by_cases hop : op = .sub
      · rw [if_pos hop] at h
        cases h
        subst hop
        exact .sign
      · rw [if_neg hop] at h
        cases h
    | .operand, .leftParen =>
      cases h
      exact .opening
    | .operand, .rightParen =>
      obtain ⟨partner, held', values', hunwinds, rfl⟩ := closeParen_ok_iff.mp h
      exact .closing trivial hunwinds
    | .operator, .operator op =>
      obtain ⟨⟨held', values'⟩, hunwind, h⟩ := Logged.outcome_bind_eq_ok_iff.mp h
      cases h
      exact .operator (unwind_ok_iff.mp hunwind)
    | .operator, .rightParen =>
      obtain ⟨partner, held', values', hunwinds, rfl⟩ := closeParen_ok_iff.mp h
      exact .closing trivial hunwinds
  · intro h
    cases h with
    | literal hvalue => exact pushLiteral_ok_iff.mpr ⟨_, hvalue, rfl⟩
    | sign => rfl
    | negative hvalue => exact pushLiteral_ok_iff.mpr ⟨_, hvalue, rfl⟩
    | opening => rfl
    | operator hunwinds =>
      exact Logged.outcome_bind_eq_ok_iff.mpr ⟨_, unwind_ok_iff.mpr hunwinds, rfl⟩
    | closing hclose hunwinds =>
      rw [step_rightParen hclose]
      exact closeParen_ok_iff.mpr ⟨_, _, _, hunwinds, rfl⟩

/-- **Why one lexeme fails.** -/
inductive StepFails : Workspace α → Lexeme → EvalError → Prop
  /-- A literal has no value. -/
  | literal {held : List Held} {values : List α} {text : String} {position : Nat}
      {cause : ParseError} :
      (readNumber text position : Except ParseError α) = .error cause →
      StepFails ⟨held, values, .operand⟩ ⟨.number text, position⟩ (.parse cause)
  /-- A literal has no value with its sign. -/
  | negative {held : List Held} {values : List α} {text : String} {minus position : Nat}
      {cause : ParseError} :
      (readNumber ("-" ++ text) minus : Except ParseError α) = .error cause →
      StepFails ⟨held, values, .literal minus⟩ ⟨.number text, position⟩ (.parse cause)
  /-- A sign is followed by something other than a literal. -/
  | sign {held : List Held} {values : List α} {token : Token} {minus position : Nat} :
      token.isNumber = false →
      StepFails ⟨held, values, .literal minus⟩ ⟨token, position⟩ (.parse (.danglingMinus minus))
  /-- An operator stands where an operand may start. -/
  | operand {held : List Held} {values : List α} {op : Operator} {position : Nat} :
      op ≠ .sub →
      StepFails ⟨held, values, .operand⟩ ⟨.operator op, position⟩
        (.parse (.missingOperand op.symbol position))
  /-- An operand starts where an operator may stand. -/
  | operator {held : List Held} {values : List α} {token : Token} {position : Nat} :
      token.isNumber = true ∨ token = .leftParen →
      StepFails ⟨held, values, .operator⟩ ⟨token, position⟩ (.parse (.missingOperator position))
  /-- An operator comes, and one of those before it cannot be applied. -/
  | unwinding {held : List Held} {values : List α} {op : Operator} {position : Nat}
      {cause : EvalError} :
      UnwindFails op.precedence held values cause →
      StepFails ⟨held, values, .operator⟩ ⟨.operator op, position⟩ cause
  /-- A parenthesis closes, and one of the operators inside cannot be applied. -/
  | closing {held : List Held} {values : List α} {expecting : Expecting} {position : Nat}
      {cause : EvalError} :
      expecting.MayClose → UnwindFails 0 held values cause →
      StepFails ⟨held, values, expecting⟩ ⟨.rightParen, position⟩ cause
  /-- A parenthesis closes that was not opened. -/
  | unmatched {held : List Held} {values values' : List α} {expecting : Expecting}
      {position : Nat} :
      expecting.MayClose → Unwinds 0 held values [] values' →
      StepFails ⟨held, values, expecting⟩ ⟨.rightParen, position⟩
        (.parse (.mismatchedParenthesis position))

/-- A step fails just for one of these reasons. -/
theorem step_error_iff {w : Workspace α} {lexeme : Lexeme} {cause : EvalError} :
    (w.step lexeme).outcome = .error cause ↔ StepFails w lexeme cause := by
  constructor
  · obtain ⟨held, values, expecting⟩ := w
    obtain ⟨token, position⟩ := lexeme
    intro h
    -- the pair that is left out never fails
    match expecting, token with
    | .literal minus, .number text =>
      obtain ⟨why, hvalue, rfl⟩ := pushLiteral_error_iff.mp h
      exact .negative hvalue
    | .literal minus, .operator op =>
      cases h
      exact .sign rfl
    | .literal minus, .leftParen =>
      cases h
      exact .sign rfl
    | .literal minus, .rightParen =>
      cases h
      exact .sign rfl
    | .operand, .number text =>
      obtain ⟨why, hvalue, rfl⟩ := pushLiteral_error_iff.mp h
      exact .literal hvalue
    | .operand, .operator op =>
      simp only [step, stepOperand] at h
      by_cases hop : op = .sub
      · rw [if_pos hop] at h
        cases h
      · rw [if_neg hop] at h
        cases h
        exact .operand hop
    | .operand, .rightParen =>
      rcases closeParen_error_iff.mp h with hfails | ⟨⟨values', hunwinds⟩, rfl⟩
      · exact .closing trivial hfails
      · exact .unmatched trivial hunwinds
    | .operator, .operator op =>
      rcases Logged.outcome_bind_eq_error_iff.mp h with hunwind | ⟨_, _, h⟩
      · exact .unwinding (unwind_error_iff.mp hunwind)
      · cases h
    | .operator, .number text =>
      cases h
      exact .operator (.inl rfl)
    | .operator, .leftParen =>
      cases h
      exact .operator (.inr rfl)
    | .operator, .rightParen =>
      rcases closeParen_error_iff.mp h with hfails | ⟨⟨values', hunwinds⟩, rfl⟩
      · exact .closing trivial hfails
      · exact .unmatched trivial hunwinds
  · intro h
    cases h with
    | literal hvalue => exact pushLiteral_error_iff.mpr ⟨_, hvalue, rfl⟩
    | negative hvalue => exact pushLiteral_error_iff.mpr ⟨_, hvalue, rfl⟩
    | @sign _ _ token _ _ hnumber =>
      match token, hnumber with
      | .operator _, _ => rfl
      | .leftParen, _ => rfl
      | .rightParen, _ => rfl
    | operand hop => simp only [step, stepOperand, if_neg hop, Logged.outcome_fail]
    | @operator _ _ token _ hoperand =>
      match token, hoperand with
      | .number _, _ => rfl
      | .leftParen, _ => rfl
    | unwinding hfails =>
      exact Logged.outcome_bind_eq_error_iff.mpr (.inl (unwind_error_iff.mpr hfails))
    | closing hclose hfails =>
      rw [step_rightParen hclose]
      exact closeParen_error_iff.mpr (.inl hfails)
    | unmatched hclose hunwinds =>
      rw [step_rightParen hclose]
      exact closeParen_error_iff.mpr (.inr ⟨⟨_, hunwinds⟩, rfl⟩)

/-! ## The end -/

/-- Where the last operand is complete or missing, the end unwinds all that waits. -/
theorem finish_of_mayClose {w : Workspace α} (hclose : w.expecting.MayClose) :
    w.finish = (do
      let waiting ← unwind 0 w.held w.values
      match waiting.1, waiting.2 with
      | entry :: _, _ => Logged.fail (.parse (.mismatchedParenthesis entry.position))
      | [], value :: _ => pure value
      | [], [] => Logged.fail (.parse .emptyExpression)) := by
  obtain ⟨held, values, expecting⟩ := w
  match expecting, hclose with
  | .operand, _ => rfl
  | .operator, _ => rfl

/-- The end gives the value on top, once all that waits is applied. -/
theorem finish_ok_iff {w : Workspace α} {value : α} :
    w.finish.outcome = .ok value ↔
      w.expecting.MayClose ∧ ∃ rest, Unwinds 0 w.held w.values [] (value :: rest) := by
  constructor
  · intro h
    -- a sign at the end fails before anything is unwound
    have hclose : w.expecting.MayClose := by
      obtain ⟨held, values, expecting⟩ := w
      match expecting with
      | .literal minus => cases h
      | .operand => trivial
      | .operator => trivial
    rw [finish_of_mayClose hclose] at h
    obtain ⟨⟨held', values'⟩, hunwind, h⟩ := Logged.outcome_bind_eq_ok_iff.mp h
    refine ⟨hclose, ?_⟩
    match held', values' with
    | _ :: _, _ => cases h
    | [], [] => cases h
    | [], top :: rest =>
      cases h
      exact ⟨rest, unwind_ok_iff.mp hunwind⟩
  · rintro ⟨hclose, rest, hunwinds⟩
    rw [finish_of_mayClose hclose]
    exact Logged.outcome_bind_eq_ok_iff.mpr ⟨_, unwind_ok_iff.mpr hunwinds, rfl⟩

/-- **Why the end fails.** -/
inductive FinishFails : Workspace α → EvalError → Prop
  /-- A sign comes last. -/
  | sign {held : List Held} {values : List α} {minus : Nat} :
      FinishFails ⟨held, values, .literal minus⟩ (.parse (.danglingMinus minus))
  /-- One of the operators that wait cannot be applied. -/
  | unwinding {held : List Held} {values : List α} {expecting : Expecting} {cause : EvalError} :
      expecting.MayClose → UnwindFails 0 held values cause →
      FinishFails ⟨held, values, expecting⟩ cause
  /-- A parenthesis is left open. -/
  | unclosed {held held' : List Held} {values values' : List α} {expecting : Expecting}
      {position : Nat} :
      expecting.MayClose → Unwinds 0 held values (.paren position :: held') values' →
      FinishFails ⟨held, values, expecting⟩ (.parse (.mismatchedParenthesis position))
  /-- There is no value at all. -/
  | empty {held : List Held} {values : List α} {expecting : Expecting} :
      expecting.MayClose → Unwinds 0 held values [] [] →
      FinishFails ⟨held, values, expecting⟩ (.parse .emptyExpression)

/-- The end fails just for one of these reasons. -/
theorem finish_error_iff {w : Workspace α} {cause : EvalError} :
    w.finish.outcome = .error cause ↔ FinishFails w cause := by
  constructor
  · intro h
    obtain ⟨held, values, expecting⟩ := w
    by_cases hclose : expecting.MayClose
    · rw [finish_of_mayClose hclose] at h
      rcases Logged.outcome_bind_eq_error_iff.mp h with hunwind | ⟨⟨held', values'⟩, hunwind, h⟩
      · exact .unwinding hclose (unwind_error_iff.mp hunwind)
      · have hunwinds := unwind_ok_iff.mp hunwind
        obtain rfl | ⟨position, rest, rfl⟩ := hunwinds.eq_nil_or_paren
        · match values' with
          | [] =>
            cases h
            exact .empty hclose hunwinds
          | _ :: _ => cases h
        · cases h
          exact .unclosed hclose hunwinds
    · match expecting, hclose with
      | .literal minus, _ =>
        cases h
        exact .sign
      | .operand, hclose => exact absurd trivial hclose
      | .operator, hclose => exact absurd trivial hclose
  · intro h
    cases h with
    | sign => rfl
    | unwinding hclose hfails =>
      rw [finish_of_mayClose hclose]
      exact Logged.outcome_bind_eq_error_iff.mpr (.inl (unwind_error_iff.mpr hfails))
    | unclosed hclose hunwinds =>
      rw [finish_of_mayClose hclose]
      exact Logged.outcome_bind_eq_error_iff.mpr (.inr ⟨_, unwind_ok_iff.mpr hunwinds, rfl⟩)
    | empty hclose hunwinds =>
      rw [finish_of_mayClose hclose]
      exact Logged.outcome_bind_eq_error_iff.mpr (.inr ⟨_, unwind_ok_iff.mpr hunwinds, rfl⟩)

/-! ## Whole runs -/

/-- **What holds at the start and is kept by every step** holds of every state that is reached, and
of the lexemes that lead there. -/
theorem run_induction {motive : List Lexeme → Workspace α → Prop} (hempty : motive [] empty)
    (hstep : ∀ before w lexeme w', motive before w → Steps w lexeme w' →
      motive (before ++ [lexeme]) w')
    {lexemes : List Lexeme} {w : Workspace α} (hrun : (empty.run lexemes).outcome = .ok w) :
    motive lexemes w := by
  have hrest : ∀ after before reached, motive before reached →
      (reached.run after).outcome = .ok w → motive (before ++ after) w := by
    intro after
    induction after with
    | nil =>
      intro before reached hreached hrun
      cases hrun
      rwa [List.append_nil]
    | cons lexeme after ih =>
      intro before reached hreached hrun
      rw [run_cons, Logged.outcome_bind_eq_ok_iff] at hrun
      obtain ⟨next, hnext, hrun⟩ := hrun
      rw [List.append_cons]
      exact ih _ next (hstep before reached lexeme next hreached (step_ok_iff.mp hnext)) hrun
  exact hrest lexemes [] empty hempty hrun

/-- **A run fails at one of its lexemes**, once those before it are taken in. -/
theorem run_error_iff {w : Workspace α} {lexemes : List Lexeme} {cause : EvalError} :
    (w.run lexemes).outcome = .error cause ↔
      ∃ before lexeme after reached, lexemes = before ++ lexeme :: after ∧
        (w.run before).outcome = .ok reached ∧ StepFails reached lexeme cause := by
  constructor
  · intro h
    induction lexemes generalizing w with
    | nil => cases h
    | cons lexeme lexemes ih =>
      rw [run_cons, Logged.outcome_bind_eq_error_iff] at h
      rcases h with hfails | ⟨next, hnext, h⟩
      · exact ⟨[], lexeme, lexemes, w, rfl, rfl, step_error_iff.mp hfails⟩
      · obtain ⟨before, failing, after, reached, rfl, hreached, hfails⟩ := ih h
        refine ⟨lexeme :: before, failing, after, reached, rfl, ?_, hfails⟩
        rw [run_cons, Logged.outcome_bind_of_ok hnext]
        exact hreached
  · rintro ⟨before, lexeme, after, reached, rfl, hreached, hfails⟩
    rw [run_append, Logged.outcome_bind_of_ok hreached, run_cons]
    exact Logged.outcome_bind_of_error (step_error_iff.mpr hfails) _

/-- **Lexemes fail** at one of them, or at the end. -/
theorem evaluateLexemes_error_iff {lexemes : List Lexeme} {cause : EvalError} :
    (evaluateLexemes lexemes : Evaluation α α).outcome = .error cause ↔
      (∃ before lexeme after, ∃ w : Workspace α, lexemes = before ++ lexeme :: after ∧
        (empty.run before).outcome = .ok w ∧ StepFails w lexeme cause) ∨
      ∃ w : Workspace α, (empty.run lexemes).outcome = .ok w ∧ FinishFails w cause := by
  rw [evaluateLexemes, Logged.outcome_bind_eq_error_iff, run_error_iff]
  simp only [finish_error_iff]

end Workspace

/-! ## Whole texts -/

section Texts

variable {α : Type} [Numeric α] {source : String}

/-- The outcome for a text is that for its lexemes. -/
theorem outcome_evaluateAs {lexemes : List Lexeme}
    (h : Lexeme.scan source = .ok lexemes) :
    (evaluateAs α source).outcome = (evaluateLexemes lexemes : Evaluation α α).outcome := by
  rw [evaluateAs, h]
  dsimp only
  rw [Logged.outcome_bind]
  cases (evaluateLexemes lexemes : Evaluation α α).outcome <;> rfl

/-- A text that does not split into lexemes fails for that reason, in every type. -/
theorem outcome_evaluateAs_of_error {cause : ParseError}
    (h : Lexeme.scan source = .error cause) :
    (evaluateAs α source).outcome = .error (.parse cause) := by
  rw [evaluateAs, h]
  rfl

/-- Texts with the same lexemes have the same outcome. -/
theorem outcome_evaluateAs_congr {source' : String} (h : Lexeme.scan source = Lexeme.scan source') :
    (evaluateAs α source).outcome = (evaluateAs α source').outcome := by
  cases hscan : Lexeme.scan source' with
  | error cause =>
    rw [outcome_evaluateAs_of_error hscan, outcome_evaluateAs_of_error (h.trans hscan)]
  | ok lexemes => rw [outcome_evaluateAs hscan, outcome_evaluateAs (h.trans hscan)]

/-- A text has a value if its lexemes have one. -/
theorem evaluateAs_ok_iff {value : α} :
    (evaluateAs α source).outcome = .ok value ↔
      ∃ lexemes, Lexeme.scan source = .ok lexemes ∧
        (evaluateLexemes lexemes : Evaluation α α).outcome = .ok value := by
  cases hscan : Lexeme.scan source with
  | error cause => simp [outcome_evaluateAs_of_error hscan]
  | ok lexemes => simp [outcome_evaluateAs hscan]

end Texts

end DeskCalc
