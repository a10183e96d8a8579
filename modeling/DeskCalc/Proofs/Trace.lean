import DeskCalc.Integer
import DeskCalc.Proofs.Refinement
import Mathlib.Data.List.Basic

/-! # The trace of an evaluation

Operators are applied from three places: when the next operator comes, when a parenthesis closes and
at the end. What they log is one walk through the tree of the expression all the same: operands
before their operator, the left one first.

* **`Expression.postorder`** — the parts of a tree in this order.
* **`Recorded`** — the records of parts that have values.
* **`binaryOperators`** — the operators of a text that are not signs; each is recorded once.
* **`recorded_of_evaluate`**, **`exists_recorded_of_error`** — the log of a tree that has a value,
  and of one that fails.
* **`level_eq_trace_of_error`** — no failing evaluation logs a result.
* **`log_evaluateAs_eq_postorder`** — all of it, for whole texts. -/

namespace DeskCalc

/-! ## Trees in the order of evaluation -/

namespace Expression

/-- **The parts of a tree in the order in which they get their values:** the operands of an operator
come before it, the left one first. -/
def postorder : Expression → List Expression
  | literal text position => [literal text position]
  | binary op left right => left.postorder ++ right.postorder ++ [binary op left right]

/-- The operator of a tree, unless the tree is a literal. -/
def operator? : Expression → Option Operator
  | literal _ _ => none
  | binary op _ _ => some op

/-- The operators of a tree in the order in which they are written. -/
def operators : Expression → List Operator
  | literal _ _ => []
  | binary op left right => left.operators ++ op :: right.operators

/-- The order of evaluation has the operators of the tree, each as often as it is written. -/
theorem perm_operators (tree : Expression) :
    (tree.postorder.filterMap operator?).Perm tree.operators := by
  induction tree with
  | literal text position => exact .refl _
  | binary op left right ihLeft ihRight =>
    have hparts : (binary op left right).postorder.filterMap operator? =
        left.postorder.filterMap operator? ++ (right.postorder.filterMap operator? ++ [op]) := by
      simp [postorder, operator?, List.filterMap_append]
    rw [hparts, operators]
    exact ihLeft.append ((List.perm_append_singleton op _).trans (ihRight.cons op))

end Expression

/-- **The binary operators of a row of lexemes**, in the order in which they are written: those that
stand after an operand. Where an operand may start, a minus is a sign. -/
def binaryOperators (afterOperand : Bool) : List Lexeme → List Operator
  | [] => []
  | ⟨.number _, _⟩ :: lexemes => binaryOperators true lexemes
  | ⟨.rightParen, _⟩ :: lexemes => binaryOperators true lexemes
  | ⟨.leftParen, _⟩ :: lexemes => binaryOperators false lexemes
  | ⟨.operator op, _⟩ :: lexemes =>
      if afterOperand then op :: binaryOperators false lexemes else binaryOperators false lexemes

/-- **A row that writes a tree has the tree's operators**, and is an operand for what follows. -/
theorem binaryOperators_append {strength : Nat} {lexemes : List Lexeme} {tree : Expression}
    (h : Derives strength lexemes tree) (after : List Lexeme) :
    binaryOperators false (lexemes ++ after) = tree.operators ++ binaryOperators true after := by
  induction h generalizing after with
  | unsigned => rfl
  | signed => rfl
  | @parenthesized lexemes tree left right _ ih =>
    have hinside := ih (⟨.rightParen, right⟩ :: after)
    simpa [binaryOperators] using hinside
  | @binary op lexemes operand left right position _ _ ihLeft ihRight =>
    rw [List.append_assoc, ihLeft, List.cons_append, binaryOperators, if_pos rfl, ihRight,
      Expression.operators]
    simp
  | weaken _ ih => exact ih after

/-! ## Records of what is evaluated -/

section Records

variable {α : Type} [Numeric α]

variable (α) in
/-- **The records of parts that have values:** one for each operator, in the same order, with the
texts of the values of its own left operand, of its right operand and of itself. -/
inductive Recorded : List Expression → List LogRecord → Prop
  /-- Nothing is evaluated. -/
  | nil : Recorded [] []
  /-- A literal has a value, and no record. -/
  | literal {text : String} {position : Nat} {value : α} {parts : List Expression}
      {records : List LogRecord} :
      (Expression.literal text position).evaluate.outcome = .ok value →
      Recorded parts records →
      Recorded (.literal text position :: parts) records
  /-- An operator has a value, as both of its operands have. -/
  | operator {op : Operator} {left right : Expression} {a b value : α} {parts : List Expression}
      {records : List LogRecord} :
      left.evaluate.outcome = .ok a → right.evaluate.outcome = .ok b →
      (Expression.binary op left right).evaluate.outcome = .ok value →
      Recorded parts records →
      Recorded (.binary op left right :: parts)
        (⟨.trace, "applied operator",
          [("left", Numeric.format a), ("op", op.text), ("right", Numeric.format b),
            ("value", Numeric.format value)]⟩ :: records)

/-- Records of one row of parts after the other. -/
theorem Recorded.append {before after : List Expression} {first second : List LogRecord}
    (hbefore : Recorded α before first) (hafter : Recorded α after second) :
    Recorded α (before ++ after) (first ++ second) := by
  induction hbefore with
  | nil => exact hafter
  | literal hvalue _ ih => exact .literal hvalue ih
  | operator ha hb hvalue _ ih => exact .operator ha hb hvalue ih

/-- The records of a log. -/
def recordsOf (log : List (EvaluationEvent α)) : List LogRecord :=
  log.map EvaluationEvent.toRecord

theorem recordsOf_append (first second : List (EvaluationEvent α)) :
    recordsOf (first ++ second) = recordsOf first ++ recordsOf second :=
  List.map_append

/-! ## The log of a tree -/

variable {op : Operator} {left right : Expression} {a b : α}

/-- An operator logs itself after its operands, if it has a value. -/
theorem Expression.log_binary_of_ok {value : α} (ha : left.evaluate.outcome = .ok a)
    (hb : right.evaluate.outcome = .ok b)
    (h : (Expression.binary op left right).evaluate.outcome = .ok value) :
    (Expression.binary op left right).evaluate.log =
      left.evaluate.log ++ right.evaluate.log ++ [.applied a op b value] := by
  rw [Expression.outcome_binary ha hb] at h
  rw [Expression.evaluate, Logged.log_bind_of_ok ha, Logged.log_bind_of_ok hb, List.append_assoc]
  cases hop : op.apply a b with
  | error cause =>
    rw [hop] at h
    cases h
  | ok result =>
    rw [hop] at h
    cases h
    rfl

/-- An operator without a value adds nothing to what its operands log. -/
theorem Expression.log_binary_of_error {cause : EvalError} (ha : left.evaluate.outcome = .ok a)
    (hb : right.evaluate.outcome = .ok b)
    (h : ((Expression.binary op left right).evaluate : Evaluation α α).outcome = .error cause) :
    ((Expression.binary op left right).evaluate : Evaluation α α).log =
      left.evaluate.log ++ right.evaluate.log := by
  rw [Expression.outcome_binary ha hb] at h
  rw [Expression.evaluate, Logged.log_bind_of_ok ha, Logged.log_bind_of_ok hb]
  cases hop : op.apply a b with
  | error why => exact congrArg (left.evaluate.log ++ ·) (List.append_nil _)
  | ok result =>
    rw [hop] at h
    cases h

/-- **A tree that has a value logs its operators** in the order of evaluation. -/
theorem recorded_of_evaluate {tree : Expression} {value : α}
    (h : tree.evaluate.outcome = .ok value) :
    Recorded α tree.postorder (recordsOf (tree.evaluate : Evaluation α α).log) := by
  induction tree generalizing value with
  | literal text position => exact .literal h .nil
  | binary op left right ihLeft ihRight =>
    -- both operands have values, and so has the operator
    obtain ⟨a, ha, hrest⟩ := Logged.outcome_bind_eq_ok_iff.mp h
    obtain ⟨b, hb, -⟩ := Logged.outcome_bind_eq_ok_iff.mp hrest
    rw [Expression.log_binary_of_ok ha hb h, recordsOf_append, recordsOf_append]
    exact ((ihLeft ha).append (ihRight hb)).append (.operator ha hb h .nil)

/-- **A tree that fails logs the operators up to its failure:** some part of it is the first in the
order of evaluation that has no value, and those before it are recorded. -/
theorem exists_recorded_of_error {tree : Expression} {cause : EvalError}
    (h : (tree.evaluate : Evaluation α α).outcome = .error cause) :
    ∃ before failing after, tree.postorder = before ++ failing :: after ∧
      (failing.evaluate : Evaluation α α).outcome = .error cause ∧
      Recorded α before (recordsOf (tree.evaluate : Evaluation α α).log) := by
  induction tree with
  | literal text position => exact ⟨[], _, [], rfl, h, .nil⟩
  | binary op left right ihLeft ihRight =>
    rcases Logged.outcome_bind_eq_error_iff.mp h with hleft | ⟨a, ha, hrest⟩
    · -- the left operand fails, and nothing comes after it
      obtain ⟨before, failing, after, hparts, hfailing, hrecorded⟩ := ihLeft hleft
      refine ⟨before, failing, after ++ right.postorder ++ [.binary op left right], ?_, hfailing,
        ?_⟩
      · simp [Expression.postorder, hparts]
      · rwa [Expression.evaluate, Logged.log_bind_of_error hleft]
    · rcases Logged.outcome_bind_eq_error_iff.mp hrest with hright | ⟨b, hb, -⟩
      · -- all of the left operand comes before the right one, which fails
        obtain ⟨before, failing, after, hparts, hfailing, hrecorded⟩ := ihRight hright
        refine ⟨left.postorder ++ before, failing, after ++ [.binary op left right], ?_, hfailing,
          ?_⟩
        · simp [Expression.postorder, hparts]
        · rw [Expression.evaluate, Logged.log_bind_of_ok ha, Logged.log_bind_of_error hright,
            recordsOf_append]
          exact (recorded_of_evaluate ha).append hrecorded
      · -- both operands have values, so that it is the operator that fails
        refine ⟨left.postorder ++ right.postorder, .binary op left right, [], rfl, h, ?_⟩
        rw [Expression.log_binary_of_error ha hb h, recordsOf_append]
        exact (recorded_of_evaluate ha).append (recorded_of_evaluate hb)

/-! ## The log of any run -/

namespace Workspace

/-- Applying an operator logs nothing but that. -/
theorem level_applyOperator (op : Operator) (position : Nat) (values : List α) :
    ∀ event ∈ (applyOperator op position values).log, event.toRecord.level = .trace := by
  match values with
  | [] => simp [applyOperator]
  | [_] => simp [applyOperator]
  | right :: left :: rest =>
    rw [applyOperator_eq]
    cases op.apply left right with
    | error cause => exact List.forall_mem_nil _
    | ok value => exact List.forall_mem_singleton.mpr rfl

/-- Unwinding logs applied operators only. -/
theorem level_unwind (strength : Nat) (held : List Held) (values : List α) :
    ∀ event ∈ (unwind strength held values).log, event.toRecord.level = .trace := by
  induction held generalizing values with
  | nil =>
    rw [unwind_nil]
    exact List.forall_mem_nil _
  | cons entry held ih =>
    match entry with
    | .paren position =>
      rw [unwind_paren]
      exact List.forall_mem_nil _
    | .operator op position =>
      by_cases hop : strength ≤ op.precedence
      · rw [unwind_of_le hop]
        exact Logged.forall_mem_log_bind (level_applyOperator op position values) ih
      · rw [unwind_of_lt (Nat.lt_of_not_le hop)]
        exact List.forall_mem_nil _

/-- Closing a parenthesis logs applied operators only. -/
theorem level_closeParen (w : Workspace α) (position : Nat) :
    ∀ event ∈ (w.closeParen position).log, event.toRecord.level = .trace := by
  refine Logged.forall_mem_log_bind (level_unwind 0 w.held w.values) fun waiting => ?_
  obtain ⟨_ | ⟨entry, held⟩, values⟩ := waiting <;> exact List.forall_mem_nil _

/-- **A step logs applied operators only.** -/
theorem level_step (w : Workspace α) (lexeme : Lexeme) :
    ∀ event ∈ (w.step lexeme).log, event.toRecord.level = .trace := by
  have hliteral : ∀ text position, ∀ event ∈ (w.pushLiteral text position).log,
      event.toRecord.level = .trace := by
    intro text position
    rw [pushLiteral]
    cases (readNumber text position : Except ParseError α) <;> exact List.forall_mem_nil _
  obtain ⟨token, position⟩ := lexeme
  unfold step
  -- only an operator and a closing parenthesis unwind anything
  cases w.expecting with
  | literal minus =>
    cases token with
    | number text => exact hliteral _ _
    | operator _ | leftParen | rightParen => exact List.forall_mem_nil _
  | operand =>
    cases token with
    | number text => exact hliteral _ _
    | operator op =>
      by_cases hop : op = .sub
      · simp [stepOperand, hop]
      · simp [stepOperand, hop]
    | leftParen => exact List.forall_mem_nil _
    | rightParen => exact level_closeParen w position
  | operator =>
    cases token with
    | number _ | leftParen => exact List.forall_mem_nil _
    | operator op =>
      exact Logged.forall_mem_log_bind (level_unwind op.precedence w.held w.values)
        fun _ => List.forall_mem_nil _
    | rightParen => exact level_closeParen w position

/-- **A run logs applied operators only.** -/
theorem level_run (w : Workspace α) (lexemes : List Lexeme) :
    ∀ event ∈ (w.run lexemes).log, event.toRecord.level = .trace := by
  induction lexemes generalizing w with
  | nil => exact List.forall_mem_nil _
  | cons lexeme lexemes ih => exact Logged.forall_mem_log_bind (level_step w lexeme) ih

/-- The end logs applied operators only. -/
theorem level_finish (w : Workspace α) :
    ∀ event ∈ w.finish.log, event.toRecord.level = .trace := by
  by_cases hclose : w.expecting.MayClose
  · rw [finish_of_mayClose hclose]
    refine Logged.forall_mem_log_bind (level_unwind 0 w.held w.values) fun waiting => ?_
    obtain ⟨_ | ⟨entry, held⟩, _ | ⟨value, values⟩⟩ := waiting <;> exact List.forall_mem_nil _
  · obtain ⟨held, values, expecting⟩ := w
    match expecting, hclose with
    | .literal minus, _ => exact List.forall_mem_nil _
    | .operand, hclose => exact absurd trivial hclose
    | .operator, hclose => exact absurd trivial hclose

end Workspace

/-- What a row of lexemes logs are applied operators. -/
theorem level_evaluateLexemes (lexemes : List Lexeme) :
    ∀ event ∈ (evaluateLexemes lexemes : Evaluation α α).log, event.toRecord.level = .trace :=
  Logged.forall_mem_log_bind (Workspace.level_run _ lexemes) Workspace.level_finish

/-! ## Whole texts -/

variable {source : String}

/-- A text with a value logs what its lexemes log, and then the value. -/
theorem log_evaluateAs_of_ok {lexemes : List Lexeme} {value : α}
    (hscan : Lexeme.scan source = .ok lexemes)
    (h : (evaluateLexemes lexemes : Evaluation α α).outcome = .ok value) :
    (evaluateAs α source).log =
      (evaluateLexemes lexemes : Evaluation α α).log ++ [.evaluated source value] := by
  rw [evaluateAs, hscan]
  dsimp only
  rw [Logged.log_bind_of_ok h]
  rfl

/-- A text that fails logs what its lexemes log. -/
theorem log_evaluateAs_of_error {lexemes : List Lexeme} {cause : EvalError}
    (hscan : Lexeme.scan source = .ok lexemes)
    (h : (evaluateLexemes lexemes : Evaluation α α).outcome = .error cause) :
    (evaluateAs α source).log = (evaluateLexemes lexemes : Evaluation α α).log := by
  rw [evaluateAs, hscan]
  dsimp only
  rw [Logged.log_bind_of_error h]

/-- A text that does not split into lexemes logs nothing. -/
theorem log_evaluateAs_of_scan_error {cause : ParseError}
    (hscan : Lexeme.scan source = .error cause) : (evaluateAs α source).log = [] := by
  rw [evaluateAs, hscan]
  rfl

/-- No evaluation that fails logs a result. -/
theorem level_eq_trace_of_error {cause : EvalError}
    (h : (evaluateAs α source).outcome = .error cause) :
    ∀ event ∈ (evaluateAs α source).log, event.toRecord.level = .trace := by
  cases hscan : Lexeme.scan source with
  | error why =>
    rw [log_evaluateAs_of_scan_error hscan]
    exact List.forall_mem_nil _
  | ok lexemes =>
    rw [outcome_evaluateAs hscan] at h
    rw [log_evaluateAs_of_error hscan h]
    exact level_evaluateLexemes lexemes

end Records

/-- **The trace of an evaluation.** A text with a tree and a value logs one record for each of its
binary operators, in the order in which the tree is evaluated, and then its own text with the value.
A text with a tree that fails logs the operators that have values before the part that fails, and
nothing else. A text that does not split into lexemes logs nothing, and no text that fails logs a
result. -/
theorem log_evaluateAs_eq_postorder (α : Type) [Numeric α] (source : String) :
    (∀ lexemes tree value, Lexeme.scan source = .ok lexemes → Derives wholeStrength lexemes tree →
        (evaluateAs α source).outcome = .ok value →
        (tree.postorder.filterMap Expression.operator?).Perm (binaryOperators false lexemes) ∧
          ∃ records, Recorded α tree.postorder records ∧
            (evaluateAs α source).log.map EvaluationEvent.toRecord = records ++
              [⟨.debug, "evaluated expression",
                [("expression", source), ("result", Numeric.format value)]⟩]) ∧
      (∀ lexemes tree cause, Lexeme.scan source = .ok lexemes → Derives wholeStrength lexemes tree →
        (evaluateAs α source).outcome = .error cause →
        ∃ before failing after, tree.postorder = before ++ failing :: after ∧
          (failing.evaluate : Evaluation α α).outcome = .error cause ∧
          Recorded α before ((evaluateAs α source).log.map EvaluationEvent.toRecord)) ∧
      (∀ cause, Lexeme.scan source = .error cause → (evaluateAs α source).log = []) ∧
      ∀ cause, (evaluateAs α source).outcome = .error cause →
        ∀ event ∈ (evaluateAs α source).log, event.toRecord.level = .trace := by
  refine ⟨fun lexemes tree value hscan hderives hvalue => ?_,
    fun lexemes tree cause hscan hderives hcause => ?_,
    fun cause hscan => log_evaluateAs_of_scan_error hscan,
    fun cause hcause => level_eq_trace_of_error hcause⟩
  · rw [outcome_evaluateAs hscan] at hvalue
    refine ⟨?_, recordsOf (tree.evaluate : Evaluation α α).log, ?_, ?_⟩
    · have hoperators := binaryOperators_append hderives []
      simp only [List.append_nil, binaryOperators] at hoperators
      rw [hoperators]
      exact tree.perm_operators
    · rw [evaluateLexemes_of_derives hderives] at hvalue
      exact recorded_of_evaluate hvalue
    · rw [log_evaluateAs_of_ok hscan hvalue, evaluateLexemes_of_derives hderives]
      exact recordsOf_append _ [.evaluated source value]
  · rw [outcome_evaluateAs hscan] at hcause
    rw [log_evaluateAs_of_error hscan hcause]
    rw [evaluateLexemes_of_derives hderives] at hcause ⊢
    exact exists_recorded_of_error hcause

/-- In `1-(2-3*4)` the product comes first, then the difference in the parentheses. -/
example : (evaluateAs Integer64 "1-(2-3*4)").log =
    [.applied (.wrap _ 3) .mul (.wrap _ 4) (.wrap _ 12),
      .applied (.wrap _ 2) .sub (.wrap _ 12) (.wrap _ (-10)),
      .applied (.wrap _ 1) .sub (.wrap _ (-10)) (.wrap _ 11),
      .evaluated "1-(2-3*4)" (.wrap _ 11)] := by
  decide +kernel

end DeskCalc
