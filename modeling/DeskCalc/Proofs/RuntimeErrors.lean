import DeskCalc.Proofs.Stepping

/-! # Runtime errors are those of quotients

An evaluation applies operators to values, and of the operators only quotients can fail, be it by
themselves or in a power with a negative exponent.

* **`Operator.exists_divide_of_apply`** — an operator fails as one of its quotients does.
* **`Workspace.StepFails.exists_apply`**, **`Workspace.FinishFails.exists_apply`** — a step, or the
  end, has the runtime error of an operator that is applied.
* **`exists_divide_of_evaluateAs`** — so has a whole text that of a quotient. -/

namespace DeskCalc

variable {α : Type} [Numeric α] {why : RuntimeError}

/-! ## Operators -/

/-- A power fails only in the quotient of a negative exponent. -/
theorem exists_divide_of_power {base : α} {exponent : Int} (h : power base exponent = .error why) :
    ∃ a b : α, Numeric.divide a b = .error why := by
  unfold power at h
  split at h
  · cases h
  · dsimp only at h
    split at h
    · exact ⟨_, _, h⟩
    · cases h

/-- **An operator fails as a quotient does.** -/
theorem Operator.exists_divide_of_apply {op : Operator} {left right : α}
    (h : op.apply left right = .error why) : ∃ a b : α, Numeric.divide a b = .error why := by
  cases op with
  | add | sub | mul => cases h
  | div => exact ⟨left, right, h⟩
  | pow => exact exists_divide_of_power h

/-! ## Runs -/

namespace Workspace

/-- Unwinding has the runtime error of the operator that cannot be applied. -/
theorem UnwindFails.exists_apply {strength : Nat} {held : List Held} {values : List α}
    (h : UnwindFails strength held values (.runtime why)) :
    ∃ (op : Operator) (left right : α), op.apply left right = .error why := by
  generalize hcause : EvalError.runtime why = cause at h
  induction h with
  | here _ happly =>
    -- an operator that finds too few values is an error of the text, not of a value
    rcases applyOperator_error_iff.mp happly with ⟨right, left, _, _, -, hwhy, rfl⟩ | ⟨-, rfl⟩
    · cases hcause
      exact ⟨_, left, right, hwhy⟩
    · cases hcause
  | later _ _ _ ih => exact ih hcause

/-- **A step has the runtime error of an operator that it applies.** -/
theorem StepFails.exists_apply {w : Workspace α} {lexeme : Lexeme}
    (h : StepFails w lexeme (.runtime why)) :
    ∃ (op : Operator) (left right : α), op.apply left right = .error why := by
  cases h with
  | unwinding hfails => exact hfails.exists_apply
  | closing _ hfails => exact hfails.exists_apply

/-- **The end has the runtime error of an operator that it applies.** -/
theorem FinishFails.exists_apply {w : Workspace α} (h : FinishFails w (.runtime why)) :
    ∃ (op : Operator) (left right : α), op.apply left right = .error why := by
  cases h with
  | unwinding _ hfails => exact hfails.exists_apply

end Workspace

/-! ## Whole texts -/

/-- **A text has the runtime error of a quotient.** -/
theorem exists_divide_of_evaluateAs {source : String}
    (h : (evaluateAs α source).outcome = .error (.runtime why)) :
    ∃ a b : α, Numeric.divide a b = .error why := by
  have happly : ∃ (op : Operator) (left right : α), op.apply left right = .error why := by
    cases hscan : Lexeme.scan source with
    | error cause =>
      rw [outcome_evaluateAs_of_error hscan] at h
      cases h
    | ok lexemes =>
      rw [outcome_evaluateAs hscan] at h
      rcases Workspace.evaluateLexemes_error_iff.mp h with
        ⟨_, _, _, _, -, -, hfails⟩ | ⟨_, -, hfails⟩
      · exact hfails.exists_apply
      · exact hfails.exists_apply
  obtain ⟨op, left, right, hop⟩ := happly
  exact op.exists_divide_of_apply hop

end DeskCalc
