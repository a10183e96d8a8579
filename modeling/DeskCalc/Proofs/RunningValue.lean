import DeskCalc.Proofs.Keystrokes
import DeskCalc.Proofs.Operands

/-! # The running value as an expression

A row of additions, subtractions, multiplications and divisions can be keyed in one after the other,
or written down as one expression, with each operation around those before it. Both come to the same
value, and both fail if the row divides by zero.

* **`Operation`** — an operation on the running value: as a key, and as an operator with its right
  operand.
* **`leftParenthesized`** — the text of a row of operations.
* **`Operation.isOperand_foldl`** — that text applies the operators in the order of the row.
* **`Operation.foldlM_eq_ok`**, **`Operation.foldlM_eq_error`** — and so do the keys.
* **`evaluateAs_leftParenthesized`** — the evaluator agrees with the registers. -/

namespace DeskCalc

/-! ## Operations -/

/-- **An operation on the running value.** -/
inductive Operation (α : Type) where
  /-- Adds a value. -/
  | add (value : α)
  /-- Subtracts a value. -/
  | subtract (value : α)
  /-- Multiplies by a value. -/
  | multiply (value : α)
  /-- Divides by a value. -/
  | divide (value : α)

namespace Operation

variable {α : Type}

/-- The key of an operation. -/
def key : Operation α → Key α
  | add value => .add value
  | subtract value => .subtract value
  | multiply value => .multiply value
  | divide value => .divide value

/-- The operator of an operation. -/
def operator : Operation α → Operator
  | add _ => .add
  | subtract _ => .sub
  | multiply _ => .mul
  | divide _ => .div

/-- The right operand of an operation. -/
def operand : Operation α → α
  | add value => value
  | subtract value => value
  | multiply value => value
  | divide value => value

variable [Numeric α]

/-- The text of an operation whose left operand is given as a text. -/
def extend (text : String) (operation : Operation α) : String :=
  "(" ++ text ++ " " ++ operation.operator.text ++ " " ++ Numeric.format operation.operand ++ ")"

/-- What an evaluation makes of an operation and its left operand. -/
def outcome (left : α) (operation : Operation α) : Except EvalError α :=
  (operation.operator.apply left operation.operand).mapError .runtime

/-! ## Operations as texts -/

/-- The text of an operation is an operator between two operands, in parentheses. -/
theorem toList_extend (text : String) (operation : Operation α) :
    (extend text operation).toList =
      groupChars operation.operator text.toList (Numeric.format operation.operand).toList := by
  simp [extend, groupChars, Operator.text]

/-- **The text of a row of operations applies their operators** in the order of the row, up to the
first that fails. -/
theorem isOperand_foldl (hformat : ∀ a : α, IsOperand (Numeric.format a).toList (.ok a))
    (operations : List (Operation α)) {text : String} {start : Except EvalError α}
    (hstart : IsOperand text.toList start) :
    IsOperand (operations.foldl extend text).toList
      (start.bind fun value => operations.foldlM outcome value) := by
  induction operations generalizing text start with
  | nil =>
    have hend : (start.bind fun value => List.foldlM outcome value []) = start := by
      cases start <;> rfl
    rwa [hend]
  | cons operation operations ih =>
    have hfirst : IsOperand (extend text operation).toList
        (start.bind fun left => outcome left operation) := by
      rw [toList_extend]
      exact hstart.group (hformat operation.operand) operation.operator
    -- the first operation belongs to the text so far, the others to what is written around it
    have hassoc : (start.bind fun value => List.foldlM outcome value (operation :: operations)) =
        (start.bind fun left => outcome left operation).bind
          fun value => operations.foldlM outcome value := by
      cases start <;> rfl
    rw [hassoc]
    exact ih hfirst

/-! ## Operations as keys -/

/-- **The key of an operation applies its operator** to the running value. -/
theorem entry_key (r : Registers α) (operation : Operation α) :
    r.entry operation.key =
      match operation.operator.apply r.current operation.operand with
      | .ok value => ⟨⟨value, r.memory⟩, none, []⟩
      | .error cause => ⟨r, some cause, []⟩ := by
  cases operation with
  | add | subtract | multiply => rfl
  | divide value => exact r.entry_divide value

/-- **Keys that do not fail lead to the value of their operators.** -/
theorem foldlM_eq_ok {r : Registers α} {operations : List (Operation α)}
    (h : ∀ e ∈ r.runKeys (operations.map key), e.failure = none) :
    operations.foldlM outcome r.current = .ok (r.after (operations.map key)).current := by
  induction operations generalizing r with
  | nil => rfl
  | cons operation operations ih =>
    rw [List.map_cons, Registers.runKeys_cons, List.forall_mem_cons] at h
    obtain ⟨hfirst, hrest⟩ := h
    rw [List.map_cons, Registers.after_cons, List.foldlM_cons, outcome]
    have hentry := entry_key r operation
    cases happly : operation.operator.apply r.current operation.operand with
    | error cause =>
      rw [happly] at hentry
      rw [hentry] at hfirst
      cases hfirst
    | ok value =>
      rw [happly] at hentry
      rw [hentry] at hrest ⊢
      exact ih hrest

/-- **Where a key fails, one of the operators does.** -/
theorem foldlM_eq_error {r : Registers α} {operations : List (Operation α)}
    (h : ∃ e ∈ r.runKeys (operations.map key), e.failure ≠ none) :
    ∃ left, ∃ operation ∈ operations, ∃ cause,
      operation.operator.apply left operation.operand = .error cause ∧
        operations.foldlM outcome r.current = .error (.runtime cause) := by
  induction operations generalizing r with
  | nil => simp at h
  | cons operation operations ih =>
    have hentry := entry_key r operation
    rw [List.foldlM_cons, outcome]
    cases happly : operation.operator.apply r.current operation.operand with
    | error cause => exact ⟨r.current, operation, List.mem_cons_self, cause, happly, rfl⟩
    | ok value =>
      -- the first key does not fail, so that a later one does
      rw [happly] at hentry
      rw [List.map_cons, Registers.runKeys_cons, List.exists_mem_cons_iff, hentry] at h
      obtain ⟨left, failing, hmem, cause, hcause, hrest⟩ :=
        ih (h.resolve_left fun hfirst => hfirst rfl)
      exact ⟨left, failing, List.mem_cons_of_mem _ hmem, cause, hcause, hrest⟩

end Operation

/-! ## Integers -/

/-- **The text of a row of operations:** each in parentheses around those before it. -/
def leftParenthesized {α : Type} [Numeric α] (value : α) (operations : List (Operation α)) :
    String :=
  operations.foldl Operation.extend (Numeric.format value)

variable {f : IntFormat}

/-- Of the operations, only divisions of integers fail. -/
theorem Operation.eq_divisionByZero {left : MachineInt f} {operation : Operation (MachineInt f)}
    {cause : RuntimeError}
    (h : operation.operator.apply left operation.operand = .error cause) :
    cause = .divisionByZero := by
  cases operation with
  | add | subtract | multiply => cases h
  | divide value => exact (MachineInt.divide_eq_error_iff.mp h).2

/-- **The evaluator agrees with the registers.** For every integer type, starting value and row of
additions, subtractions, multiplications and divisions: if no key fails, the text of the row has the
running value that the keys lead to; if a key fails, the text divides by zero. -/
theorem evaluateAs_leftParenthesized (value : MachineInt f)
    (operations : List (Operation (MachineInt f))) :
    ((∀ e ∈ (Registers.start value).runKeys (operations.map Operation.key), e.failure = none) →
        (evaluateAs (MachineInt f) (leftParenthesized value operations)).outcome =
          .ok ((Registers.start value).after (operations.map Operation.key)).current) ∧
      ((∃ e ∈ (Registers.start value).runKeys (operations.map Operation.key), e.failure ≠ none) →
        (evaluateAs (MachineInt f) (leftParenthesized value operations)).outcome =
          .error (.runtime .divisionByZero)) := by
  have hoperand := Operation.isOperand_foldl MachineInt.isOperand_format operations
    value.isOperand_format
  have houtcome : (evaluateAs (MachineInt f) (leftParenthesized value operations)).outcome =
      operations.foldlM Operation.outcome value := hoperand.outcome_evaluateAs
  rw [houtcome]
  constructor
  · intro hnone
    exact Operation.foldlM_eq_ok hnone
  · intro hfailure
    obtain ⟨left, operation, -, cause, hcause, hrun⟩ := Operation.foldlM_eq_error hfailure
    obtain rfl := Operation.eq_divisionByZero hcause
    exact hrun

/-- In 8 bits, `-128` divided by `-1` stays `-128`; divided by zero, it is nothing to subtract
from. -/
theorem evaluateAs_leftParenthesized_least :
    (evaluateAs (MachineInt ⟨.w8, true⟩) "((-128 / -1) - -128)").outcome = .ok 0 ∧
      (evaluateAs (MachineInt ⟨.w8, true⟩) "((-128 / 0) - -128)").outcome =
        .error (.runtime .divisionByZero) := by
  let least : MachineInt ⟨.w8, true⟩ := .wrap _ (-128)
  have hwraps : leftParenthesized least [.divide (.wrap _ (-1)), .subtract least] =
      "((-128 / -1) - -128)" := by decide +kernel
  have hfails : leftParenthesized least [.divide 0, .subtract least] =
      "((-128 / 0) - -128)" := by decide +kernel
  rw [← hwraps, ← hfails]
  constructor
  · refine ((evaluateAs_leftParenthesized least _).1 ?_).trans ?_
    · decide +kernel
    · decide +kernel
  · refine (evaluateAs_leftParenthesized least _).2 ⟨_, List.mem_cons_self, ?_⟩
    decide +kernel

end DeskCalc
