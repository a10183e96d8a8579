import DeskCalc.Proofs.Stepping

/-! # The balance of values and operators

Every operator takes two values and leaves one, so that the numbers of values and of waiting
operators go together. What throws them out of balance is a parenthesis that closes where an operand
is missing: from then on one value is lacking, for good.

* **`Workspace.Balanced`** — so many values are lacking.
* **`Workspace.Balanced.step`** — a step changes that number just where an operand is missing.
* **`Workspace.Balanced.finish`** — a value at the end means that none is lacking, and that no other
  value is left.
* **`Workspace.length_values_add_gapsIn`** — the numbers of values and operators in every state that
  is reached. -/

namespace DeskCalc

/-- Whether an operator waits here. -/
def Held.isOperator : Held → Bool
  | .operator _ _ => true
  | .paren _ => false

/-- How many values the last operand adds to those of the operators: one, if it is complete. -/
def Expecting.operandCount : Expecting → Nat
  | .operator => 1
  | _ => 0

@[simp] theorem Expecting.operandCount_operand : Expecting.operand.operandCount = 0 :=
  rfl

@[simp] theorem Expecting.operandCount_literal (minus : Nat) :
    (Expecting.literal minus).operandCount = 0 :=
  rfl

@[simp] theorem Expecting.operandCount_operator : Expecting.operator.operandCount = 1 :=
  rfl

namespace Workspace

variable {α : Type} [Numeric α]

/-- How many operators wait. -/
def operatorCount (held : List Held) : Nat :=
  held.countP Held.isOperator

@[simp] theorem operatorCount_nil : operatorCount [] = 0 :=
  rfl

@[simp] theorem operatorCount_operator (op : Operator) (position : Nat) (held : List Held) :
    operatorCount (.operator op position :: held) = operatorCount held + 1 :=
  List.countP_cons_of_pos rfl

@[simp] theorem operatorCount_paren (position : Nat) (held : List Held) :
    operatorCount (.paren position :: held) = operatorCount held :=
  List.countP_cons_of_neg Bool.false_ne_true

/-- **Whether `lacking` values are lacking:** there would be one for each waiting operator, and one
more for a complete operand. -/
def Balanced (lacking : Nat) (w : Workspace α) : Prop :=
  w.values.length + lacking = operatorCount w.held + w.expecting.operandCount

/-- **How many operands are found missing at a lexeme:** one, if a parenthesis closes where an
operand may start. -/
def gapAt (w : Workspace α) (lexeme : Lexeme) : Nat :=
  if w.expecting = .operand ∧ lexeme.token = .rightParen then 1 else 0

/-- Unwinding takes one value for each operator that it applies. -/
theorem Unwinds.length_add {strength : Nat} {held held' : List Held} {values values' : List α}
    (h : Unwinds strength held values held' values') :
    values.length + operatorCount held' = values'.length + operatorCount held := by
  induction h with
  | stop _ => rfl
  | apply _ _ _ ih =>
    rw [List.length_cons] at ih ⊢
    rw [List.length_cons, operatorCount_operator]
    omega

omit [Numeric α] in
theorem balanced_mk {lacking : Nat} {held : List Held} {values : List α} {expecting : Expecting} :
    Balanced lacking ⟨held, values, expecting⟩ ↔
      values.length + lacking = operatorCount held + expecting.operandCount :=
  Iff.rfl

omit [Numeric α] in
/-- Before the first lexeme, nothing is lacking. -/
theorem balanced_empty : Balanced 0 (Workspace.empty : Workspace α) :=
  rfl

/-- **A step changes how many values are lacking just where an operand is missing.** -/
theorem Balanced.step {lacking : Nat} {w w' : Workspace α} {lexeme : Lexeme}
    (h : Balanced lacking w) (hstep : Steps w lexeme w') :
    Balanced (lacking + w.gapAt lexeme) w' := by
  cases hstep with
  | literal _ | sign | negative _ | opening =>
    simp only [balanced_mk, gapAt, Expecting.operandCount_operand, Expecting.operandCount_literal,
      Expecting.operandCount_operator, operatorCount_paren, List.length_cons, reduceCtorEq,
      and_false, and_self, if_false] at h ⊢
    omega
  | operator hunwinds =>
    -- what is applied keeps the balance, and the operator's right operand is still to come
    have hlength := hunwinds.length_add
    simp only [balanced_mk, gapAt, Expecting.operandCount_operator, Expecting.operandCount_operand,
      operatorCount_operator, reduceCtorEq, and_self, if_false] at h ⊢
    omega
  | @closing _ _ _ _ expecting _ _ hclose hunwinds =>
    have hlength := hunwinds.length_add
    rw [operatorCount_paren] at hlength
    match expecting, hclose with
    | .operand, _ =>
      -- the parentheses count as an operand from now on, but left no value
      simp only [balanced_mk, gapAt, Expecting.operandCount_operand,
        Expecting.operandCount_operator, and_self, if_true] at h ⊢
      omega
    | .operator, _ =>
      simp only [balanced_mk, gapAt, Expecting.operandCount_operator, reduceCtorEq, and_true,
        if_false] at h ⊢
      omega

/-- **A value that is left when all is applied** is the only one: none is lacking, and the last
operand is complete. -/
theorem Balanced.of_unwinds {lacking : Nat} {w : Workspace α} {value : α} {rest : List α}
    (h : Balanced lacking w) (hunwinds : Unwinds 0 w.held w.values [] (value :: rest)) :
    lacking = 0 ∧ w.expecting = .operator ∧ rest = [] := by
  have hlength := hunwinds.length_add
  rw [List.length_cons, operatorCount_nil] at hlength
  unfold Balanced at h
  -- only a complete operand can account for the value that is left
  cases hexpecting : w.expecting with
  | operand =>
    rw [hexpecting, Expecting.operandCount_operand] at h
    omega
  | literal minus =>
    rw [hexpecting, Expecting.operandCount_literal] at h
    omega
  | operator =>
    rw [hexpecting, Expecting.operandCount_operator] at h
    exact ⟨by omega, rfl, List.length_eq_zero_iff.mp (by omega)⟩

/-- **A value at the end means that none is lacking**, that the last operand is complete, and that
no other value is left. -/
theorem Balanced.finish {lacking : Nat} {w : Workspace α} {value : α} (h : Balanced lacking w)
    (hfinish : w.finish.outcome = .ok value) :
    lacking = 0 ∧ w.expecting = .operator ∧ Unwinds 0 w.held w.values [] [value] := by
  obtain ⟨-, rest, hunwinds⟩ := finish_ok_iff.mp hfinish
  obtain ⟨hlacking, hexpecting, rfl⟩ := h.of_unwinds hunwinds
  exact ⟨hlacking, hexpecting, hunwinds⟩

/-! ## Whole runs -/

/-- **How many operands are found missing on the way** from `w` through a row of lexemes: one for
each parenthesis that is closed where an operand may start. -/
def gapsIn (w : Workspace α) : List Lexeme → Nat
  | [] => 0
  | lexeme :: lexemes =>
      match (w.step lexeme).outcome with
      | .ok next => w.gapAt lexeme + next.gapsIn lexemes
      | .error _ => 0

/-- A step that is taken counts its own gap and those after it. -/
theorem gapsIn_cons {w next : Workspace α} {lexeme : Lexeme}
    (h : (w.step lexeme).outcome = .ok next) (lexemes : List Lexeme) :
    w.gapsIn (lexeme :: lexemes) = w.gapAt lexeme + next.gapsIn lexemes := by
  rw [gapsIn, h]

/-- **A run adds to what is lacking just the gaps on its way.** -/
theorem Balanced.run {lacking : Nat} {w w' : Workspace α} {lexemes : List Lexeme}
    (h : Balanced lacking w) (hrun : (w.run lexemes).outcome = .ok w') :
    Balanced (lacking + w.gapsIn lexemes) w' := by
  induction lexemes generalizing lacking w with
  | nil =>
    cases hrun
    exact h
  | cons lexeme lexemes ih =>
    rw [run_cons, Logged.outcome_bind_eq_ok_iff] at hrun
    obtain ⟨next, hstep, hrun⟩ := hrun
    have hnext := h.step (step_ok_iff.mp hstep)
    rw [gapsIn_cons hstep, ← Nat.add_assoc]
    exact ih hnext hrun

/-- **Values and operators stay in balance.** In every state that a run reaches, there is a value
for each waiting operator, and one more after a complete operand, up to one that is lacking for each
gap so far. So at most one value is left when all that waits is applied, and a text that has a value
leads without a gap to a complete operand. -/
theorem length_values_add_gapsIn :
    (∀ lexemes, ∀ w : Workspace α, (Workspace.empty.run lexemes).outcome = .ok w →
      w.values.length + (Workspace.empty : Workspace α).gapsIn lexemes =
          operatorCount w.held + w.expecting.operandCount ∧
        ∀ value rest, (unwind 0 w.held w.values).outcome = .ok ([], value :: rest) → rest = []) ∧
      ∀ source, ∀ value : α, (evaluateAs α source).outcome = .ok value →
        ∃ lexemes, ∃ w : Workspace α, Lexeme.scan source = .ok lexemes ∧
          (Workspace.empty.run lexemes).outcome = .ok w ∧
          (Workspace.empty : Workspace α).gapsIn lexemes = 0 ∧ w.expecting = .operator := by
  -- the gaps so far are all that is lacking
  have hbalanced : ∀ lexemes, ∀ w : Workspace α, (Workspace.empty.run lexemes).outcome = .ok w →
      Balanced ((Workspace.empty : Workspace α).gapsIn lexemes) w := fun lexemes w hrun => by
    have h := balanced_empty.run hrun
    rwa [Nat.zero_add] at h
  refine ⟨fun lexemes w hrun => ⟨hbalanced lexemes w hrun, fun value rest hunwind => ?_⟩,
    fun source value hvalue => ?_⟩
  · exact ((hbalanced lexemes w hrun).of_unwinds (unwind_ok_iff.mp hunwind)).2.2
  · obtain ⟨lexemes, hscan, hvalue⟩ := evaluateAs_ok_iff.mp hvalue
    obtain ⟨w, hrun, hfinish⟩ := Logged.outcome_bind_eq_ok_iff.mp hvalue
    obtain ⟨hgaps, hexpecting, -⟩ := (hbalanced lexemes w hrun).finish hfinish
    exact ⟨lexemes, w, hscan, hrun, hgaps, hexpecting⟩

end Workspace

end DeskCalc
