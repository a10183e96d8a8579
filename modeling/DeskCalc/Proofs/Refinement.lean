import DeskCalc.Proofs.Balance
import DeskCalc.Proofs.Reading

/-! # The evaluator refines the grammar

The evaluator gives a value only to texts that the grammar derives, and does with these what the
recursive evaluation of their trees does.

* **`exists_derives_of_evaluateLexemes_ok`** — lexemes that have a value write a tree.
* **`evaluateAs_refines_evaluate`** — the value, or the first failure, of a text is that of its
  tree; a text without a tree has no value. -/

namespace DeskCalc

variable {α : Type} [Numeric α]

namespace Workspace

/-- **Lexemes that have a value write a tree.** Up to a missing operand the stacks are those of a
beginning; after one, a value is lacking until the end. -/
theorem exists_derives_of_ok {before after : List Lexeme} {w : Workspace α} {value : α}
    (h : Reads before w ∧ Balanced 0 w ∨ ∃ lacking, Balanced (lacking + 1) w)
    (hok : (w.run after >>= finish).outcome = .ok value) :
    ∃ tree, Derives wholeStrength (before ++ after) tree := by
  induction after generalizing before w with
  | nil =>
    rw [run_nil, pure_bind] at hok
    rcases h with ⟨hreads, hbalanced⟩ | ⟨lacking, hbalanced⟩
    · obtain ⟨-, hexpecting, hunwinds⟩ := hbalanced.finish hok
      cases hreads with
      | operand _ _ => cases hexpecting
      | literal _ _ => cases hexpecting
      | operator hcompletes =>
        rw [List.append_nil]
        exact ((hcompletes.mono (Nat.zero_le _)).unwinds hunwinds).exists_derives
    · obtain ⟨hzero, -⟩ := hbalanced.finish hok
      exact absurd hzero (Nat.succ_ne_zero lacking)
  | cons lexeme after ih =>
    rw [run_cons, bind_assoc, Logged.outcome_bind_eq_ok_iff] at hok
    obtain ⟨w', hstep, hok⟩ := hok
    have hsteps := step_ok_iff.mp hstep
    rw [List.append_cons]
    refine ih ?_ hok
    rcases h with ⟨hreads, hbalanced⟩ | ⟨lacking, hbalanced⟩
    · have hbalanced' := hbalanced.step hsteps
      -- the reading goes on, unless an operand is missing here
      by_cases hgap : w.expecting = .operand ∧ lexeme.token = .rightParen
      · rw [gapAt, if_pos hgap] at hbalanced'
        exact .inr ⟨0, hbalanced'⟩
      · rw [gapAt, if_neg hgap] at hbalanced'
        exact .inl ⟨(hreads.step hsteps).resolve_right hgap, hbalanced'⟩
    · -- what is lacking stays so
      have hbalanced' := hbalanced.step hsteps
      rw [Nat.add_right_comm] at hbalanced'
      exact .inr ⟨lacking + w.gapAt lexeme, hbalanced'⟩

end Workspace

/-- Lexemes that have a value write a tree. -/
theorem exists_derives_of_evaluateLexemes_ok {lexemes : List Lexeme} {value : α}
    (h : (evaluateLexemes lexemes : Evaluation α α).outcome = .ok value) :
    ∃ tree, Derives wholeStrength lexemes tree :=
  Workspace.exists_derives_of_ok (.inl ⟨Workspace.reads_empty, Workspace.balanced_empty⟩) h

/-- **The evaluator refines the grammar.** A text that the grammar derives has the outcome of its
tree: the same value, or the first failure of a literal or an operator in the order of the tree. A
text that the grammar does not derive, or that does not split into lexemes, has no value. -/
theorem evaluateAs_refines_evaluate (source : String) :
    (∀ lexemes tree, Lexeme.scan source = .ok lexemes → Derives wholeStrength lexemes tree →
        (evaluateAs α source).outcome = (tree.evaluate : Evaluation α α).outcome) ∧
      ((∀ lexemes tree, Lexeme.scan source = .ok lexemes → ¬ Derives wholeStrength lexemes tree) →
        ∃ cause, (evaluateAs α source).outcome = .error cause) := by
  constructor
  · intro lexemes tree hscan hderives
    rw [outcome_evaluateAs hscan, evaluateLexemes_of_derives hderives]
  · intro hnone
    cases hscan : Lexeme.scan source with
    | error cause => exact ⟨_, outcome_evaluateAs_of_error hscan⟩
    | ok lexemes =>
      rw [outcome_evaluateAs hscan]
      cases houtcome : (evaluateLexemes lexemes : Evaluation α α).outcome with
      | error cause => exact ⟨cause, rfl⟩
      | ok value =>
        obtain ⟨tree, hderives⟩ := exists_derives_of_evaluateLexemes_ok houtcome
        exact absurd hderives (hnone lexemes tree hscan)

end DeskCalc
