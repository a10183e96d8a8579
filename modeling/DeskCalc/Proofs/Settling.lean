import DeskCalc.Expression
import DeskCalc.Proofs.Stepping

/-! # Settling the operators that wait

An operator waits until a later lexeme applies it. When it is applied makes no difference, as long
as that lexeme would apply it anyway: this is what lets a row of lexemes be read operand by operand.

* **`Workspace.settle`** — applies now what binds at least as strongly as a given strength.
* **`Workspace.Absorbs`** — what comes next would settle that much by itself.
* **`Workspace.run_bind_of_derives`** — a row of lexemes that writes a tree does to the values just
  what the evaluation of the tree says, events and errors included.
* **`evaluateLexemes_of_derives`** — the same for a whole expression. -/

namespace DeskCalc

namespace Workspace

variable {α β : Type} [Numeric α]

/-! ## Settling -/

/-- **Unwinding in two goes:** what a greater strength has applied already, a smaller one need not
apply again. -/
theorem unwind_bind_unwind {strength level : Nat} (hle : strength ≤ level) (held : List Held)
    (values : List α) :
    (unwind level held values >>= fun waiting => unwind strength waiting.1 waiting.2) =
      unwind strength held values := by
  induction held generalizing values with
  | nil => rw [unwind_nil, pure_bind]
  | cons entry held ih =>
    match entry with
    | .paren position => rw [unwind_paren, pure_bind]
    | .operator op position =>
      by_cases hop : level ≤ op.precedence
      · rw [unwind_of_le hop, unwind_of_le (Nat.le_trans hle hop), bind_assoc]
        congr 1
        funext values
        exact ih values
      · rw [unwind_of_lt (Nat.lt_of_not_le hop), pure_bind]

theorem unwind_bind_unwind_bind {strength level : Nat} (hle : strength ≤ level) (held : List Held)
    (values : List α) (next : List Held × List α → Evaluation α β) :
    (unwind level held values >>= fun waiting => unwind strength waiting.1 waiting.2 >>= next) =
      unwind strength held values >>= next := by
  rw [← bind_assoc, unwind_bind_unwind hle]

/-- **Applies the waiting operators that bind at least as strongly as `strength`**, if the last
operand is complete. -/
def settle (strength : Nat) (w : Workspace α) : Evaluation α (Workspace α) :=
  match w.expecting with
  | .operator => do
      let waiting ← unwind strength w.held w.values
      pure ⟨waiting.1, waiting.2, .operator⟩
  | _ => pure w

/-- **Whether what comes next settles that much by itself**, so that it may be done before it. -/
def Absorbs (strength : Nat) (next : Workspace α → Evaluation α β) : Prop :=
  ∀ w, w.settle strength >>= next = next w

/-- Only after a complete operand is there anything to settle. -/
theorem absorbs_iff {strength : Nat} {next : Workspace α → Evaluation α β} :
    Absorbs strength next ↔ ∀ held values, (unwind strength held values >>= fun waiting =>
      next ⟨waiting.1, waiting.2, .operator⟩) = next ⟨held, values, .operator⟩ := by
  constructor
  · intro h held values
    rw [← h ⟨held, values, .operator⟩]
    simp only [settle, bind_assoc, pure_bind]
  · rintro h ⟨held, values, expecting⟩
    match expecting with
    | .operand => rfl
    | .literal _ => rfl
    | .operator => simp only [settle, bind_assoc, pure_bind, h]

/-- A greater strength settles less, which is absorbed all the more. -/
theorem Absorbs.mono {strength level : Nat} {next : Workspace α → Evaluation α β}
    (h : Absorbs strength next) (hle : strength ≤ level) : Absorbs level next := by
  rw [absorbs_iff] at h ⊢
  intro held values
  rw [← h held values, ← unwind_bind_unwind_bind hle held values]
  simp only [h]

/-- Whatever follows a step that settles, the row of both settles. -/
theorem Absorbs.bind {γ : Type} {strength : Nat} {next : Workspace α → Evaluation α β}
    (h : Absorbs strength next) (last : β → Evaluation α γ) :
    Absorbs strength fun w => next w >>= last := by
  intro w
  rw [← bind_assoc, h w]

/-- An operator first applies the waiting ones that bind as strongly. -/
theorem absorbs_operator (op : Operator) (position : Nat) :
    Absorbs op.precedence fun w : Workspace α => w.step ⟨.operator op, position⟩ := by
  refine absorbs_iff.mpr fun held values => ?_
  simp only [step, stepOperator, pushOperator]
  exact unwind_bind_unwind_bind (Nat.le_refl _) held values _

/-- A closing parenthesis first applies all that waits inside. -/
theorem absorbs_rightParen (position : Nat) :
    Absorbs 0 fun w : Workspace α => w.step ⟨.rightParen, position⟩ := by
  refine absorbs_iff.mpr fun held values => ?_
  simp only [step, stepOperator, closeParen]
  exact unwind_bind_unwind_bind (Nat.le_refl _) held values _

/-- The end first applies all that waits. -/
theorem absorbs_finish : Absorbs 0 (finish : Workspace α → Evaluation α α) := by
  refine absorbs_iff.mpr fun held values => ?_
  simp only [finish]
  exact unwind_bind_unwind_bind (Nat.le_refl _) held values _

/-! ## Reading operands -/

/-- A literal is read just as the tree of one literal is evaluated. -/
theorem pushLiteral_eq (w : Workspace α) (text : String) (position : Nat) :
    w.pushLiteral text position = (do
      let value ← (Expression.literal text position).evaluate
      pure { w with values := value :: w.values, expecting := .operator }) := by
  rw [pushLiteral, Expression.evaluate]
  cases (readNumber text position : Except ParseError α) <;> rfl

/-- **A row of lexemes that writes a tree** puts the value of the tree on the values and leaves what
waits below alone. What comes next must settle the operators of the row, and no operator that waits
below may take the row's first operand away. -/
theorem run_bind_of_derives {strength : Nat} {lexemes : List Lexeme} {tree : Expression}
    (h : Derives strength lexemes tree) (held : List Held) (values : List α)
    (hheld : Stops strength held) {next : Workspace α → Evaluation α β}
    (hnext : Absorbs strength next) :
    (⟨held, values, .operand⟩ : Workspace α).run lexemes >>= next =
      tree.evaluate >>= fun value => next ⟨held, value :: values, .operator⟩ := by
  induction h generalizing held values next with
  | unsigned =>
    simp only [run_cons, step, stepOperand, run_nil, bind_pure]
    rw [pushLiteral_eq, bind_assoc]
    simp only [pure_bind]
  | signed =>
    simp only [run_cons, step, stepOperand, stepLiteral, run_nil, bind_pure, if_true, pure_bind]
    rw [pushLiteral_eq, bind_assoc]
    simp only [pure_bind]
  | @parenthesized lexemes tree left right _ ih =>
    -- the row inside ends where the closing parenthesis settles it
    rw [List.cons_append, run_cons]
    simp only [step, stepOperand, pure_bind]
    rw [run_concat, bind_assoc,
      ih (.paren left :: held) values trivial
        (((absorbs_rightParen right).bind next).mono (Nat.zero_le _))]
    rfl
  | @binary op before after left right position _ _ ihLeft ihRight =>
    rw [run_append, bind_assoc]
    -- the operator settles its left operand
    rw [show (fun w : Workspace α => w.run (⟨.operator op, position⟩ :: after) >>= next) =
        fun w => w.step ⟨.operator op, position⟩ >>= fun w => w.run after >>= next from
      funext fun w => by rw [run_cons, bind_assoc]]
    rw [ihLeft held values hheld ((absorbs_operator op position).bind _), Expression.evaluate,
      bind_assoc]
    congr 1
    funext a
    simp only [step, stepOperator, pushOperator, unwind_of_stops hheld, pure_bind]
    -- what comes next settles the right operand, and then the operator itself
    rw [ihRight _ (a :: values) (Nat.lt_succ_self _) (hnext.mono (Nat.le_succ _)), bind_assoc]
    congr 1
    funext b
    rw [← hnext ⟨.operator op position :: held, b :: a :: values, .operator⟩]
    simp only [settle, unwind_of_le (Nat.le_refl op.precedence), applyOperator_eq, bind_assoc,
      pure_bind, unwind_of_stops hheld]
  | weaken _ ih =>
    exact ih held values (hheld.mono (Nat.le_succ _)) (hnext.mono (Nat.le_succ _))

end Workspace

/-- **A row of lexemes that writes a tree has its value**, with the tree's events and errors. -/
theorem evaluateLexemes_of_derives {α : Type} [Numeric α] {lexemes : List Lexeme}
    {tree : Expression} (h : Derives wholeStrength lexemes tree) :
    evaluateLexemes lexemes = (tree.evaluate : Evaluation α α) := by
  have hrun := Workspace.run_bind_of_derives h [] [] trivial
    ((Workspace.absorbs_finish : Workspace.Absorbs (α := α) 0 _).mono (Nat.zero_le _))
  calc evaluateLexemes lexemes
      = tree.evaluate >>= fun value => Workspace.finish ⟨[], [value], .operator⟩ := hrun
    _ = tree.evaluate >>= pure := rfl
    _ = tree.evaluate := bind_pure _

end DeskCalc
