import DeskCalc.Proofs.Balance
import DeskCalc.Proofs.Culprits

/-! # Expressions without anything in them

That an expression is empty is found at the very end, when no value is left. An operator that has been
applied leaves a value, and a literal is one, so that nothing but parentheses can have been read by
then; and after a parenthesis that closes, only another one can have followed.

* **`Workspace.Bare`** — no value is there and no operator waits.
* **`Workspace.Steps.bare`** — a state without them comes from one without them.
* **`Workspace.readsParens_of_run`** — such a state has read opening parentheses and then closing ones.
* **`evaluateAs_eq_emptyExpression_iff`** — the texts that are reported as empty. -/

namespace DeskCalc

/-- **A row of parentheses:** first those that open, and then those that close. -/
def parenRow (opened closed : Nat) : List Token :=
  List.replicate opened .leftParen ++ List.replicate closed .rightParen

/-- One more parenthesis opens before any has closed. -/
theorem parenRow_open (opened : Nat) : parenRow opened 0 ++ [.leftParen] = parenRow (opened + 1) 0 := by
  simp [parenRow, List.replicate_succ']

/-- One more parenthesis closes. -/
theorem parenRow_close (opened closed : Nat) :
    parenRow opened closed ++ [.rightParen] = parenRow opened (closed + 1) := by
  rw [parenRow, parenRow, List.replicate_succ', List.append_assoc]

/-- In a row of parentheses there is neither a literal nor an operator. -/
theorem eq_paren_of_mem_parenRow {token : Token} {opened closed : Nat}
    (h : token ∈ parenRow opened closed) : token = .leftParen ∨ token = .rightParen :=
  (List.mem_append.mp h).imp List.eq_of_mem_replicate List.eq_of_mem_replicate

namespace Workspace

variable {α : Type} [Numeric α]

/-! ## States without values and operators -/

/-- **Whether nothing but parentheses has left a trace:** there is no value, and no operator waits. -/
def Bare (w : Workspace α) : Prop :=
  w.values = [] ∧ operatorCount w.held = 0

omit [Numeric α] in
theorem bare_mk {held : List Held} {values : List α} {expecting : Expecting} :
    Bare ⟨held, values, expecting⟩ ↔ values = [] ∧ operatorCount held = 0 :=
  Iff.rfl

/-- An operator that is applied leaves a value, so that unwinding which leaves none has done nothing. -/
theorem Unwinds.eq_of_nil {strength : Nat} {held held' : List Held} {values values' : List α}
    (h : Unwinds strength held values held' values') (hnil : values' = []) :
    held = held' ∧ values = [] := by
  induction h with
  | stop _ => exact ⟨rfl, hnil⟩
  | apply _ _ _ ih => exact absurd (ih hnil).2 (List.cons_ne_nil _ _)

/-- **A bare state comes from a bare state.** What a literal or an operator leaves is never removed
without a trace. -/
theorem Steps.bare {w w' : Workspace α} {lexeme : Lexeme} (h : Steps w lexeme w')
    (hbare : w'.Bare) : w.Bare := by
  cases h with
  | literal _ | negative _ => exact absurd hbare.1 (List.cons_ne_nil _ _)
  | sign => exact hbare
  | opening =>
    rw [bare_mk, operatorCount_paren] at hbare
    exact hbare
  | operator _ =>
    rw [bare_mk, operatorCount_operator] at hbare
    exact absurd hbare.2 (Nat.succ_ne_zero _)
  | closing _ hunwinds =>
    obtain ⟨rfl, hheld⟩ := hbare
    obtain ⟨rfl, rfl⟩ := hunwinds.eq_of_nil rfl
    rw [bare_mk, operatorCount_paren]
    exact ⟨rfl, hheld⟩

/-! ## What they have read -/

/-- **Whether a state has read just these parentheses:** where an operand may start, those that are
open; after an operand, also some that were closed again, each after all that open. A minus may follow
the former. -/
def ReadsParens (tokens : List Token) (w : Workspace α) : Prop :=
  match w.expecting with
  | .operand => tokens = parenRow w.held.length 0
  | .operator => ∃ closed, tokens = parenRow (w.held.length + closed) closed
  | .literal _ => True

/-- **A step between bare states reads one more parenthesis**, or a sign. -/
theorem Steps.readsParens {w w' : Workspace α} {lexeme : Lexeme} {tokens : List Token}
    (h : Steps w lexeme w') (hbare : w'.Bare) (hreads : w.ReadsParens tokens) :
    w'.ReadsParens (tokens ++ [lexeme.token]) := by
  cases h with
  | literal _ | negative _ => exact absurd hbare.1 (List.cons_ne_nil _ _)
  | sign => trivial
  | operator _ =>
    rw [bare_mk, operatorCount_operator] at hbare
    exact absurd hbare.2 (Nat.succ_ne_zero _)
  | opening =>
    obtain rfl : tokens = _ := hreads
    exact parenRow_open _
  | @closing held held' values values' expecting position partner hclose hunwinds =>
    obtain ⟨rfl, hheld⟩ := hbare
    obtain ⟨rfl, rfl⟩ := hunwinds.eq_of_nil rfl
    match expecting, hclose with
    | .operand, _ =>
      obtain rfl : tokens = _ := hreads
      exact ⟨1, parenRow_close _ 0⟩
    | .operator, _ =>
      obtain ⟨closed, rfl⟩ : ∃ closed, tokens = _ := hreads
      refine ⟨closed + 1, ?_⟩
      rw [parenRow_close, List.length_cons, Nat.add_assoc, Nat.add_comm 1]

/-- **A bare state has read parentheses only.** -/
theorem readsParens_of_run {lexemes : List Lexeme} {w : Workspace α}
    (hrun : (empty.run lexemes).outcome = .ok w) (hbare : w.Bare) :
    w.ReadsParens (lexemes.map Lexeme.token) := by
  -- along the run, each state is bare if the next one is
  refine run_induction (motive := fun before reached =>
    reached.Bare → reached.ReadsParens (before.map Lexeme.token)) ?_ ?_ hrun hbare
  · exact fun _ => rfl
  · intro before reached lexeme next ih hstep hnext
    rw [List.map_append]
    exact hstep.readsParens hnext (ih (hstep.bare hnext))

/-! ## The end -/

/-- No step finds the expression empty. -/
theorem StepFails.ne_emptyExpression {w : Workspace α} {lexeme : Lexeme} {cause : ParseError}
    (h : StepFails w lexeme (.parse cause)) : cause ≠ .emptyExpression := by
  cases h with
  | literal hvalue | negative hvalue =>
    obtain rfl := eq_invalidNumber_of_readNumber hvalue
    nofun
  | sign _ | operand _ | operator _ | unmatched _ _ => nofun
  | unwinding hunwind | closing _ hunwind =>
    obtain ⟨_, _, -, rfl⟩ := hunwind.exists_operator
    nofun

/-- **The end finds the expression empty** where nothing at all is left. -/
theorem finishFails_emptyExpression_iff {w : Workspace α} :
    FinishFails w (.parse .emptyExpression) ↔
      w.expecting.MayClose ∧ w.held = [] ∧ w.values = [] := by
  constructor
  · intro h
    cases h with
    | unwinding _ hunwind =>
      obtain ⟨_, _, -, hoperator⟩ := hunwind.exists_operator
      cases hoperator
    | empty hclose hunwinds => exact ⟨hclose, hunwinds.eq_of_nil rfl⟩
  · obtain ⟨held, values, expecting⟩ := w
    rintro ⟨hclose, rfl, rfl⟩
    exact .empty hclose (.stop trivial)

/-! ## Runs over parentheses -/

/-- Opening parentheses wait one above the other. -/
theorem exists_run_leftParens {lexemes : List Lexeme} {n : Nat}
    (h : lexemes.map Lexeme.token = List.replicate n .leftParen) (held : List Held)
    (hheld : operatorCount held = 0) :
    ∃ held', held'.length = held.length + n ∧ operatorCount held' = 0 ∧
      (run (α := α) ⟨held, [], .operand⟩ lexemes).outcome = .ok ⟨held', [], .operand⟩ := by
  induction n generalizing lexemes held with
  | zero =>
    obtain rfl := List.map_eq_nil_iff.mp h
    exact ⟨held, rfl, hheld, rfl⟩
  | succ n ih =>
    obtain ⟨⟨token, position⟩, lexemes, rfl, htoken, hlexemes⟩ := List.map_eq_cons_iff.mp h
    obtain rfl : token = .leftParen := htoken
    obtain ⟨held', hlength, hcount, hrun⟩ := ih hlexemes (.paren position :: held) hheld
    refine ⟨held', ?_, hcount, ?_⟩
    · rw [hlength, List.length_cons, Nat.add_assoc, Nat.add_comm 1]
    · rw [run_cons, Logged.outcome_bind_of_ok (step_ok_iff.mpr .opening)]
      exact hrun

/-- Closing parentheses remove as many that wait. -/
theorem exists_run_rightParens {lexemes : List Lexeme} {n : Nat}
    (h : lexemes.map Lexeme.token = List.replicate n .rightParen) (held : List Held)
    (hheld : operatorCount held = 0) (hlength : held.length = n) (expecting : Expecting)
    (hclose : expecting.MayClose) :
    ∃ expecting' : Expecting, expecting'.MayClose ∧
      (run (α := α) ⟨held, [], expecting⟩ lexemes).outcome = .ok ⟨[], [], expecting'⟩ := by
  induction n generalizing lexemes held expecting with
  | zero =>
    obtain rfl := List.map_eq_nil_iff.mp h
    obtain rfl := List.eq_nil_of_length_eq_zero hlength
    exact ⟨expecting, hclose, rfl⟩
  | succ n ih =>
    obtain ⟨⟨token, position⟩, lexemes, rfl, htoken, hlexemes⟩ := List.map_eq_cons_iff.mp h
    obtain rfl : token = .rightParen := htoken
    match held, hlength with
    | .operator _ _ :: _, _ =>
      rw [operatorCount_operator] at hheld
      exact absurd hheld (Nat.succ_ne_zero _)
    | .paren partner :: held, hlength =>
      have hstep : Steps (α := α) ⟨.paren partner :: held, [], expecting⟩ ⟨.rightParen, position⟩
          ⟨held, [], .operator⟩ := .closing hclose (.stop trivial)
      obtain ⟨expecting', hclose', hrun⟩ :=
        ih hlexemes held hheld (Nat.succ.inj hlength) .operator trivial
      refine ⟨expecting', hclose', ?_⟩
      rw [run_cons, Logged.outcome_bind_of_ok (step_ok_iff.mpr hstep)]
      exact hrun

end Workspace

/-! ## Whole texts -/

variable {α : Type} [Numeric α]

/-- **Lexemes are empty if they are parentheses, of which as many close as have opened.** -/
theorem evaluateLexemes_eq_emptyExpression_iff {lexemes : List Lexeme} :
    (evaluateLexemes lexemes : Evaluation α α).outcome = .error (.parse .emptyExpression) ↔
      ∃ n, lexemes.map Lexeme.token = parenRow n n := by
  rw [Workspace.evaluateLexemes_error_iff]
  constructor
  · rintro (⟨_, _, _, _, -, -, hfails⟩ | ⟨w, hrun, hfails⟩)
    · exact absurd rfl hfails.ne_emptyExpression
    · obtain ⟨hclose, hheld, hvalues⟩ := Workspace.finishFails_emptyExpression_iff.mp hfails
      obtain ⟨held, values, expecting⟩ := w
      subst hheld hvalues
      have hreads := Workspace.readsParens_of_run hrun ⟨rfl, rfl⟩
      match expecting, hclose with
      | .operand, _ => exact ⟨0, hreads⟩
      | .operator, _ =>
        obtain ⟨closed, hclosed⟩ : ∃ closed, _ = _ := hreads
        exact ⟨closed, hclosed.trans (congrArg (parenRow · closed) (Nat.zero_add closed))⟩
  · rintro ⟨n, htokens⟩
    obtain ⟨opens, closes, rfl, hopens, hcloses⟩ := List.map_eq_append_iff.mp htokens
    obtain ⟨held, hlength, hheld, hrun⟩ :=
      Workspace.exists_run_leftParens (α := α) hopens [] rfl
    obtain ⟨expecting, hclose, hrun'⟩ :=
      Workspace.exists_run_rightParens (α := α) hcloses held hheld
        (hlength.trans (Nat.zero_add n)) .operand trivial
    refine .inr ⟨⟨[], [], expecting⟩, ?_,
      Workspace.finishFails_emptyExpression_iff.mpr ⟨hclose, rfl, rfl⟩⟩
    rw [Workspace.run_append, Workspace.empty, Logged.outcome_bind_of_ok hrun]
    exact hrun'

/-- **A text is reported as empty just if it is a row of parentheses**, of which as many close as have
opened before, none among them included. So no text with a literal or an operator is. -/
theorem evaluateAs_eq_emptyExpression_iff (source : String) :
    ((evaluateAs α source).outcome = .error (.parse .emptyExpression) ↔
        ∃ lexemes n, Lexeme.scan source = .ok lexemes ∧
          lexemes.map Lexeme.token =
            List.replicate n .leftParen ++ List.replicate n .rightParen) ∧
      ∀ lexemes, Lexeme.scan source = .ok lexemes →
        (∃ lexeme ∈ lexemes, lexeme.token.isNumber = true ∨ ∃ op, lexeme.token = .operator op) →
        (evaluateAs α source).outcome ≠ .error (.parse .emptyExpression) := by
  have hrow : (evaluateAs α source).outcome = .error (.parse .emptyExpression) ↔
      ∃ lexemes n, Lexeme.scan source = .ok lexemes ∧ lexemes.map Lexeme.token = parenRow n n := by
    cases hscan : Lexeme.scan source with
    | error cause =>
      obtain ⟨_, _, _, -, -, rfl⟩ := Lexeme.exists_of_scan_error hscan
      simp [outcome_evaluateAs_of_error hscan]
    | ok lexemes => simp [outcome_evaluateAs hscan, evaluateLexemes_eq_emptyExpression_iff]
  refine ⟨hrow, fun lexemes hscan => ?_⟩
  rintro ⟨lexeme, hlexeme, htoken⟩ hempty
  obtain ⟨lexemes', n, hscan', htokens⟩ := hrow.mp hempty
  obtain rfl : lexemes' = lexemes := Except.ok.inj (hscan'.symm.trans hscan)
  have hparen := eq_paren_of_mem_parenRow (htokens ▸ List.mem_map_of_mem hlexeme)
  rcases hparen with hparen | hparen <;> simp [hparen, Token.isNumber] at htoken

/-- Two parentheses in two others are empty. An operator between parentheses is not, though there is no
value either: it is the one that lacks its operands. -/
theorem evaluateAs_eq_emptyExpression_of_parens :
    (evaluateAs Integer64 " (( ) )").outcome = .error (.parse .emptyExpression) ∧
      Lexeme.scan "()+()" = .ok [⟨.leftParen, 0⟩, ⟨.rightParen, 1⟩, ⟨.operator .add, 2⟩,
        ⟨.leftParen, 3⟩, ⟨.rightParen, 4⟩] ∧
      (evaluateAs Integer64 "()+()").outcome ≠ .error (.parse .emptyExpression) := by
  have hscan : Lexeme.scan "()+()" = .ok [⟨.leftParen, 0⟩, ⟨.rightParen, 1⟩, ⟨.operator .add, 2⟩,
      ⟨.leftParen, 3⟩, ⟨.rightParen, 4⟩] := by decide +kernel
  refine ⟨(evaluateAs_eq_emptyExpression_iff _).1.mpr ⟨[⟨.leftParen, 1⟩, ⟨.leftParen, 2⟩,
    ⟨.rightParen, 4⟩, ⟨.rightParen, 6⟩], 2, by decide +kernel, rfl⟩, hscan, ?_⟩
  exact (evaluateAs_eq_emptyExpression_iff _).2 _ hscan
    ⟨⟨.operator .add, 2⟩, by decide, .inr ⟨.add, rfl⟩⟩

end DeskCalc
