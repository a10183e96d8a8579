import DeskCalc.Proofs.Culprits
import DeskCalc.Proofs.Trace

/-! # The layout of a text

The places of the lexemes are kept on the stacks and written into errors, but nothing is decided by
them. So two texts with the same tokens are evaluated in the same way, wherever their tokens stand,
and an error points at the same token in both.

* **`Logged.rename`** — a computation with other names for its values and its errors.
* **`Workspace.step_move`**, **`Workspace.run_move`** — what is taken in from other places leads to
  the same state, up to the places in it.
* **`indexed`** — a row of tokens, each one placed at its index.
* **`SameOutcome`**, **`sameOutcome_of_tokens`** — the outcomes of two rows that differ in their
  places only.
* **`evaluateAs_sameOutcome`** — all of it, for whole texts. -/

namespace DeskCalc

/-! ## Computations under other names -/

namespace Logged

variable {ω ε ε' α β γ δ : Type} {f : ε → ε'} {g : α → β}

/-- **A computation with another name for each error and for each value.** Its log stays. -/
def rename (f : ε → ε') (g : α → β) (first : Logged ω ε α) : Logged ω ε' β :=
  ⟨first.log, (first.outcome.map g).mapError f⟩

@[simp] theorem rename_pure (value : α) :
    (pure value : Logged ω ε α).rename f g = pure (g value) :=
  rfl

@[simp] theorem rename_fail (cause : ε) :
    (fail cause : Logged ω ε α).rename f g = fail (f cause) :=
  rfl

/-- A row of two computations is renamed piece by piece. -/
theorem rename_bind {first : Logged ω ε α} {next : α → Logged ω ε γ} {next' : β → Logged ω ε' δ}
    {h : γ → δ} (hnext : ∀ value, next' (g value) = (next value).rename f h) :
    first.rename f g >>= next' = (first >>= next).rename f h := by
  obtain ⟨log, cause | value⟩ := first
  · rfl
  · change Logged.bind ⟨log, .ok (g value)⟩ next' = (Logged.bind ⟨log, .ok value⟩ next).rename f h
    simp only [Logged.bind, hnext, rename]

end Logged

/-! ## Other places -/

/-- The error, at another place. -/
def ParseError.move (place : Nat → Nat) : ParseError → ParseError
  | invalidNumber literal position => invalidNumber literal (place position)
  | invalidCharacter character position => invalidCharacter character (place position)
  | mismatchedParenthesis position => mismatchedParenthesis (place position)
  | emptyExpression => emptyExpression
  | danglingMinus position => danglingMinus (place position)
  | missingOperand symbol position => missingOperand symbol (place position)
  | missingOperator position => missingOperator (place position)

/-- The error, at another place if it has one. -/
def EvalError.move (place : Nat → Nat) : EvalError → EvalError
  | parse cause => parse (cause.move place)
  | runtime why => runtime why

/-- The lexeme, at another place. -/
def Lexeme.move (place : Nat → Nat) (lexeme : Lexeme) : Lexeme :=
  ⟨lexeme.token, place lexeme.position⟩

/-- What waits, from another place. -/
def Held.move (place : Nat → Nat) : Held → Held
  | operator op position => operator op (place position)
  | paren position => paren (place position)

/-- What may come next, after a sign at another place. -/
def Expecting.move (place : Nat → Nat) : Expecting → Expecting
  | operand => operand
  | literal minus => literal (place minus)
  | operator => operator

variable {α : Type} {place : Nat → Nat}

/-- **The state, with all that it keeps from other places.** -/
def Workspace.move (place : Nat → Nat) (w : Workspace α) : Workspace α :=
  ⟨w.held.map (Held.move place), w.values, w.expecting.move place⟩

/-- An error that is moved twice is moved to the last place. -/
theorem ParseError.move_move (place' : Nat → Nat) (cause : ParseError) :
    (cause.move place).move place' = cause.move (place' ∘ place) := by
  cases cause <;> rfl

/-- Only the error's own place counts. -/
theorem ParseError.move_congr {place' : Nat → Nat} {cause : ParseError}
    (h : ∀ position ∈ cause.position?, place position = place' position) :
    cause.move place = cause.move place' := by
  cases cause with
  | emptyExpression => rfl
  | _ => simp only [move, h _ rfl]

theorem ParseError.position?_move (cause : ParseError) :
    (cause.move place).position? = cause.position?.map place := by
  cases cause <;> rfl

/-! ## Evaluation from other places -/

section Evaluation

variable [Numeric α]

/-- A literal has the same value at every place. -/
theorem readNumber_move (literal : String) (position : Nat) :
    (readNumber literal (place position) : Except ParseError α) =
      (readNumber literal position).mapError (ParseError.move place) := by
  unfold readNumber
  cases (Numeral.ofText? literal).bind (Numeric.ofNumeral? (α := α)) <;> rfl

namespace Workspace

variable {w : Workspace α}

/-- An operator is applied in the same way from every place. -/
theorem applyOperator_move (op : Operator) (position : Nat) (values : List α) :
    applyOperator op (place position) values =
      (applyOperator op position values).rename (EvalError.move place) id := by
  match values with
  | [] => rfl
  | [_] => rfl
  | right :: left :: values =>
    simp only [applyOperator]
    cases op.apply left right <;> rfl

/-- Operators that wait from other places are applied in the same order. -/
theorem unwind_move (strength : Nat) (held : List Held) (values : List α) :
    unwind strength (held.map (Held.move place)) values =
      (unwind strength held values).rename (EvalError.move place)
        (Prod.map (List.map (Held.move place)) id) := by
  induction held generalizing values with
  | nil => simp
  | cons waiting held ih =>
    cases waiting with
    | paren position => simp [Held.move]
    | operator op position =>
      simp only [List.map_cons, Held.move]
      rcases Nat.lt_or_ge op.precedence strength with hlt | hle
      · simp [unwind_of_lt hlt, Held.move]
      · rw [unwind_of_le hle, unwind_of_le hle, applyOperator_move]
        exact Logged.rename_bind ih

/-- A literal is read in the same way at every place. -/
theorem pushLiteral_move (literal : String) (position : Nat) :
    (w.move place).pushLiteral literal (place position) =
      (w.pushLiteral literal position).rename (EvalError.move place) (Workspace.move place) := by
  simp only [pushLiteral, readNumber_move]
  cases (readNumber literal position : Except ParseError α) <;> rfl

/-- An operator comes to wait in the same way from every place. -/
theorem pushOperator_move (op : Operator) (position : Nat) :
    (w.move place).pushOperator op (place position) =
      (w.pushOperator op position).rename (EvalError.move place) (Workspace.move place) := by
  simp only [pushOperator, Workspace.move, unwind_move]
  exact Logged.rename_bind fun _ => rfl

/-- A parenthesis is closed in the same way from every place. -/
theorem closeParen_move (position : Nat) :
    (w.move place).closeParen (place position) =
      (w.closeParen position).rename (EvalError.move place) (Workspace.move place) := by
  simp only [closeParen, Workspace.move, unwind_move]
  refine Logged.rename_bind fun settled => ?_
  obtain ⟨held, _⟩ := settled
  cases held <;> rfl

/-- **A lexeme is taken in from another place in the same way.** -/
theorem step_move (lexeme : Lexeme) :
    (w.move place).step (lexeme.move place) =
      (w.step lexeme).rename (EvalError.move place) (Workspace.move place) := by
  obtain ⟨token, position⟩ := lexeme
  obtain ⟨held, values, expecting⟩ := w
  cases expecting with
  | literal minus =>
    cases token with
    | number literal => exact pushLiteral_move _ _
    | _ => rfl
  | operand =>
    cases token with
    | number literal => exact pushLiteral_move _ _
    | operator op => cases op <;> rfl
    | leftParen => rfl
    | rightParen => exact closeParen_move _
  | operator =>
    cases token with
    | operator op => exact pushOperator_move _ _
    | rightParen => exact closeParen_move _
    | _ => rfl

/-- **So is a row of lexemes.** -/
theorem run_move (lexemes : List Lexeme) :
    (w.move place).run (lexemes.map (Lexeme.move place)) =
      (w.run lexemes).rename (EvalError.move place) (Workspace.move place) := by
  induction lexemes generalizing w with
  | nil => rfl
  | cons lexeme lexemes ih =>
    rw [List.map_cons, run_cons, run_cons, step_move]
    exact Logged.rename_bind fun _ => ih

/-- The end is the same from every place. -/
theorem finish_move :
    (w.move place).finish = w.finish.rename (EvalError.move place) id := by
  obtain ⟨held, values, expecting⟩ := w
  cases expecting with
  | literal minus => rfl
  | _ =>
    simp only [finish, Workspace.move, Expecting.move, unwind_move]
    refine Logged.rename_bind fun settled => ?_
    obtain ⟨held, values⟩ := settled
    cases held with
    | nil => cases values <;> rfl
    | cons waiting _ => cases waiting <;> rfl

end Workspace

variable (α place) in
/-- **A row of lexemes from other places has the same value**, and the same log. -/
theorem evaluateLexemes_move (lexemes : List Lexeme) :
    (evaluateLexemes (lexemes.map (Lexeme.move place)) : Evaluation α α) =
      (evaluateLexemes lexemes).rename (EvalError.move place) id := by
  have hrun : (Workspace.empty : Workspace α).run (lexemes.map (Lexeme.move place)) =
      (Workspace.empty.run lexemes).rename (EvalError.move place) (Workspace.move place) :=
    Workspace.run_move (w := Workspace.empty) lexemes
  rw [evaluateLexemes, hrun]
  exact Logged.rename_bind fun _ => Workspace.finish_move

end Evaluation

/-! ## Tokens at their indices -/

/-- **A row of tokens, each one placed at its index.** -/
def indexed (tokens : List Token) : List Lexeme :=
  tokens.mapIdx fun index token => ⟨token, index⟩

/-- Where the lexeme of an index stands. -/
def offset (lexemes : List Lexeme) (index : Nat) : Nat :=
  (lexemes.map Lexeme.position).getD index 0

theorem offset_of_getElem? {lexemes : List Lexeme} {index : Nat} {lexeme : Lexeme}
    (h : lexemes[index]? = some lexeme) : offset lexemes index = lexeme.position := by
  simp [offset, h]

/-- **Every row of lexemes is its row of tokens, put in place.** -/
theorem map_move_indexed (lexemes : List Lexeme) :
    (indexed (lexemes.map Lexeme.token)).map (Lexeme.move (offset lexemes)) = lexemes := by
  refine List.ext_getElem (by simp [indexed]) fun index _ hindex => ?_
  simp [indexed, Lexeme.move, offset_of_getElem? (List.getElem?_eq_getElem hindex)]

variable (α) in
/-- **Every row of lexemes is evaluated as its row of tokens**, with errors put in place. -/
theorem evaluateLexemes_eq_rename [Numeric α] (lexemes : List Lexeme) :
    (evaluateLexemes lexemes : Evaluation α α) =
      (evaluateLexemes (indexed (lexemes.map Lexeme.token))).rename
        (EvalError.move (offset lexemes)) id := by
  rw [← evaluateLexemes_move, map_move_indexed]

/-- An error of a row of tokens points at an index of the row. -/
theorem lt_length_of_isCulprit [Numeric α] {tokens : List Token} {cause : ParseError}
    (h : IsCulprit α (indexed tokens) cause) :
    ∀ index ∈ cause.position?, index < tokens.length := by
  intro index hindex
  obtain ⟨lexeme, hmem, rfl⟩ := h.exists_lexeme index hindex
  obtain ⟨index, hlength, rfl⟩ := List.mem_mapIdx.mp hmem
  exact hlength

/-! ## The same tokens elsewhere -/

/-- **Whether two outcomes are the same up to layout**, for texts with these lexemes. -/
inductive SameOutcome {α : Type} (first second : List Lexeme) :
    Except EvalError α → Except EvalError α → Prop
  /-- Both texts have the same value. -/
  | value (result : α) : SameOutcome first second (.ok result) (.ok result)
  /-- An operation has no value, for the same reason in both. -/
  | runtime (why : RuntimeError) :
      SameOutcome first second (.error (.runtime why)) (.error (.runtime why))
  /-- Neither text has an operand. -/
  | emptyExpression :
      SameOutcome first second (.error (.parse .emptyExpression)) (.error (.parse .emptyExpression))
  /-- The lexemes of one index are to blame: the same error stands where each of them starts. -/
  | placed {index : Nat} {lexeme lexeme' : Lexeme} {cause : ParseError} :
      first[index]? = some lexeme → second[index]? = some lexeme' →
      cause.position? = some lexeme.position →
      SameOutcome first second (.error (.parse cause))
        (.error (.parse (cause.move fun _ => lexeme'.position)))

/-- An error at an index, put in place in two rows, is the same up to layout. -/
theorem sameOutcome_move {α : Type} {first second : List Lexeme} {cause : ParseError}
    (hlength : first.length = second.length)
    (hindex : ∀ index ∈ cause.position?, index < first.length) :
    SameOutcome (α := α) first second (.error (.parse (cause.move (offset first))))
      (.error (.parse (cause.move (offset second)))) := by
  cases hposition : cause.position? with
  | none =>
    -- only a text without an operand leaves nothing to point at
    cases cause with
    | emptyExpression => exact .emptyExpression
    | _ => cases hposition
  | some index =>
    have hlt : index < first.length := hindex index hposition
    have hlt' : index < second.length := hlength ▸ hlt
    have hfirst := List.getElem?_eq_getElem hlt
    have hsecond := List.getElem?_eq_getElem hlt'
    have hplaced : (cause.move (offset first)).position? = some first[index].position := by
      rw [ParseError.position?_move, hposition, Option.map_some, offset_of_getElem? hfirst]
    have hmoved : (cause.move (offset first)).move (fun _ => second[index].position) =
        cause.move (offset second) := by
      rw [ParseError.move_move]
      refine ParseError.move_congr fun position hmem => ?_
      rw [hposition] at hmem
      cases hmem
      exact (offset_of_getElem? hsecond).symm
    rw [← hmoved]
    exact .placed hfirst hsecond hplaced

variable (α) in
/-- **Rows of the same tokens** have the same outcome, up to layout. -/
theorem sameOutcome_of_tokens [Numeric α] {first second : List Lexeme}
    (htokens : first.map Lexeme.token = second.map Lexeme.token) :
    SameOutcome first second (evaluateLexemes first : Evaluation α α).outcome
      (evaluateLexemes second : Evaluation α α).outcome := by
  have hlength : first.length = second.length := by simpa using congrArg List.length htokens
  rw [evaluateLexemes_eq_rename α first, evaluateLexemes_eq_rename α second, ← htokens]
  simp only [Logged.rename]
  cases h : (evaluateLexemes (indexed (first.map Lexeme.token)) : Evaluation α α).outcome with
  | ok value => exact .value value
  | error cause =>
    cases cause with
    | runtime why => exact .runtime why
    | parse cause =>
      refine sameOutcome_move hlength fun index hindex => ?_
      have hlt := lt_length_of_isCulprit (isCulprit_of_evaluateLexemes h) index hindex
      rwa [List.length_map] at hlt

variable (α) in
/-- **Rows of the same tokens** log the same. -/
theorem log_evaluateLexemes_of_tokens [Numeric α] {first second : List Lexeme}
    (htokens : first.map Lexeme.token = second.map Lexeme.token) :
    (evaluateLexemes first : Evaluation α α).log =
      (evaluateLexemes second : Evaluation α α).log := by
  rw [evaluateLexemes_eq_rename α first, evaluateLexemes_eq_rename α second, ← htokens]
  rfl

/-! ## Whole texts -/

/-- The events of single steps. -/
def traceOf {α : Type} [Numeric α] (log : List (EvaluationEvent α)) : List (EvaluationEvent α) :=
  log.filter fun event => event.toRecord.level = .trace

/-- The trace of a text is what its lexemes log. -/
theorem traceOf_log_evaluateAs {α : Type} [Numeric α] {source : String} {lexemes : List Lexeme}
    (hscan : Lexeme.scan source = .ok lexemes) :
    traceOf (evaluateAs α source).log = (evaluateLexemes lexemes : Evaluation α α).log := by
  have htrace : traceOf (evaluateLexemes lexemes : Evaluation α α).log =
      (evaluateLexemes lexemes : Evaluation α α).log :=
    List.filter_eq_self.mpr fun event hevent =>
      decide_eq_true (level_evaluateLexemes lexemes event hevent)
  cases h : (evaluateLexemes lexemes : Evaluation α α).outcome with
  | ok value =>
    rw [log_evaluateAs_of_ok hscan h, traceOf, List.filter_append]
    show traceOf _ ++ [] = _
    rw [htrace, List.append_nil]
  | error cause => rw [log_evaluateAs_of_error hscan h, htrace]

/-- **Layout makes no difference.** Two texts with the same tokens log the same steps. They have the
same value, or fail with the same error, which points in each at the place of the same token. -/
theorem evaluateAs_sameOutcome (α : Type) [Numeric α] {source source' : String}
    {lexemes lexemes' : List Lexeme} (hscan : Lexeme.scan source = .ok lexemes)
    (hscan' : Lexeme.scan source' = .ok lexemes')
    (htokens : lexemes.map Lexeme.token = lexemes'.map Lexeme.token) :
    traceOf (evaluateAs α source).log = traceOf (evaluateAs α source').log ∧
      SameOutcome lexemes lexemes' (evaluateAs α source).outcome
        (evaluateAs α source').outcome := by
  rw [traceOf_log_evaluateAs hscan, traceOf_log_evaluateAs hscan', outcome_evaluateAs hscan,
    outcome_evaluateAs hscan']
  exact ⟨log_evaluateLexemes_of_tokens α htokens, sameOutcome_of_tokens α htokens⟩

/-- Blanks change nothing in a value and its steps; they move the parenthesis that is left open, and
nothing else. -/
theorem evaluateAs_sameOutcome_of_blanks :
    (∃ lexemes lexemes', Lexeme.scan "1+2*3" = .ok lexemes ∧
      Lexeme.scan " 1 + 2 * 3" = .ok lexemes' ∧
      lexemes.map Lexeme.token = lexemes'.map Lexeme.token ∧
      (evaluateAs Integer64 "1+2*3").outcome = .ok (.wrap _ 7) ∧
      (evaluateAs Integer64 " 1 + 2 * 3").outcome = .ok (.wrap _ 7) ∧
      traceOf (evaluateAs Integer64 "1+2*3").log =
        [.applied (.wrap _ 2) .mul (.wrap _ 3) (.wrap _ 6),
          .applied (.wrap _ 1) .add (.wrap _ 6) (.wrap _ 7)] ∧
      traceOf (evaluateAs Integer64 "1+2*3").log =
        traceOf (evaluateAs Integer64 " 1 + 2 * 3").log ∧
      SameOutcome lexemes lexemes' (evaluateAs Integer64 "1+2*3").outcome
        (evaluateAs Integer64 " 1 + 2 * 3").outcome) ∧
    ∃ lexemes lexemes', Lexeme.scan "1+(2*3" = .ok lexemes ∧
      Lexeme.scan " 1 + ( 2 * 3" = .ok lexemes' ∧
      lexemes.map Lexeme.token = lexemes'.map Lexeme.token ∧
      (evaluateAs Integer64 "1+(2*3").outcome = .error (.parse (.mismatchedParenthesis 2)) ∧
      (evaluateAs Integer64 " 1 + ( 2 * 3").outcome =
        .error (.parse (.mismatchedParenthesis 5)) ∧
      traceOf (evaluateAs Integer64 "1+(2*3").log =
        traceOf (evaluateAs Integer64 " 1 + ( 2 * 3").log ∧
      SameOutcome lexemes lexemes' (evaluateAs Integer64 "1+(2*3").outcome
        (evaluateAs Integer64 " 1 + ( 2 * 3").outcome := by
  constructor
  · have hscan : Lexeme.scan "1+2*3" = .ok [⟨.number "1", 0⟩, ⟨.operator .add, 1⟩,
        ⟨.number "2", 2⟩, ⟨.operator .mul, 3⟩, ⟨.number "3", 4⟩] := by
      decide +kernel
    have hscan' : Lexeme.scan " 1 + 2 * 3" = .ok [⟨.number "1", 1⟩, ⟨.operator .add, 3⟩,
        ⟨.number "2", 5⟩, ⟨.operator .mul, 7⟩, ⟨.number "3", 9⟩] := by
      decide +kernel
    exact ⟨_, _, hscan, hscan', rfl, by decide +kernel, by decide +kernel, by decide +kernel,
      evaluateAs_sameOutcome Integer64 hscan hscan' rfl⟩
  · have hscan : Lexeme.scan "1+(2*3" = .ok [⟨.number "1", 0⟩, ⟨.operator .add, 1⟩,
        ⟨.leftParen, 2⟩, ⟨.number "2", 3⟩, ⟨.operator .mul, 4⟩, ⟨.number "3", 5⟩] := by
      decide +kernel
    have hscan' : Lexeme.scan " 1 + ( 2 * 3" = .ok [⟨.number "1", 1⟩, ⟨.operator .add, 3⟩,
        ⟨.leftParen, 5⟩, ⟨.number "2", 7⟩, ⟨.operator .mul, 9⟩, ⟨.number "3", 11⟩] := by
      decide +kernel
    exact ⟨_, _, hscan, hscan', rfl, by decide +kernel, by decide +kernel,
      evaluateAs_sameOutcome Integer64 hscan hscan' rfl⟩

end DeskCalc
