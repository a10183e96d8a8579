import DeskCalc.Proofs.Brackets

/-! # The first break of the alternation

Operands and operators must alternate. The first lexeme that breaks this is reported as soon as it
is read, before a literal after it is looked at, a parenthesis is missed or an operator is applied;
so nothing that follows it makes any difference.

* **`Alternates`** — the rows of lexemes without a break.
* **`InOrder`** — the rows in which nothing else goes wrong.
* **`Workspace.reads_of_run`** — in such a row, operators are applied to their own operands.
* **`exists_run_of_inOrder`** — such a row is taken in.
* **`evaluateAs_eq_firstBreak`** — the first break is what is reported. -/

namespace DeskCalc

/-- **Whether no lexeme of a row breaks the alternation**, with `after` coming next. -/
def Alternates (lexemes after : List Lexeme) : Prop :=
  ∀ earlier lexeme between cause, lexemes = earlier ++ lexeme :: between →
    ¬Breaks earlier lexeme (between ++ after) cause

variable (α : Type) [Numeric α]

/-- **Whether nothing goes wrong in a row of lexemes**, the alternation left aside. -/
structure InOrder (lexemes : List Lexeme) : Prop where
  /-- No parenthesis closes where an operand may start. -/
  tidy : Tidy lexemes
  /-- Every parenthesis that closes has been opened. -/
  closed : ClosesPaired lexemes
  /-- Every literal, with its sign, has a value. -/
  legible : ∀ text position, LiteralIn lexemes text position →
    ∃ value : α, readNumber text position = .ok value
  /-- No operator that is applied on the way is without a value. -/
  defined : ∀ why, (Workspace.empty.run lexemes : Evaluation α _).outcome ≠ .error (.runtime why)

variable {α} {before after lexemes : List Lexeme} {lexeme : Lexeme}

/-- Where all is tidy, its beginning is. -/
theorem Tidy.of_append (h : Tidy (before ++ after)) : Tidy before := by
  refine ⟨(List.isChain_append.mp h.chain).1, fun first hfirst => h.head first ?_⟩
  rw [List.head?_append, Option.mem_def.mp hfirst, Option.some_or, Option.mem_def]

/-- Where no lexeme breaks the alternation, a literal follows each sign. -/
theorem Alternates.not_endsWithSign (h : Alternates before (lexeme :: after))
    (hnumber : lexeme.token.isNumber = false) (minus : Nat) : ¬EndsWithSign before minus := by
  rintro ⟨earlier, htext, hdue⟩
  refine h earlier _ [] _ htext (.danglingMinus hdue fun next hnext => ?_)
  cases hnext
  exact hnumber

/-- Nothing breaks the alternation in an empty row. -/
theorem alternates_nil : Alternates [] after := by
  rintro earlier lexeme between cause htext
  cases earlier <;> cases htext

/-- A row goes on without a break when its next lexeme does not break the alternation. -/
theorem Alternates.concat (h : Alternates before (lexeme :: after))
    (hlexeme : ∀ cause, ¬Breaks before lexeme after cause) :
    Alternates (before ++ [lexeme]) after := by
  intro earlier lexeme' between cause htext
  rcases List.eq_nil_or_concat between with rfl | ⟨between, last, rfl⟩
  · obtain ⟨rfl, hlast⟩ := List.append_inj' htext rfl
    cases hlast
    exact hlexeme cause
  · have hlonger : before ++ [lexeme] = (earlier ++ lexeme' :: between) ++ [last] := by
      simpa using htext
    obtain ⟨hbefore, hlast⟩ := List.append_inj' hlonger rfl
    cases hlast
    simpa using h earlier lexeme' between cause hbefore

/-- Where an operand may start, a literal does not break the alternation. -/
theorem Alternates.number {text : String} {position : Nat} (hdue : ¬Completed before)
    (h : Alternates before (⟨.number text, position⟩ :: after)) :
    Alternates (before ++ [⟨.number text, position⟩]) after := by
  refine h.concat fun cause hbreaks => ?_
  cases hbreaks with
  | missingOperator hcompleted _ => exact hdue hcompleted

/-- After an operand, an operator does not break the alternation. -/
theorem Alternates.operator {op : Operator} {position : Nat} (hcompleted : Completed before)
    (h : Alternates before (⟨.operator op, position⟩ :: after)) :
    Alternates (before ++ [⟨.operator op, position⟩]) after := by
  refine h.concat fun cause hbreaks => ?_
  cases hbreaks with
  | missingOperator _ hoperand => simp [Token.isNumber] at hoperand
  | danglingMinus hdue _ => exact hdue hcompleted
  | missingOperand hdue _ => exact hdue hcompleted

namespace Workspace

variable {w : Workspace α}

omit [Numeric α] in
/-- After a complete operand, an operator may come. -/
theorem Tracks.expecting_of_completed (h : Tracks before w) (hcompleted : Completed before) :
    w.expecting = .operator := by
  have hfollows := h.follows
  cases hexpecting : w.expecting with
  | operator => rfl
  | operand =>
    rw [hexpecting] at hfollows
    exact absurd hcompleted hfollows.1
  | literal minus =>
    rw [hexpecting] at hfollows
    obtain ⟨earlier, rfl, -⟩ := hfollows
    cases completed_concat.mp hcompleted

omit [Numeric α] in
/-- Where neither an operand is complete nor a sign comes last, an operand may start. -/
theorem Tracks.expecting_of_not_completed (h : Tracks before w) (hdue : ¬Completed before)
    (hsign : ∀ minus, ¬EndsWithSign before minus) : w.expecting = .operand := by
  have hfollows := h.follows
  cases hexpecting : w.expecting with
  | operand => rfl
  | operator =>
    rw [hexpecting] at hfollows
    exact absurd hfollows hdue
  | literal minus =>
    rw [hexpecting] at hfollows
    exact absurd hfollows (hsign minus)

/-- **Where parentheses close after operands only, all operands are where they belong.** -/
theorem reads_of_run (htidy : Tidy lexemes)
    (hrun : (Workspace.empty.run lexemes).outcome = .ok w) : Reads lexemes w := by
  refine run_induction (motive := fun lexemes w => Tidy lexemes → Reads lexemes w)
    (fun _ => reads_empty) ?_ hrun htidy
  intro before w lexeme w' hreads hstep htidy
  have hbefore := hreads htidy.of_append
  rcases hbefore.step hstep with hread | ⟨hoperand, hclosing⟩
  · exact hread
  · -- a parenthesis that closes here would have an operand before it
    have hcompleted := htidy.completed (ends_cons.mpr hclosing) (List.cons_ne_nil _ _)
    cases hbefore with
    | operand hbegins _ => exact absurd hcompleted hbegins.not_completed
    | literal _ _ => cases hoperand
    | operator _ => cases hoperand

/-- **Operators after a complete operand have their operands**, so that only a value can be
lacking. -/
theorem Completes.exists_runtime {level : Nat} {held : List Held} {values : List α}
    {cause : EvalError} (h : Completes level lexemes held values)
    (hfails : UnwindFails level held values cause) : ∃ why, cause = .runtime why := by
  induction hfails with
  | here _ happly =>
    obtain ⟨_, _, _, _, _, _, -, rfl, -⟩ := h.exists_operands
    rcases applyOperator_error_iff.mp happly with ⟨_, _, _, why, -, -, rfl⟩ | ⟨hlength, -⟩
    · exact ⟨why, rfl⟩
    · exact absurd hlength (by simp)
  | later hop happly _ ih => exact ih (h.apply hop happly)

/-- After a complete operand, a step can only lack a value. -/
theorem Reads.exists_runtime {level : Nat} {held : List Held} {values : List α}
    {cause : EvalError} (h : Reads lexemes (⟨held, values, .operator⟩ : Workspace α))
    (hlevel : level ≤ atomStrength) (hfails : UnwindFails level held values cause) :
    ∃ why, cause = .runtime why := by
  cases h with
  | operator hcompletes => exact (hcompletes.mono hlevel).exists_runtime hfails

/-- **A step of a row that is in order can only lack a value**, unless its lexeme breaks the
alternation. -/
theorem exists_runtime_of_stepFails {between : List Lexeme} {cause : EvalError}
    (horder : InOrder α (before ++ lexeme :: between))
    (halternates : Alternates (before ++ lexeme :: between) after)
    (hrun : (Workspace.empty.run before).outcome = .ok w) (hfails : StepFails w lexeme cause) :
    ∃ why, cause = .runtime why := by
  have htracks := tracks_of_run hrun
  have hreads := reads_of_run horder.tidy.of_append hrun
  cases hfails with
  | literal hvalue =>
    obtain ⟨value, hok⟩ := horder.legible _ _ (.unsigned rfl htracks.follows.2)
    rw [hok] at hvalue
    cases hvalue
  | negative hvalue =>
    obtain ⟨earlier, rfl, hdue⟩ := htracks.follows
    obtain ⟨value, hok⟩ := horder.legible _ _ (.signed (List.append_cons ..).symm hdue)
    rw [hok] at hvalue
    cases hvalue
  | sign hnumber =>
    -- the sign before the lexeme is the break
    obtain ⟨earlier, rfl, hdue⟩ := htracks.follows
    refine absurd (.danglingMinus hdue fun next hnext => ?_)
      (halternates earlier _ _ _ (List.append_cons ..).symm)
    cases hnext
    exact hnumber
  | operand hop =>
    exact absurd (.missingOperand htracks.follows.1 hop) (halternates before _ _ _ rfl)
  | operator hoperand =>
    exact absurd (.missingOperator htracks.follows hoperand) (halternates before _ _ _ rfl)
  | unwinding hunwind =>
    exact hreads.exists_runtime (Nat.le_of_lt (Operator.precedence_lt_atomStrength _)) hunwind
  | @closing _ _ expecting _ _ hclose hunwind =>
    match expecting, hclose with
    | .operand, _ =>
      have hcompleted := horder.tidy.completed (ends_cons.mpr rfl) (List.cons_ne_nil _ _)
      exact absurd hcompleted htracks.follows.1
    | .operator, _ => exact hreads.exists_runtime (Nat.zero_le _) hunwind
  | unmatched _ hunwinds =>
    have hmatched := matched_of_unwinds hrun hunwinds
    exact absurd (horder.closed before _ _ rfl) hmatched.not_hasLeftPartner

/-- **What is in order and alternates is taken in.** -/
theorem exists_run_of_inOrder (horder : InOrder α before) (halternates : Alternates before after) :
    ∃ w : Workspace α, (Workspace.empty.run before).outcome = .ok w := by
  cases houtcome : (Workspace.empty.run before : Evaluation α _).outcome with
  | ok w => exact ⟨w, rfl⟩
  | error cause =>
    obtain ⟨earlier, lexeme, between, w, rfl, hrun, hfails⟩ := run_error_iff.mp houtcome
    obtain ⟨why, rfl⟩ := exists_runtime_of_stepFails horder halternates hrun hfails
    exact absurd houtcome (horder.defined why)

/-- **A lexeme that breaks the alternation ends the run**, whatever comes after it. -/
theorem Tracks.outcome_of_breaks {cause : ParseError} (h : Tracks before w)
    (hbreaks : Breaks before lexeme after cause)
    (halternates : Alternates before (lexeme :: after)) :
    (w.run (lexeme :: after) >>= finish).outcome = .error (.parse cause) := by
  obtain ⟨held, values, expecting⟩ := w
  rw [run_cons, bind_assoc]
  cases hbreaks with
  | missingOperator hcompleted hoperand =>
    obtain rfl : expecting = .operator := h.expecting_of_completed hcompleted
    exact Logged.outcome_bind_of_error (step_error_iff.mpr (.operator hoperand)) _
  | missingOperand hdue hop =>
    obtain rfl : expecting = .operand :=
      h.expecting_of_not_completed hdue (halternates.not_endsWithSign rfl)
    exact Logged.outcome_bind_of_error (step_error_iff.mpr (.operand hop)) _
  | danglingMinus hdue hnext =>
    obtain rfl : expecting = .operand :=
      h.expecting_of_not_completed hdue (halternates.not_endsWithSign rfl)
    -- the minus is taken for a sign, and what follows it is no literal
    rw [Logged.outcome_bind_of_ok (step_ok_iff.mpr .sign)]
    cases after with
    | nil => rfl
    | cons next after =>
      rw [run_cons, bind_assoc]
      exact Logged.outcome_bind_of_error (step_error_iff.mpr (.sign (hnext next rfl))) _

end Workspace

/-- **The first break of the alternation is reported**, at its own place and with its own symbol. If
nothing else goes wrong before it, nothing that comes after it makes any difference: no literal, no
parenthesis and no division. -/
theorem evaluateAs_eq_firstBreak {source : String} {cause : ParseError}
    (hscan : Lexeme.scan source = .ok (before ++ lexeme :: after))
    (hbreaks : Breaks before lexeme after cause)
    (halternates : Alternates before (lexeme :: after)) (horder : InOrder α before) :
    (evaluateAs α source).outcome = .error (.parse cause) := by
  obtain ⟨w, hrun⟩ := Workspace.exists_run_of_inOrder horder halternates
  rw [outcome_evaluateAs hscan, evaluateLexemes, Workspace.run_append, bind_assoc,
    Logged.outcome_bind_of_ok hrun]
  exact (Workspace.tracks_of_run hrun).outcome_of_breaks hbreaks halternates

/-- In `6/2+*)1.5/0` the product is reported, for all that is wrong after it. -/
theorem evaluateAs_eq_firstBreak_of_product :
    Lexeme.scan "6/2+*)1.5/0" = .ok ([⟨.number "6", 0⟩, ⟨.operator .div, 1⟩, ⟨.number "2", 2⟩,
        ⟨.operator .add, 3⟩] ++ ⟨.operator .mul, 4⟩ :: [⟨.rightParen, 5⟩, ⟨.number "1.5", 6⟩,
        ⟨.operator .div, 9⟩, ⟨.number "0", 10⟩]) ∧
      (evaluateAs Integer64 "6/2+*)1.5/0").outcome = .error (.parse (.missingOperand '*' 4)) := by
  have hscan : Lexeme.scan "6/2+*)1.5/0" = .ok ([⟨.number "6", 0⟩, ⟨.operator .div, 1⟩,
      ⟨.number "2", 2⟩, ⟨.operator .add, 3⟩] ++ ⟨.operator .mul, 4⟩ :: [⟨.rightParen, 5⟩,
      ⟨.number "1.5", 6⟩, ⟨.operator .div, 9⟩, ⟨.number "0", 10⟩]) := by decide +kernel
  have hsix : ∀ after, Alternates [⟨.number "6", 0⟩, ⟨.operator .div, 1⟩] after := fun _ =>
    (alternates_nil.number (by simp [Completed])).operator (completed_concat.mpr rfl)
  have halternates : ∀ after, Alternates [⟨.number "6", 0⟩, ⟨.operator .div, 1⟩, ⟨.number "2", 2⟩,
      ⟨.operator .add, 3⟩] after := fun _ =>
    ((hsix _).number (by simp [Completed, Token.opens])).operator (completed_concat.mpr rfl)
  have hmatched : Matched [⟨.number "6", 0⟩, ⟨.operator .div, 1⟩, ⟨.number "2", 2⟩,
      ⟨.operator .add, 3⟩] :=
    .other (by decide) (by decide) (.other (by decide) (by decide)
      (.other (by decide) (by decide) (.other (by decide) (by decide) .nil)))
  have hlegible : ∀ text position, LiteralIn [⟨.number "6", 0⟩, ⟨.operator .div, 1⟩,
      ⟨.number "2", 2⟩, ⟨.operator .add, 3⟩] text position →
        ∃ value : Integer64, readNumber text position = .ok value := by
    rintro text position (⟨htext, -⟩ | ⟨htext, -⟩)
    · have hmem : (⟨.number text, position⟩ : Lexeme) ∈ [⟨.number "6", 0⟩, ⟨.operator .div, 1⟩,
          ⟨.number "2", 2⟩, ⟨.operator .add, 3⟩] := htext ▸ by simp
      obtain ⟨rfl, rfl⟩ | ⟨rfl, rfl⟩ : text = "6" ∧ position = 0 ∨ text = "2" ∧ position = 2 := by
        simpa using hmem
      · exact ⟨.wrap _ 6, by decide +kernel⟩
      · exact ⟨.wrap _ 2, by decide +kernel⟩
    · have hmem : (⟨.operator .sub, position⟩ : Lexeme) ∈ [⟨.number "6", 0⟩, ⟨.operator .div, 1⟩,
          ⟨.number "2", 2⟩, ⟨.operator .add, 3⟩] := htext ▸ by simp
      simp at hmem
  have hrun : (Workspace.empty.run [⟨.number "6", 0⟩, ⟨.operator .div, 1⟩, ⟨.number "2", 2⟩,
      ⟨.operator .add, 3⟩] : Evaluation Integer64 _).outcome =
        .ok ⟨[.operator .add 3], [.wrap _ 3], .operand⟩ := by decide +kernel
  have hdefined : ∀ why, (Workspace.empty.run [⟨.number "6", 0⟩, ⟨.operator .div, 1⟩,
      ⟨.number "2", 2⟩, ⟨.operator .add, 3⟩] : Evaluation Integer64 _).outcome ≠
        .error (.runtime why) := by
    intro why hruntime
    rw [hrun] at hruntime
    cases hruntime
  exact ⟨hscan, evaluateAs_eq_firstBreak hscan
    (.missingOperand (by simp [Completed, Token.opens]) (by decide)) (halternates _)
    ⟨⟨by decide, by decide⟩, hmatched.closesPaired, hlegible, hdefined⟩⟩

end DeskCalc
