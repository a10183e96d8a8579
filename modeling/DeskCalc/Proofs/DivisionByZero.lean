import DeskCalc.Proofs.MissingOperand
import Mathlib.Data.List.Chain
import Mathlib.Data.List.Infix

/-! # Divisions that fail

An operator is applied to the operands that its text gives it, as long as no operand is missing. So
a runtime error is that of an expression that stands in the text, unless an operand was missing
first.

* **`Tidy`**, **`Completed`** — texts in which a parenthesis closes only after a complete operand.
* **`MissesOperand`** — the texts that lack an operand at a place up to which they are in order.
* **`InPlace`** — the expressions that stand in a text where an operand is due.
* **`evaluateAs_eq_divisionByZero_iff`** — a division by zero is that of such an expression, just if
  no operand is missing. -/

namespace DeskCalc

/-! ## Closing parentheses -/

/-- Whether an operand may start directly after a token. -/
def Token.opens : Token → Bool
  | operator _ => true
  | leftParen => true
  | _ => false

/-- **Whether lexemes end with a complete operand:** with a literal or a closing parenthesis. -/
def Completed (lexemes : List Lexeme) : Prop :=
  ∃ last ∈ lexemes.getLast?, last.token.opens = false

/-- What one lexeme adds at the end decides. -/
theorem completed_concat {lexemes : List Lexeme} {lexeme : Lexeme} :
    Completed (lexemes ++ [lexeme]) ↔ lexeme.token.opens = false := by
  rw [Completed, List.getLast?_concat]
  constructor
  · rintro ⟨last, hlast, hopens⟩
    cases hlast
    exact hopens
  · exact fun hopens => ⟨lexeme, rfl, hopens⟩

/-- What comes before does not matter. -/
theorem Completed.append_left {lexemes : List Lexeme} (h : Completed lexemes)
    (before : List Lexeme) : Completed (before ++ lexemes) := by
  obtain ⟨last, hlast, hopens⟩ := h
  refine ⟨last, ?_, hopens⟩
  rw [Option.mem_def, List.getLast?_append, hlast, Option.some_or]

/-- **Whether a parenthesis closes only directly after a complete operand.** -/
structure Tidy (lexemes : List Lexeme) : Prop where
  /-- After each lexeme, an operand starts or an operand is complete. -/
  chain : lexemes.IsChain fun first second =>
    second.token = .rightParen → first.token.opens = false
  /-- No parenthesis closes at the start. -/
  head : ∀ first ∈ lexemes.head?, first.token ≠ .rightParen

namespace Tidy

variable {before after : List Lexeme}

/-- No parenthesis closes in an empty text. -/
theorem nil : Tidy [] :=
  ⟨.nil, fun _ h => nomatch h⟩

/-- Only a closing parenthesis is not tidy by itself. -/
theorem singleton {lexeme : Lexeme} (h : lexeme.token ≠ .rightParen) : Tidy [lexeme] := by
  refine ⟨.singleton _, fun first hfirst => ?_⟩
  cases hfirst
  exact h

/-- Tidy texts may follow each other. -/
theorem append (hbefore : Tidy before) (hafter : Tidy after) : Tidy (before ++ after) := by
  refine ⟨List.isChain_append.mpr ⟨hbefore.chain, hafter.chain, ?_⟩, fun first hfirst => ?_⟩
  · -- where the two texts meet, no parenthesis closes
    intro _ _ second hsecond hclosing
    exact absurd hclosing (hafter.head second hsecond)
  · rw [List.head?_append, Option.mem_def, Option.or_eq_some_iff] at hfirst
    rcases hfirst with hfirst | ⟨-, hfirst⟩
    · exact hbefore.head first hfirst
    · exact hafter.head first hfirst

/-- A parenthesis may close after a complete operand. -/
theorem closing (h : Tidy before) (hcompleted : Completed before) (position : Nat) :
    Tidy (before ++ [⟨.rightParen, position⟩]) := by
  obtain ⟨last, hlast, hopens⟩ := hcompleted
  refine ⟨List.isChain_append.mpr ⟨h.chain, .singleton _, ?_⟩, fun first hfirst => ?_⟩
  · intro first hfirst _ _ _
    rw [Option.mem_unique hfirst hlast]
    exact hopens
  · rw [List.head?_append_of_ne_nil _ (by rintro rfl; cases hlast)] at hfirst
    exact h.head first hfirst

/-- **Where a parenthesis closes, an operand is complete.** -/
theorem completed (h : Tidy (before ++ after)) (hends : Ends after) (hne : after ≠ []) :
    Completed before := by
  obtain ⟨lexeme, after, rfl⟩ := List.exists_cons_of_ne_nil hne
  have hclosing : lexeme.token = .rightParen := ends_cons.mp hends
  cases hlast : before.getLast? with
  | none =>
    rw [List.getLast?_eq_none_iff] at hlast
    subst hlast
    exact absurd hclosing (h.head lexeme rfl)
  | some last =>
    exact ⟨last, hlast, (List.isChain_append.mp h.chain).2.2 last hlast lexeme rfl hclosing⟩

end Tidy

/-- **Expressions are tidy**, and complete at their end. -/
theorem Derives.tidy_completed {strength : Nat} {lexemes : List Lexeme} {tree : Expression}
    (h : Derives strength lexemes tree) : Tidy lexemes ∧ Completed lexemes := by
  induction h with
  | unsigned => exact ⟨.singleton Token.noConfusion, ⟨_, rfl, rfl⟩⟩
  | signed =>
    exact ⟨.append (.singleton Token.noConfusion) (.singleton Token.noConfusion), ⟨_, rfl, rfl⟩⟩
  | parenthesized _ ih =>
    exact ⟨.closing (.append (.singleton Token.noConfusion) ih.1) (ih.2.append_left [_]) _,
      completed_concat.mpr rfl⟩
  | binary _ _ ihLeft ihRight =>
    exact ⟨ihLeft.1.append (.append (.singleton Token.noConfusion) ihRight.1),
      (ihRight.2.append_left [_]).append_left _⟩
  | weaken _ ih => exact ih

/-- The beginnings of expressions are tidy. -/
theorem Begins.tidy {lexemes : List Lexeme} {waiting : List Waiting} (h : Begins lexemes waiting) :
    Tidy lexemes := by
  induction h with
  | start => exact .nil
  | paren _ ih => exact ih.append (.singleton Token.noConfusion)
  | operator _ hleft _ ih =>
    exact (ih.append hleft.tidy_completed.1).append (.singleton Token.noConfusion)

/-- Where an operand is due, none is complete. -/
theorem Begins.not_completed {lexemes : List Lexeme} {waiting : List Waiting}
    (h : Begins lexemes waiting) : ¬Completed lexemes := by
  cases h with
  | start =>
    rintro ⟨_, hlast, _⟩
    cases hlast
  | paren _ => exact fun hcompleted => nomatch completed_concat.mp hcompleted
  | operator _ _ _ => exact fun hcompleted => nomatch completed_concat.mp hcompleted

/-! ## Expressions in their place -/

/-- **Whether an operand is missing** at some place of a text up to which it is in order: operands
and operators alternate there, and all operands have values. -/
def MissesOperand (α : Type) [Numeric α] (lexemes : List Lexeme) : Prop :=
  ∃ before after waiting, ∃ values : List α, lexemes = before ++ after ∧ Begins before waiting ∧
    Operands waiting values ∧ Ends after

/-- **Whether an operand of the strength ends before these lexemes**, because a parenthesis closes
or an operator comes that does not bind more strongly. -/
def Delimits (strength : Nat) (lexemes : List Lexeme) : Prop :=
  ∀ lexeme ∈ lexemes.head?, lexeme.token = .rightParen ∨
    ∃ op, lexeme.token = .operator op ∧ op.precedence ≤ strength

/-- **Whether a run of lexemes writes a tree in its place** in a text: an operand is due before it,
with all before it in order, and what waits there and what comes next take all of it. -/
inductive InPlace (α : Type) [Numeric α] : List Lexeme → List Lexeme → Expression → Prop
  /-- The run stands between these two parts of the text. -/
  | intro {before run after : List Lexeme} {waiting : List Waiting} {values : List α}
      {strength : Nat} {tree : Expression} :
      Begins before waiting → Operands waiting values → Waiting.floor waiting ≤ strength →
      Derives strength run tree → Delimits strength after →
      InPlace α (before ++ run ++ after) run tree

variable {α : Type} [Numeric α]

/-- Where no operand can follow, every operand ends. -/
theorem Ends.delimits {lexemes : List Lexeme} (h : Ends lexemes) (strength : Nat) :
    Delimits strength lexemes :=
  fun lexeme hlexeme => .inl (h lexeme hlexeme)

/-- The first part of such a place is such a place. -/
theorem Ends.of_append {lexemes after : List Lexeme} (h : Ends (lexemes ++ after)) :
    Ends lexemes := by
  cases lexemes with
  | nil => exact ends_nil
  | cons lexeme lexemes => exact h

/-- An operator ends the operands that bind as strongly. -/
theorem delimits_operator (op : Operator) (position : Nat) (after : List Lexeme) :
    Delimits op.precedence (⟨.operator op, position⟩ :: after) := by
  intro lexeme hlexeme
  cases hlexeme
  exact .inr ⟨op, rfl, Nat.le_refl _⟩

/-- Greater strength ends no later. -/
theorem Delimits.mono {strength level : Nat} {lexemes : List Lexeme} (h : Delimits level lexemes)
    (hle : level ≤ strength) : Delimits strength lexemes := by
  intro lexeme hlexeme
  rcases h lexeme hlexeme with hclosing | ⟨op, hop, hlevel⟩
  · exact .inl hclosing
  · exact .inr ⟨op, hop, Nat.le_trans hlevel hle⟩

/-- The last operand of a beginning is in its place, if the text delimits it. -/
theorem EndsWith.inPlace {level : Nat} {lexemes after : List Lexeme} {waiting : List Waiting}
    {tree : Expression} {values : List α} (h : EndsWith level lexemes waiting tree)
    (hoperands : Operands waiting values) (hafter : Delimits level after) :
    ∃ run, InPlace α (lexemes ++ after) run tree := by
  obtain ⟨hbegins, hderives, hfloor, hlevel⟩ := h
  exact ⟨_, .intro hbegins hoperands hfloor hderives (hafter.mono hlevel)⟩

/-- A run in its place is a part of the text, and an expression by itself. -/
theorem InPlace.infix_derives {lexemes run : List Lexeme} {tree : Expression}
    (h : InPlace α lexemes run tree) : run <:+: lexemes ∧ Derives wholeStrength run tree := by
  cases h with
  | @intro before _ after waiting _ strength _ _ _ hfloor hderives _ =>
    exact ⟨⟨before, after, rfl⟩,
      hderives.weaken_of_le (Nat.le_trans (Waiting.wholeStrength_le_floor waiting) hfloor)⟩

namespace Workspace

/-- **Operators that wait after a complete operand fail for themselves:** the one that cannot be
applied makes a tree with its operands, which fails as it does. -/
theorem Completes.exists_failing {level : Nat} {lexemes : List Lexeme} {held : List Held}
    {values : List α} {cause : EvalError} (h : Completes level lexemes held values)
    (hfails : UnwindFails level held values cause) :
    ∃ waiting tree, ∃ rest : List α, EndsWith level lexemes waiting tree ∧ Operands waiting rest ∧
      (tree.evaluate : Evaluation α α).outcome = .error cause := by
  induction hfails with
  | here hop happly =>
    obtain ⟨waiting, leftTree, rightTree, left, right, rest, -, rfl, hends, hoperands, hleft,
      hright⟩ := h.exists_operands
    refine ⟨waiting, _, rest, hends.binary hop, hoperands, ?_⟩
    -- both operands have values, so that it is the operator that fails
    rw [Expression.outcome_binary hleft hright]
    rcases applyOperator_error_iff.mp happly with ⟨_, _, _, why, hvalues, hwhy, rfl⟩ | ⟨hlength, -⟩
    · cases hvalues
      rw [hwhy]
      rfl
    · exact absurd hlength (by simp)
  | later hop happly _ ih => exact ih (h.apply hop happly)

/-- Where the text delimits the operand on top, a failure of what waits is that of an expression in
its place. -/
theorem Completes.exists_inPlace {strength level : Nat} {before after : List Lexeme}
    {held : List Held} {values : List α} {cause : EvalError}
    (h : Completes strength before held values) (hle : level ≤ strength)
    (hfails : UnwindFails level held values cause) (hafter : Delimits level after) :
    ∃ run tree, InPlace α (before ++ after) run tree ∧
      (tree.evaluate : Evaluation α α).outcome = .error cause := by
  obtain ⟨waiting, tree, rest, hends, hoperands, hcause⟩ := (h.mono hle).exists_failing hfails
  obtain ⟨run, hplace⟩ := hends.inPlace hoperands hafter
  exact ⟨run, tree, hplace, hcause⟩

/-- **A runtime error is that of an expression in its place**, unless an operand is missing. -/
theorem Reads.exists_inPlace {before after : List Lexeme} {w : Workspace α} {why : RuntimeError}
    (h : Reads before w) (hnone : ¬MissesOperand α (before ++ after))
    (hfails : (w.run after >>= finish).outcome = .error (.runtime why)) :
    ∃ run tree, InPlace α (before ++ after) run tree ∧
      (tree.evaluate : Evaluation α α).outcome = .error (.runtime why) := by
  induction after generalizing before w with
  | nil =>
    rw [run_nil, pure_bind] at hfails
    cases finish_error_iff.mp hfails with
    | unwinding hclose hunwind =>
      cases h with
      | operand hbegins hoperands =>
        exact absurd ⟨before, [], _, _, rfl, hbegins, hoperands, ends_nil⟩ hnone
      | literal _ _ => exact hclose.elim
      | operator hcompletes =>
        exact hcompletes.exists_inPlace (Nat.zero_le _) hunwind (ends_nil.delimits 0)
  | cons lexeme after ih =>
    rw [run_cons, bind_assoc, Logged.outcome_bind_eq_error_iff] at hfails
    rcases hfails with hfails | ⟨w', hstep, hfails⟩
    · -- only an operator that is applied has a runtime error
      cases step_error_iff.mp hfails with
      | unwinding hunwind =>
        cases h with
        | operator hcompletes =>
          exact hcompletes.exists_inPlace (Nat.le_of_lt (Operator.precedence_lt_atomStrength _))
            hunwind (delimits_operator _ _ after)
      | @closing _ _ _ position _ hclose hunwind =>
        have hends : Ends (⟨.rightParen, position⟩ :: after) := ends_cons.mpr rfl
        cases h with
        | operand hbegins hoperands =>
          exact absurd ⟨before, _, _, _, rfl, hbegins, hoperands, hends⟩ hnone
        | literal _ _ => exact hclose.elim
        | operator hcompletes =>
          exact hcompletes.exists_inPlace (Nat.zero_le _) hunwind (hends.delimits 0)
    · rw [List.append_cons] at hnone ⊢
      rcases h.step (step_ok_iff.mp hstep) with hreads | ⟨hoperand, hclosing⟩
      · exact ih hreads hnone hfails
      · cases h with
        | operand hbegins hoperands =>
          exact absurd ⟨before, lexeme :: after, _, _, (List.append_cons _ _ _).symm, hbegins,
            hoperands, ends_cons.mpr hclosing⟩ hnone
        | literal _ _ => cases hoperand
        | operator _ => cases hoperand

/-- What delimits an operand settles it. -/
theorem absorbs_run {β : Type} {strength : Nat} {lexeme : Lexeme} {after : List Lexeme}
    (h : Delimits strength (lexeme :: after)) (last : Workspace α → Evaluation α β) :
    Absorbs strength fun w : Workspace α => w.run (lexeme :: after) >>= last := by
  have hrun : (fun w : Workspace α => w.run (lexeme :: after) >>= last) =
      fun w => w.step lexeme >>= fun w => w.run after >>= last := by
    funext w
    rw [run_cons, bind_assoc]
  rw [hrun]
  obtain ⟨token, position⟩ := lexeme
  rcases h _ rfl with hclosing | ⟨op, hop, hle⟩
  · obtain rfl : token = .rightParen := hclosing
    exact ((absorbs_rightParen position).bind _).mono (Nat.zero_le _)
  · obtain rfl : token = .operator op := hop
    exact ((absorbs_operator op position).bind _).mono hle

/-- **A run in its place that has no value** ends the evaluation where the text delimits it. -/
theorem outcome_run_of_inPlace {β : Type} {before run after : List Lexeme}
    {waiting : List Waiting} {values : List α} {strength : Nat} {tree : Expression}
    {cause : EvalError} (hbegins : Begins before waiting) (hoperands : Operands waiting values)
    (hfloor : Waiting.floor waiting ≤ strength) (hderives : Derives strength run tree)
    {last : Workspace α → Evaluation α β}
    (hlast : Absorbs strength fun w : Workspace α => w.run after >>= last)
    (hcause : (tree.evaluate : Evaluation α α).outcome = .error cause) :
    (Workspace.empty.run (before ++ run ++ after) >>= last).outcome = .error cause := by
  -- all before the run is taken in, and the run itself is evaluated as its tree
  rw [List.append_assoc, run_append, bind_assoc,
    Logged.outcome_bind_of_ok (run_of_begins hbegins hoperands), run_append, bind_assoc,
    run_bind_of_derives hderives _ _ (Waiting.stops_of_floor_le hfloor) hlast,
    Logged.outcome_bind_of_error hcause]

end Workspace

/-- The outcome of a text is the failure of a run in its place. -/
theorem InPlace.outcome_evaluateLexemes {lexemes run : List Lexeme} {tree : Expression}
    {cause : EvalError} (h : InPlace α lexemes run tree)
    (hcause : (tree.evaluate : Evaluation α α).outcome = .error cause) :
    (evaluateLexemes lexemes : Evaluation α α).outcome = .error cause := by
  cases h with
  | @intro _ _ after _ _ _ _ hbegins hoperands hfloor hderives hafter =>
    refine Workspace.outcome_run_of_inPlace hbegins hoperands hfloor hderives ?_ hcause
    cases after with
    | nil => exact Workspace.absorbs_finish.mono (Nat.zero_le _)
    | cons lexeme after => exact Workspace.absorbs_run hafter _

/-- **Where a run in its place has no value, no operand is missing:** up to there all are in their
places, and beyond it nothing is evaluated. -/
theorem InPlace.not_missesOperand {lexemes run : List Lexeme} {tree : Expression}
    {cause : EvalError} (h : InPlace α lexemes run tree)
    (hcause : (tree.evaluate : Evaluation α α).outcome = .error cause) :
    ¬MissesOperand α lexemes := by
  rintro ⟨before', after', waiting', values', hsplit, hbegins', hoperands', hends⟩
  cases h with
  | @intro before run after _ _ _ _ hbegins hoperands hfloor hderives hafter =>
    have htidy : Tidy (before ++ run) := hbegins.tidy.append hderives.tidy_completed.1
    have hcompleted : Completed (before ++ run) := hderives.tidy_completed.2.append_left before
    rcases List.append_eq_append_iff.mp hsplit with ⟨tail, hbefore', hafter'⟩ | ⟨tail, hrun, htail⟩
    · cases tail with
      | nil => exact hbegins'.not_completed (by rwa [hbefore', List.append_nil])
      | cons lexeme tail =>
        -- the missing operand comes after the run, which cannot be taken in
        subst hafter'
        have hok := Workspace.run_of_begins hbegins' hoperands'
        have hdelimits : Delimits _ (lexeme :: tail) := hafter
        have herror := Workspace.outcome_run_of_inPlace hbegins hoperands hfloor hderives
          (Workspace.absorbs_run hdelimits pure) hcause
        rw [bind_pure, ← hbefore', hok] at herror
        cases herror
    · cases tail with
      | nil => exact hbegins'.not_completed (by rwa [hrun, List.append_nil] at hcompleted)
      | cons lexeme tail =>
        -- the missing operand lies before the end of the run, where all is tidy
        rw [hrun] at htidy
        rw [htail] at hends
        exact hbegins'.not_completed (htidy.completed hends.of_append (List.cons_ne_nil _ _))

/-- **A runtime error is that of an expression in its place**, just if no operand is missing. -/
theorem evaluateLexemes_eq_runtime_iff {lexemes : List Lexeme} {why : RuntimeError} :
    (evaluateLexemes lexemes : Evaluation α α).outcome = .error (.runtime why) ∧
        ¬MissesOperand α lexemes ↔
      ∃ run tree, InPlace α lexemes run tree ∧
        (tree.evaluate : Evaluation α α).outcome = .error (.runtime why) := by
  constructor
  · rintro ⟨hfails, hnone⟩
    exact Workspace.reads_empty.exists_inPlace hnone hfails
  · rintro ⟨run, tree, hplace, hcause⟩
    exact ⟨hplace.outcome_evaluateLexemes hcause, hplace.not_missesOperand hcause⟩

/-- **A division by zero is one that the text contains**, just if no operand is missing: some run of
its lexemes is an expression by itself, stands where an operand is due, and divides by zero. Where
an operand is missing, the operators that wait are applied to operands of others, and may divide by
a zero that is not theirs. -/
theorem evaluateAs_eq_divisionByZero_iff (source : String) (lexemes : List Lexeme)
    (hscan : Lexeme.scan source = .ok lexemes) :
    (evaluateAs α source).outcome = .error (.runtime .divisionByZero) ∧
        ¬MissesOperand α lexemes ↔
      ∃ run tree, run <:+: lexemes ∧ Derives wholeStrength run tree ∧
        InPlace α lexemes run tree ∧
        (tree.evaluate : Evaluation α α).outcome = .error (.runtime .divisionByZero) := by
  rw [outcome_evaluateAs hscan, evaluateLexemes_eq_runtime_iff]
  constructor
  · rintro ⟨run, tree, hplace, hcause⟩
    exact ⟨run, tree, hplace.infix_derives.1, hplace.infix_derives.2, hplace, hcause⟩
  · rintro ⟨run, tree, -, -, hplace, hcause⟩
    exact ⟨run, tree, hplace, hcause⟩

/-- In `2*(4/0)` the quotient in the parentheses stands in its place and divides by zero. -/
theorem evaluateAs_eq_divisionByZero_of_quotient :
    Lexeme.scan "2*(4/0)" = .ok [⟨.number "2", 0⟩, ⟨.operator .mul, 1⟩, ⟨.leftParen, 2⟩,
        ⟨.number "4", 3⟩, ⟨.operator .div, 4⟩, ⟨.number "0", 5⟩, ⟨.rightParen, 6⟩] ∧
      (evaluateAs Integer64 "2*(4/0)").outcome = .error (.runtime .divisionByZero) := by
  have hscan : Lexeme.scan "2*(4/0)" = .ok [⟨.number "2", 0⟩, ⟨.operator .mul, 1⟩,
      ⟨.leftParen, 2⟩, ⟨.number "4", 3⟩, ⟨.operator .div, 4⟩, ⟨.number "0", 5⟩,
      ⟨.rightParen, 6⟩] := by decide +kernel
  have htwo : Derives Operator.mul.precedence [⟨.number "2", 0⟩] (.literal "2" 0) :=
    Derives.unsigned.weaken_of_le (by decide)
  have hquotient : Derives Operator.div.precedence
      ([⟨.number "4", 3⟩] ++ ⟨.operator .div, 4⟩ :: [⟨.number "0", 5⟩])
      (.binary .div (.literal "4" 3) (.literal "0" 5)) :=
    .binary (Derives.unsigned.weaken_of_le (by decide)) (Derives.unsigned.weaken_of_le (by decide))
  have hproduct : Begins [⟨.number "2", 0⟩, ⟨.operator .mul, 1⟩]
      [.operator (.literal "2" 0) .mul 1] := Begins.start.operator htwo (by decide)
  have hopen : Begins [⟨.number "2", 0⟩, ⟨.operator .mul, 1⟩, ⟨.leftParen, 2⟩]
      [.paren 2, .operator (.literal "2" 0) .mul 1] := hproduct.paren
  have hoperands : Operands [.paren 2, .operator (.literal "2" 0) .mul 1]
      [MachineInt.wrap ⟨.w64, true⟩ 2] := .paren (.operator (by decide +kernel) .nil)
  have hends : Ends [⟨.rightParen, 6⟩] := ends_cons.mpr rfl
  have hplace : InPlace Integer64 _ _ _ :=
    .intro hopen hoperands (by decide) hquotient (hends.delimits _)
  exact ⟨hscan, ((evaluateAs_eq_divisionByZero_iff _ _ hscan).mpr
    ⟨_, _, hplace.infix_derives.1, hplace.infix_derives.2, hplace, by decide +kernel⟩).1⟩

/-- In `5 - 0 /` nothing is divided by zero: the quotient has no right operand. Still that is what
is reported. -/
theorem divisionByZero_without_quotient :
    ∃ lexemes, Lexeme.scan "5 - 0 /" = .ok lexemes ∧
      (evaluateAs Integer64 "5 - 0 /").outcome = .error (.runtime .divisionByZero) ∧
      ¬∃ run tree, run <:+: lexemes ∧ Derives wholeStrength run tree ∧
        (tree.evaluate : Evaluation Integer64 _).outcome = .error (.runtime .divisionByZero) := by
  refine ⟨[⟨.number "5", 0⟩, ⟨.operator .sub, 2⟩, ⟨.number "0", 4⟩, ⟨.operator .div, 6⟩],
    by decide +kernel, by decide +kernel, ?_⟩
  rintro ⟨run, tree, hinfix, hderives, hcause⟩
  obtain ⟨tail, hprefix, hsuffix⟩ := List.infix_iff_prefix_suffix.mp hinfix
  -- of all runs, only the whole text divides by zero, and that is not an expression
  have hlast : ∀ tail ∈ List.tails [⟨.number "5", 0⟩, ⟨.operator .sub, 2⟩, ⟨.number "0", 4⟩,
        ⟨.operator .div, 6⟩], ∀ run ∈ List.inits tail,
      (evaluateLexemes run : Evaluation Integer64 _).outcome = .error (.runtime .divisionByZero) →
        run.getLast? = some ⟨.operator .div, 6⟩ := by decide +kernel
  rw [← evaluateLexemes_of_derives hderives] at hcause
  have hrun := hlast tail ((List.mem_tails _ _).mpr hsuffix) run ((List.mem_inits _ _).mpr hprefix)
    hcause
  obtain ⟨last, hmem, hopens⟩ := hderives.tidy_completed.2
  rw [hrun] at hmem
  cases hmem
  cases hopens

end DeskCalc
