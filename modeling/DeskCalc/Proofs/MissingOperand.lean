import DeskCalc.Integer
import DeskCalc.Proofs.Literals
import Mathlib.Data.List.Induction

/-! # The operator that is reported for a missing operand

Where an operand is missing, the operators that wait are applied all the same, each to the two
values on top. The first of them takes a value from below for its missing operand, if there is one;
it is reported only if there is none.

* **`Workspace.exists_position_of_missingOperand`** — what is reported is an operator that waits or
  that is still to come.
* **`Ends`** — the places where no operand can follow.
* **`evaluateAs_eq_missingOperand_iff`** — the operator before such a place is reported just if no
  other operator waits before it. -/

namespace DeskCalc

/-- A literal without a value is reported, and nothing else. -/
theorem eq_invalidNumber_of_readNumber {α : Type} [Numeric α] {literal : String} {position : Nat}
    {cause : ParseError} (h : (readNumber literal position : Except ParseError α) = .error cause) :
    cause = .invalidNumber literal position :=
  (readNumber_error_iff.mp h).2

namespace Workspace

variable {α : Type} [Numeric α]

/-! ## Where missing operands are reported -/

/-- Unwinding takes entries off the top only. -/
theorem Unwinds.suffix {strength : Nat} {held held' : List Held} {values values' : List α}
    (h : Unwinds strength held values held' values') : held' <:+ held := by
  induction h with
  | stop _ => exact List.suffix_rfl
  | apply _ _ _ ih => exact ih.trans (List.suffix_cons _ _)

/-- A step lets nothing wait but what waited before, and the lexeme itself. -/
theorem Steps.mem_held {w w' : Workspace α} {lexeme : Lexeme} (h : Steps w lexeme w') :
    ∀ entry ∈ w'.held, entry ∈ w.held ∨ entry.position = lexeme.position := by
  intro entry hentry
  cases h with
  | literal _ | sign | negative _ => exact .inl hentry
  | opening =>
    rcases List.mem_cons.mp hentry with rfl | hentry
    · exact .inr rfl
    · exact .inl hentry
  | operator hunwinds =>
    rcases List.mem_cons.mp hentry with rfl | hentry
    · exact .inr rfl
    · exact .inl (hunwinds.suffix.subset hentry)
  | closing _ hunwinds => exact .inl (hunwinds.suffix.subset (List.mem_cons_of_mem _ hentry))

variable {symbol : Char} {position : Nat}

/-- An operator that lacks an operand when it is applied has waited. -/
theorem UnwindFails.exists_held {strength : Nat} {held : List Held} {values : List α}
    (h : UnwindFails strength held values (.parse (.missingOperand symbol position))) :
    ∃ entry ∈ held, entry.position = position := by
  generalize hcause : EvalError.parse (.missingOperand symbol position) = cause at h
  induction h with
  | here _ hfails =>
    rcases applyOperator_error_iff.mp hfails with ⟨_, _, _, _, _, _, rfl⟩ | ⟨_, rfl⟩
    · cases hcause
    · cases hcause
      exact ⟨_, List.mem_cons_self, rfl⟩
  | later _ _ _ ih =>
    obtain ⟨entry, hentry, hposition⟩ := ih hcause
    exact ⟨entry, List.mem_cons_of_mem _ hentry, hposition⟩

/-- An operator that lacks an operand at a step has waited, or comes now. -/
theorem StepFails.exists_held {w : Workspace α} {lexeme : Lexeme}
    (h : StepFails w lexeme (.parse (.missingOperand symbol position))) :
    (∃ entry ∈ w.held, entry.position = position) ∨ lexeme.position = position := by
  cases h with
  | literal hvalue => cases eq_invalidNumber_of_readNumber hvalue
  | negative hvalue => cases eq_invalidNumber_of_readNumber hvalue
  | operand _ => exact .inr rfl
  | unwinding hfails => exact .inl hfails.exists_held
  | closing _ hfails => exact .inl hfails.exists_held

/-- An operator that lacks an operand at the end has waited. -/
theorem FinishFails.exists_held {w : Workspace α}
    (h : FinishFails w (.parse (.missingOperand symbol position))) :
    ∃ entry ∈ w.held, entry.position = position := by
  cases h with
  | unwinding _ hfails => exact hfails.exists_held

/-- **What is reported for a missing operand** is an operator that waits, or one that is still to
come. -/
theorem exists_position_of_missingOperand {w : Workspace α} {lexemes : List Lexeme}
    (h : (w.run lexemes >>= finish).outcome = .error (.parse (.missingOperand symbol position))) :
    (∃ entry ∈ w.held, entry.position = position) ∨
      ∃ lexeme ∈ lexemes, lexeme.position = position := by
  induction lexemes generalizing w with
  | nil =>
    rw [run_nil, pure_bind] at h
    exact .inl (finish_error_iff.mp h).exists_held
  | cons lexeme lexemes ih =>
    rw [run_cons, bind_assoc, Logged.outcome_bind_eq_error_iff] at h
    rcases h with hfails | ⟨w', hstep, h⟩
    · rcases (step_error_iff.mp hfails).exists_held with hheld | hposition
      · exact .inl hheld
      · exact .inr ⟨lexeme, List.mem_cons_self, hposition⟩
    · rcases ih h with ⟨entry, hentry, hposition⟩ | ⟨later, hlater, hposition⟩
      · -- what waits after the step has waited before, or is the lexeme
        rcases (step_ok_iff.mp hstep).mem_held entry hentry with hheld | hlexeme
        · exact .inl ⟨entry, hheld, hposition⟩
        · exact .inr ⟨lexeme, List.mem_cons_self, hlexeme ▸ hposition⟩
      · exact .inr ⟨later, List.mem_cons_of_mem _ hlater, hposition⟩

end Workspace

/-! ## Places where no operand can follow -/

/-- **Whether no operand can follow:** the expression ends here, or a parenthesis closes. -/
def Ends (lexemes : List Lexeme) : Prop :=
  ∀ lexeme ∈ lexemes.head?, lexeme.token = .rightParen

/-- The expression ends. -/
theorem ends_nil : Ends [] :=
  fun _ hlexeme => nomatch hlexeme

/-- A parenthesis closes. -/
theorem ends_cons {lexeme : Lexeme} {lexemes : List Lexeme} :
    Ends (lexeme :: lexemes) ↔ lexeme.token = .rightParen :=
  ⟨fun h => h lexeme rfl, fun h _ hlexeme => Option.some.inj hlexeme ▸ h⟩

namespace Workspace

variable {α : Type} [Numeric α] {held : List Held} {values : List α} {after : List Lexeme}

/-- **Where no operand follows, all operators on top are applied**, and the first that cannot be is
the outcome. -/
theorem outcome_of_unwindFails (hends : Ends after) {cause : EvalError}
    (h : UnwindFails 0 held values cause) {expecting : Expecting} (hclose : expecting.MayClose) :
    ((⟨held, values, expecting⟩ : Workspace α).run after >>= finish).outcome = .error cause := by
  cases after with
  | nil =>
    rw [run_nil, pure_bind]
    exact finish_error_iff.mpr (.unwinding hclose h)
  | cons lexeme after =>
    obtain ⟨token, position⟩ := lexeme
    obtain rfl : token = .rightParen := ends_cons.mp hends
    rw [run_cons, bind_assoc]
    exact Logged.outcome_bind_of_error (step_error_iff.mpr (.closing hclose h)) _

/-- An operator without any operand but its left one is reported. -/
theorem outcome_of_one_value (hends : Ends after) (op : Operator) (position : Nat)
    (held : List Held) (value : α) :
    ((⟨.operator op position :: held, [value], .operand⟩ : Workspace α).run after >>=
      finish).outcome = .error (.parse (.missingOperand op.symbol position)) :=
  outcome_of_unwindFails hends (.here (Nat.zero_le _) rfl) trivial

/-- **An operator that takes another's value is not reported:** with two values on top, it is some
other operator that may lack an operand. -/
theorem exists_position_of_two_values (hends : Ends after) {op : Operator} {opPosition : Nat}
    {right left : α} {symbol : Char} {position : Nat}
    (h : ((⟨.operator op opPosition :: held, right :: left :: values, .operand⟩ :
        Workspace α).run after >>= finish).outcome =
      .error (.parse (.missingOperand symbol position))) :
    (∃ entry ∈ held, entry.position = position) ∨ ∃ lexeme ∈ after, lexeme.position = position := by
  -- the operator has its two values, so that only one below it can lack an operand
  have hfails : UnwindFails 0 (.operator op opPosition :: held) (right :: left :: values)
      (.parse (.missingOperand symbol position)) → ∃ entry ∈ held, entry.position = position := by
    intro hfails
    cases hfails with
    | here _ hfails =>
      rcases applyOperator_error_iff.mp hfails with ⟨_, _, _, _, _, _, hcause⟩ | ⟨hlength, _⟩
      · cases hcause
      · exact absurd hlength (by simp)
    | later _ _ hfails => exact hfails.exists_held
  cases after with
  | nil =>
    rw [run_nil, pure_bind] at h
    cases finish_error_iff.mp h with
    | unwinding _ hunwind => exact .inl (hfails hunwind)
  | cons lexeme after =>
    obtain ⟨token, closing⟩ := lexeme
    obtain rfl : token = .rightParen := ends_cons.mp hends
    rw [run_cons, bind_assoc, Logged.outcome_bind_eq_error_iff] at h
    rcases h with hstep | ⟨w', hstep, h⟩
    · cases step_error_iff.mp hstep with
      | closing _ hunwind => exact .inl (hfails hunwind)
    · rcases exists_position_of_missingOperand h with ⟨entry, hentry, hposition⟩ | hlater
      · -- what still waits has waited below the operator, which is applied by now
        cases step_ok_iff.mp hstep with
        | closing _ hunwinds =>
          cases hunwinds with
          | apply _ _ hunwinds =>
            exact .inl ⟨entry, hunwinds.suffix.subset (List.mem_cons_of_mem _ hentry), hposition⟩
      · obtain ⟨later, hlater, hposition⟩ := hlater
        exact .inr ⟨later, List.mem_cons_of_mem _ hlater, hposition⟩

end Workspace

/-! ## The operator before such a place -/

namespace Begins

variable {lexemes : List Lexeme} {waiting : List Waiting}

/-- What waits stands in the text. -/
theorem exists_lexeme (h : Begins lexemes waiting) :
    ∀ entry ∈ waiting.map Waiting.held, ∃ lexeme ∈ lexemes, lexeme.position = entry.position := by
  induction h with
  | start => exact List.forall_mem_nil _
  | paren _ ih =>
    refine List.forall_mem_cons.mpr ⟨⟨_, List.mem_append_right _ List.mem_cons_self, rfl⟩, ?_⟩
    intro entry hentry
    obtain ⟨lexeme, hlexeme, hposition⟩ := ih entry hentry
    exact ⟨lexeme, List.mem_append_left _ hlexeme, hposition⟩
  | operator _ _ _ ih =>
    refine List.forall_mem_cons.mpr ⟨⟨_, List.mem_append_right _ List.mem_cons_self, rfl⟩, ?_⟩
    intro entry hentry
    obtain ⟨lexeme, hlexeme, hposition⟩ := ih entry hentry
    exact ⟨lexeme, List.mem_append_left _ (List.mem_append_left _ hlexeme), hposition⟩

/-- A beginning that ends with an operator has that operator's left operand before it. -/
theorem exists_left {op : Operator} {position : Nat}
    (h : Begins (lexemes ++ [⟨.operator op, position⟩]) waiting) :
    ∃ before operand below left, lexemes = before ++ operand ∧
      waiting = .operator left op position :: below ∧ Begins before below ∧
      Derives op.precedence operand left := by
  generalize htext : lexemes ++ [⟨.operator op, position⟩] = text at h
  cases h with
  | start => exact absurd htext (by simp)
  | paren _ => cases (List.append_inj' htext rfl).2
  | operator hbegins hleft _ =>
    obtain ⟨rfl, hlast⟩ := List.append_inj' htext rfl
    cases hlast
    exact ⟨_, _, _, _, rfl, rfl, hbegins, hleft⟩

/-- Opening parentheses begin an expression in which no operator waits. -/
theorem of_leftParens (h : ∀ lexeme ∈ lexemes, lexeme.token = .leftParen) :
    ∃ parens, Begins lexemes parens ∧ Waiting.floor parens = wholeStrength ∧
      ∀ (α : Type) [Numeric α] (values : List α), Operands parens values → values = [] := by
  induction lexemes using List.reverseRecOn with
  | nil => exact ⟨[], .start, rfl, fun _ _ _ hnil => by cases hnil; rfl⟩
  | append_singleton lexemes lexeme ih =>
    obtain ⟨token, position⟩ := lexeme
    obtain rfl : token = .leftParen := h _ (List.mem_append_right _ List.mem_cons_self)
    obtain ⟨parens, hbegins, -, hnone⟩ :=
      ih fun lexeme hlexeme => h lexeme (List.mem_append_left _ hlexeme)
    refine ⟨.paren position :: parens, hbegins.paren, rfl, fun α _ values hoperands => ?_⟩
    cases hoperands with
    | paren hoperands => exact hnone α values hoperands

/-- Where no operator waits, there are opening parentheses only. -/
theorem leftParen_of_operands_nil {α : Type} [Numeric α] (h : Begins lexemes waiting)
    (hoperands : Operands waiting ([] : List α)) :
    ∀ lexeme ∈ lexemes, lexeme.token = .leftParen := by
  induction h with
  | start => exact List.forall_mem_nil _
  | paren _ ih =>
    cases hoperands with
    | paren hoperands =>
      intro lexeme hlexeme
      rcases List.mem_append.mp hlexeme with hlexeme | hlexeme
      · exact ih hoperands lexeme hlexeme
      · rw [List.mem_singleton.mp hlexeme]
  | operator _ _ _ _ => cases hoperands

end Begins

section Reports

variable {α : Type} [Numeric α] {before after : List Lexeme} {op : Operator} {position : Nat}
  {waiting : List Waiting} {values : List α}

/-- **The operator before a place where no operand can follow** is reported just if no other
operator waits before it. -/
theorem evaluateLexemes_eq_missingOperand_iff
    (hbegins : Begins (before ++ [⟨.operator op, position⟩]) waiting)
    (hoperands : Operands waiting values) (hends : Ends after)
    (hfresh : ∀ lexeme ∈ before ++ after, lexeme.position ≠ position) :
    (evaluateLexemes (before ++ ⟨.operator op, position⟩ :: after) :
        Evaluation α α).outcome = .error (.parse (.missingOperand op.symbol position)) ↔
      ∃ opens left tree, before = opens ++ left ∧
        (∀ lexeme ∈ opens, lexeme.token = .leftParen) ∧ Derives op.precedence left tree := by
  have hrun := Workspace.run_of_begins hbegins hoperands
  rw [evaluateLexemes, List.append_cons, Workspace.run_append, bind_assoc,
    Logged.outcome_bind_of_ok hrun]
  constructor
  · intro hreported
    obtain ⟨lexemes, operand, below, left, rfl, rfl, hbegins, hleft⟩ := hbegins.exists_left
    cases hoperands with
    | @operator _ rest _ _ _ value _ hoperands =>
      cases rest with
      | nil =>
        exact ⟨lexemes, operand, left, rfl, hbegins.leftParen_of_operands_nil hoperands, hleft⟩
      | cons other rest =>
        -- the operator takes the value of another one, and is not to be found any more
        exfalso
        rcases Workspace.exists_position_of_two_values hends hreported with
          ⟨entry, hentry, hposition⟩ | ⟨lexeme, hlexeme, hposition⟩
        · obtain ⟨lexeme, hlexeme, heq⟩ := hbegins.exists_lexeme entry hentry
          exact hfresh lexeme (List.mem_append_left _ (List.mem_append_left _ hlexeme))
            (heq.trans hposition)
        · exact hfresh lexeme (List.mem_append_right _ hlexeme) hposition
  · rintro ⟨opens, left, tree, rfl, hopens, hleft⟩
    obtain ⟨parens, hparens, hfloor, hnone⟩ := Begins.of_leftParens hopens
    have hbegins' : Begins (opens ++ left ++ [⟨.operator op, position⟩])
        (.operator tree op position :: parens) :=
      hparens.operator hleft (hfloor ▸ op.one_le_precedence)
    -- the left operand has a value, since all before the operator is taken in
    obtain ⟨values', hoperands'⟩ := Workspace.exists_operands_of_run hbegins' hrun
    rw [Except.ok.inj (hrun.symm.trans (Workspace.run_of_begins hbegins' hoperands'))]
    cases hoperands' with
    | operator _ hbelow =>
      obtain rfl := hnone α _ hbelow
      exact Workspace.outcome_of_one_value hends op position _ _

/-- **An operator left without its right operand** is reported, with its own symbol and place, just
if nothing but opening parentheses stands before its left operand. Where another operator waits
there, the last one takes that operator's left operand for its own: it yields a value or a runtime
error, and if an operator is reported, then another. -/
theorem evaluateAs_eq_missingOperand_iff {source : String}
    (hscan : Lexeme.scan source = .ok (before ++ ⟨.operator op, position⟩ :: after))
    (hbegins : Begins (before ++ [⟨.operator op, position⟩]) waiting)
    (hoperands : Operands waiting values) (hends : Ends after) :
    (evaluateAs α source).outcome = .error (.parse (.missingOperand op.symbol position)) ↔
      ∃ opens left tree, before = opens ++ left ∧
        (∀ lexeme ∈ opens, lexeme.token = .leftParen) ∧ Derives op.precedence left tree := by
  rw [outcome_evaluateAs hscan]
  refine evaluateLexemes_eq_missingOperand_iff hbegins hoperands hends fun lexeme hlexeme => ?_
  -- no other lexeme stands at the place of the operator
  obtain ⟨-, hright, hleft⟩ := List.pairwise_append.mp (Lexeme.pairwise_position_of_scan hscan)
  rcases List.mem_append.mp hlexeme with hlexeme | hlexeme
  · exact Nat.ne_of_lt (hleft lexeme hlexeme _ List.mem_cons_self)
  · exact Nat.ne_of_gt ((List.pairwise_cons.mp hright).1 lexeme hlexeme)

end Reports

/-- In `(2*3+)` only a parenthesis stands before the product, so that the sum is reported. -/
theorem evaluateAs_eq_missingOperand_of_leftParen :
    Lexeme.scan "(2*3+)" = .ok ([⟨.leftParen, 0⟩, ⟨.number "2", 1⟩, ⟨.operator .mul, 2⟩,
        ⟨.number "3", 3⟩] ++ ⟨.operator .add, 4⟩ :: [⟨.rightParen, 5⟩]) ∧
      (evaluateAs Integer64 "(2*3+)").outcome = .error (.parse (.missingOperand '+' 4)) := by
  have hscan : Lexeme.scan "(2*3+)" = .ok ([⟨.leftParen, 0⟩, ⟨.number "2", 1⟩, ⟨.operator .mul, 2⟩,
      ⟨.number "3", 3⟩] ++ ⟨.operator .add, 4⟩ :: [⟨.rightParen, 5⟩]) := by decide +kernel
  have hproduct : Derives Operator.mul.precedence
      ([⟨.number "2", 1⟩] ++ ⟨.operator .mul, 2⟩ :: [⟨.number "3", 3⟩])
      (.binary .mul (.literal "2" 1) (.literal "3" 3)) :=
    .binary (Derives.unsigned.weaken_of_le (by decide)) (Derives.unsigned.weaken_of_le (by decide))
  have hleft : Derives Operator.add.precedence _ _ := hproduct.weaken
  have hvalue : (Expression.binary .mul (.literal "2" 1) (.literal "3" 3)).evaluate.outcome =
      .ok (MachineInt.wrap ⟨.w64, true⟩ 6) := by decide +kernel
  have hopen : Begins [⟨.leftParen, 0⟩] [.paren 0] := Begins.start.paren
  have hbegins : Begins ([⟨.leftParen, 0⟩, ⟨.number "2", 1⟩, ⟨.operator .mul, 2⟩,
      ⟨.number "3", 3⟩] ++ [⟨.operator .add, 4⟩]) (.operator _ .add 4 :: [.paren 0]) :=
    hopen.operator hleft (by decide)
  have hoperands : Operands (.operator _ .add 4 :: [.paren 0]) [MachineInt.wrap ⟨.w64, true⟩ 6] :=
    .operator hvalue (.paren .nil)
  refine ⟨hscan, ?_⟩
  exact (evaluateAs_eq_missingOperand_iff hscan hbegins hoperands (ends_cons.mpr rfl)).mpr
    ⟨[⟨.leftParen, 0⟩], _, _, rfl, by decide, hleft⟩

/-- In `5 - 0 /` the difference waits before the quotient, which is not reported: it takes the
difference's left operand for its own, and divides that by its own left operand. -/
theorem evaluateAs_quotient_without_operand :
    Lexeme.scan "5 - 0 /" = .ok ([⟨.number "5", 0⟩, ⟨.operator .sub, 2⟩, ⟨.number "0", 4⟩] ++
        ⟨.operator .div, 6⟩ :: []) ∧
      (∃ waiting, ∃ values : List Integer64,
        Begins ([⟨.number "5", 0⟩, ⟨.operator .sub, 2⟩, ⟨.number "0", 4⟩] ++ [⟨.operator .div, 6⟩])
          waiting ∧ Operands waiting values) ∧
      Ends [] ∧
      (evaluateAs Integer64 "5 - 0 /").outcome = .error (.runtime .divisionByZero) := by
  have hfive : Derives Operator.sub.precedence [⟨.number "5", 0⟩] (.literal "5" 0) :=
    Derives.unsigned.weaken_of_le (by decide)
  have hzero : Derives Operator.div.precedence [⟨.number "0", 4⟩] (.literal "0" 4) :=
    Derives.unsigned.weaken_of_le (by decide)
  have hminus : Begins [⟨.number "5", 0⟩, ⟨.operator .sub, 2⟩]
      [.operator (.literal "5" 0) .sub 2] :=
    Begins.start.operator hfive (by decide)
  have hbegins : Begins ([⟨.number "5", 0⟩, ⟨.operator .sub, 2⟩, ⟨.number "0", 4⟩] ++
      [⟨.operator .div, 6⟩])
        [.operator (.literal "0" 4) .div 6, .operator (.literal "5" 0) .sub 2] :=
    hminus.operator hzero (by decide)
  have hoperands : Operands
      [.operator (.literal "0" 4) .div 6, .operator (.literal "5" 0) .sub 2]
      [MachineInt.wrap ⟨.w64, true⟩ 0, MachineInt.wrap ⟨.w64, true⟩ 5] :=
    .operator (by decide +kernel) (.operator (by decide +kernel) .nil)
  exact ⟨by decide +kernel, ⟨_, _, hbegins, hoperands⟩, ends_nil, by decide +kernel⟩

/-- Neither is a product that takes the left operand of a sum: the sum is reported in its stead. -/
example : (evaluateAs Integer64 "1 + 2 *").outcome = .error (.parse (.missingOperand '+' 2)) := by
  decide +kernel

end DeskCalc
