import DeskCalc.Proofs.Settling

/-! # Reading the beginning of an expression

What the evaluator's two stacks mean while every operand is where it belongs: each operator that
waits has its left operand complete in the text, and the values are those of these operands.

* **`Waiting`**, **`Begins`** — the beginnings of expressions that an operand can follow, with the
  operators and parentheses that wait for it.
* **`EndsWith`** — the beginnings that end with a complete operand.
* **`Operands`** — the values of the left operands that wait.
* **`Workspace.run_of_begins`** — such a beginning leads to the stacks that it describes.
* **`Workspace.Reads`**, **`Workspace.Reads.step`** — and every step keeps the stacks so, unless a
  parenthesis closes where an operand is missing. -/

namespace DeskCalc

/-! ## What waits in a text -/

/-- **What waits for an operand in a text.** -/
inductive Waiting where
  /-- An operator with its left operand. -/
  | operator (left : Expression) (op : Operator) (position : Nat)
  /-- A parenthesis that is still open. -/
  | paren (position : Nat)

namespace Waiting

/-- The entry of the evaluator's stack. -/
def held : Waiting → Held
  | operator _ op position => .operator op position
  | paren position => .paren position

/-- **How strongly the next operand must hold together** for what waits on top to take all of it. -/
def floor : List Waiting → Nat
  | operator _ op _ :: _ => op.precedence + 1
  | _ => wholeStrength

end Waiting

/-- Every operator may stand in a whole expression. -/
theorem Operator.one_le_precedence (op : Operator) : 1 ≤ op.precedence := by
  cases op <;> decide

/-- No operator breaks up a literal, or an expression in parentheses. -/
theorem Operator.precedence_lt_atomStrength (op : Operator) : op.precedence < atomStrength := by
  cases op <;> decide

/-- A literal, or an expression in parentheses, holds together anywhere. -/
theorem Waiting.floor_le_atomStrength (waiting : List Waiting) : floor waiting ≤ atomStrength := by
  match waiting with
  | [] => exact Nat.le_of_ble_eq_true rfl
  | .paren _ :: _ => exact Nat.le_of_ble_eq_true rfl
  | .operator _ op _ :: _ => exact op.precedence_lt_atomStrength

/-- What waits asks for an expression at least. -/
theorem Waiting.wholeStrength_le_floor (waiting : List Waiting) :
    wholeStrength ≤ floor waiting := by
  match waiting with
  | [] => exact Nat.le_refl _
  | .paren _ :: _ => exact Nat.le_refl _
  | .operator _ op _ :: _ => exact Nat.le_add_left _ _

/-- An operand that holds together is left alone by what waits below it. -/
theorem Waiting.stops_of_floor_le {waiting : List Waiting} {strength : Nat}
    (h : floor waiting ≤ strength) : Workspace.Stops strength (waiting.map held) := by
  match waiting, h with
  | [], _ => trivial
  | .paren _ :: _, _ => trivial
  | .operator _ _ _ :: _, hlt => exact hlt

/-- Where an operator stops unwinding, its left operand holds together. -/
theorem Waiting.floor_le_of_stops {waiting : List Waiting} {op : Operator}
    (h : Workspace.Stops op.precedence (waiting.map held)) : floor waiting ≤ op.precedence := by
  match waiting, h with
  | [], _ => exact op.one_le_precedence
  | .paren _ :: _, _ => exact op.one_le_precedence
  | .operator _ _ _ :: _, hlt => exact hlt

/-- A tree of greater strength may stand where less is asked for. -/
theorem Derives.weaken_of_le {strength level : Nat} {lexemes : List Lexeme} {tree : Expression}
    (h : Derives level lexemes tree) (hle : strength ≤ level) : Derives strength lexemes tree := by
  induction hle with
  | refl => exact h
  | step _ ih => exact ih h.weaken

/-! ## Beginnings of expressions -/

/-- **The beginnings of expressions that an operand can follow.** `Begins lexemes waiting` says that
operands and operators alternate in the lexemes, that each closing parenthesis closes one around a
whole expression, and that `waiting` is what waits for the next operand, the latest first. -/
inductive Begins : List Lexeme → List Waiting → Prop
  /-- Nothing has come yet. -/
  | start : Begins [] []
  /-- An opening parenthesis. -/
  | paren {lexemes : List Lexeme} {waiting : List Waiting} {position : Nat} :
      Begins lexemes waiting →
      Begins (lexemes ++ [⟨.leftParen, position⟩]) (.paren position :: waiting)
  /-- A left operand and its operator. The operand holds together against what waits before it. -/
  | operator {lexemes operand : List Lexeme} {waiting : List Waiting} {left : Expression}
      {op : Operator} {position : Nat} :
      Begins lexemes waiting → Derives op.precedence operand left →
      Waiting.floor waiting ≤ op.precedence →
      Begins (lexemes ++ operand ++ [⟨.operator op, position⟩])
        (.operator left op position :: waiting)

/-- **The beginnings of expressions that end with a complete operand.** The operand holds together
against what waits before it, and at least with the strength `level`. -/
inductive EndsWith (level : Nat) : List Lexeme → List Waiting → Expression → Prop
  /-- A beginning, and an operand after it. -/
  | intro {lexemes operand : List Lexeme} {waiting : List Waiting} {tree : Expression}
      {strength : Nat} :
      Begins lexemes waiting → Derives strength operand tree →
      Waiting.floor waiting ≤ strength → level ≤ strength →
      EndsWith level (lexemes ++ operand) waiting tree

namespace EndsWith

variable {level : Nat} {lexemes : List Lexeme} {waiting : List Waiting} {tree : Expression}

/-- Less strength is there as well. -/
theorem mono {strength : Nat} (h : EndsWith level lexemes waiting tree) (hle : strength ≤ level) :
    EndsWith strength lexemes waiting tree := by
  obtain ⟨hbegins, hderives, hfloor, hlevel⟩ := h
  exact ⟨hbegins, hderives, hfloor, Nat.le_trans hle hlevel⟩

/-- A literal, or an expression in parentheses, is an operand anywhere. -/
theorem of_atom {before operand : List Lexeme} (hbegins : Begins before waiting)
    (h : Derives atomStrength operand tree) :
    EndsWith atomStrength (before ++ operand) waiting tree :=
  ⟨hbegins, h, Waiting.floor_le_atomStrength waiting, Nat.le_refl _⟩

/-- **An operator that waits takes the operand after it**, and both make the next operand. -/
theorem binary {left : Expression} {op : Operator} {position : Nat}
    (h : EndsWith level lexemes (.operator left op position :: waiting) tree)
    (hop : level ≤ op.precedence) :
    EndsWith level lexemes waiting (.binary op left tree) := by
  cases h with
  | intro hbegins hright hfloor _ =>
    cases hbegins with
    | operator hbegins hleft hfloorLeft =>
      -- the text is the beginning below, and then left operand, operator and right operand
      rw [List.append_assoc, List.append_assoc]
      exact .intro hbegins (.binary hleft (hright.weaken_of_le hfloor)) hfloorLeft hop

/-- **A parenthesis closes around the operand after it**, and both make the next operand. -/
theorem closing {partner position : Nat}
    (h : EndsWith level lexemes (.paren partner :: waiting) tree) :
    EndsWith atomStrength (lexemes ++ [⟨.rightParen, position⟩]) waiting tree := by
  cases h with
  | @intro _ inside _ _ _ hbegins hderives hfloor _ =>
    cases hbegins with
    | paren hbegins =>
      have hatom : Derives atomStrength
          (⟨.leftParen, partner⟩ :: inside ++ [⟨.rightParen, position⟩]) tree :=
        .parenthesized (hderives.weaken_of_le hfloor)
      rw [List.append_assoc, List.append_assoc]
      exact of_atom hbegins hatom

/-- An operator comes after the operand, which becomes its left one. -/
theorem operator {op : Operator} {position : Nat}
    (h : EndsWith op.precedence lexemes waiting tree)
    (hstops : Workspace.Stops op.precedence (waiting.map Waiting.held)) :
    Begins (lexemes ++ [⟨.operator op, position⟩]) (.operator tree op position :: waiting) := by
  obtain ⟨hbegins, hderives, -, hlevel⟩ := h
  exact .operator hbegins (hderives.weaken_of_le hlevel) (Waiting.floor_le_of_stops hstops)

/-- Where nothing else waits, the operand is the whole expression. -/
theorem derives (h : EndsWith level lexemes [] tree) : Derives wholeStrength lexemes tree := by
  cases h with
  | intro hbegins hderives hfloor _ =>
    cases hbegins
    exact hderives.weaken_of_le hfloor

end EndsWith

/-! ## Values of what waits -/

section Values

variable {α : Type} [Numeric α]

/-- **The values of the left operands that wait**, the latest first: each of them has one. -/
inductive Operands : List Waiting → List α → Prop
  /-- Nothing waits. -/
  | nil : Operands [] []
  /-- A parenthesis has no value. -/
  | paren {waiting : List Waiting} {values : List α} {position : Nat} :
      Operands waiting values → Operands (.paren position :: waiting) values
  /-- An operator waits with the value of its left operand. -/
  | operator {waiting : List Waiting} {values : List α} {left : Expression} {op : Operator}
      {position : Nat} {value : α} :
      left.evaluate.outcome = .ok value → Operands waiting values →
      Operands (.operator left op position :: waiting) (value :: values)

/-- The value of a literal is the number that is read. -/
theorem Expression.outcome_literal_ok_iff {text : String} {position : Nat} {value : α} :
    (Expression.literal text position).evaluate.outcome = .ok value ↔
      readNumber text position = .ok value := by
  rw [Expression.evaluate]
  cases (readNumber text position : Except ParseError α) with
  | error cause =>
    constructor
    · rintro ⟨⟩
    · rintro ⟨⟩
  | ok number =>
    constructor
    · rintro ⟨⟩
      rfl
    · rintro ⟨⟩
      rfl

/-- The value of an operator's tree, from those of its operands. -/
theorem Expression.outcome_binary {op : Operator} {left right : Expression} {a b : α}
    (ha : left.evaluate.outcome = .ok a) (hb : right.evaluate.outcome = .ok b) :
    (Expression.binary op left right).evaluate.outcome =
      (op.apply a b).mapError EvalError.runtime := by
  rw [Expression.evaluate, Logged.outcome_bind_of_ok ha, Logged.outcome_bind_of_ok hb,
    Logged.outcome_bind]
  cases op.apply a b <;> rfl

namespace Workspace

/-- **A beginning leads to the stacks that it describes:** if its left operands have values, it is
taken in without a failure. -/
theorem run_of_begins {lexemes : List Lexeme} {waiting : List Waiting} {values : List α}
    (hbegins : Begins lexemes waiting) (hoperands : Operands waiting values) :
    (Workspace.empty.run lexemes).outcome =
      .ok (⟨waiting.map Waiting.held, values, .operand⟩ : Workspace α) := by
  induction hbegins generalizing values with
  | start =>
    cases hoperands
    rfl
  | paren _ ih =>
    cases hoperands with
    | paren hoperands =>
      rw [run_concat, Logged.outcome_bind_of_ok (ih hoperands)]
      rfl
  | @operator before operand waiting left op position _ hleft hfloor ih =>
    cases hoperands with
    | operator hvalue hoperands =>
      -- the operator settles its left operand, and nothing of what waits below
      have hstops := Waiting.stops_of_floor_le hfloor
      rw [List.append_assoc, run_append, Logged.outcome_bind_of_ok (ih hoperands), run_concat,
        run_bind_of_derives hleft _ _ hstops (absorbs_operator op position),
        Logged.outcome_bind_of_ok hvalue]
      exact step_ok_iff.mpr (.operator (.stop hstops))

/-- **What a beginning leads to shows its values:** if it is taken in without a failure, its left
operands have values. -/
theorem exists_operands_of_run {lexemes : List Lexeme} {waiting : List Waiting} {w : Workspace α}
    (hbegins : Begins lexemes waiting) (hrun : (Workspace.empty.run lexemes).outcome = .ok w) :
    ∃ values : List α, Operands waiting values := by
  induction hbegins generalizing w with
  | start => exact ⟨[], .nil⟩
  | paren _ ih =>
    rw [run_append, Logged.outcome_bind_eq_ok_iff] at hrun
    obtain ⟨_, hrun, -⟩ := hrun
    obtain ⟨values, hoperands⟩ := ih hrun
    exact ⟨values, hoperands.paren⟩
  | @operator before operand waiting left op position hbegins hleft hfloor ih =>
    rw [List.append_assoc, run_append, Logged.outcome_bind_eq_ok_iff] at hrun
    obtain ⟨_, hbefore, hrun⟩ := hrun
    obtain ⟨values, hoperands⟩ := ih hbefore
    -- the stacks before the operand are those described, so that the operand has been evaluated
    have hstate := run_of_begins hbegins hoperands
    rw [hbefore] at hstate
    cases hstate
    rw [run_concat, run_bind_of_derives hleft _ _ (Waiting.stops_of_floor_le hfloor)
      (absorbs_operator op position), Logged.outcome_bind_eq_ok_iff] at hrun
    obtain ⟨value, hvalue, -⟩ := hrun
    exact ⟨value :: values, hoperands.operator hvalue⟩

/-! ## Complete operands on the stacks -/

/-- **Lexemes that end with a complete operand, and the stacks after them:** the value of the
operand is on top of those that wait. -/
inductive Completes (level : Nat) (lexemes : List Lexeme) (held : List Held) : List α → Prop
  /-- All operands have values. -/
  | intro {waiting : List Waiting} {tree : Expression} {values : List α} {value : α} :
      held = waiting.map Waiting.held → EndsWith level lexemes waiting tree →
      Operands waiting values → tree.evaluate.outcome = .ok value →
      Completes level lexemes held (value :: values)

namespace Completes

variable {level : Nat} {lexemes : List Lexeme} {held : List Held}

/-- Less strength is there as well. -/
theorem mono {values : List α} {strength : Nat} (h : Completes level lexemes held values)
    (hle : strength ≤ level) : Completes strength lexemes held values := by
  cases h with
  | intro hheld hends hoperands hvalue => exact .intro hheld (hends.mono hle) hoperands hvalue

/-- **An operator on top belongs to the two values on top:** they are the values of its operands. -/
theorem exists_operands {op : Operator} {position : Nat} {values : List α}
    (h : Completes level lexemes (.operator op position :: held) values) :
    ∃ waiting leftTree rightTree left right rest, held = waiting.map Waiting.held ∧
      values = right :: left :: rest ∧
      EndsWith level lexemes (.operator leftTree op position :: waiting) rightTree ∧
      Operands waiting rest ∧ leftTree.evaluate.outcome = .ok left ∧
      rightTree.evaluate.outcome = .ok right := by
  cases h with
  | @intro waiting tree values value hheld hends hoperands hvalue =>
    -- an operator on the stack is one of the text, which brings its left operand along
    match waiting, hheld with
    | .operator leftTree _ _ :: waiting, hheld =>
      cases hheld
      cases hoperands with
      | operator hleft hoperands =>
        exact ⟨waiting, leftTree, tree, _, value, _, rfl, rfl, hends, hoperands, hleft, hvalue⟩

/-- The operator on top makes one operand of its two. -/
theorem apply {op : Operator} {position : Nat} {left right value : α} {rest : List α}
    (h : Completes level lexemes (.operator op position :: held) (right :: left :: rest))
    (hop : level ≤ op.precedence) (happly : op.apply left right = .ok value) :
    Completes level lexemes held (value :: rest) := by
  obtain ⟨waiting, leftTree, rightTree, _, _, _, hheld, hvalues, hends, hoperands, hleft, hright⟩ :=
    h.exists_operands
  cases hvalues
  refine .intro hheld (hends.binary hop) hoperands ?_
  rw [Expression.outcome_binary hleft hright, happly]
  rfl

/-- **Unwinding makes one operand of several:** what is left still ends with a complete operand. -/
theorem unwinds {held' : List Held} {values values' : List α}
    (h : Completes level lexemes held values)
    (hunwinds : Unwinds level held values held' values') :
    Completes level lexemes held' values' := by
  induction hunwinds with
  | stop _ => exact h
  | apply hop happly _ ih => exact ih (h.apply hop happly)

/-- A parenthesis closes around the operand on top. -/
theorem closing {partner position : Nat} {values : List α}
    (h : Completes level lexemes (.paren partner :: held) values) :
    Completes atomStrength (lexemes ++ [⟨.rightParen, position⟩]) held values := by
  cases h with
  | @intro waiting tree values value hheld hends hoperands hvalue =>
    match waiting, hheld with
    | .paren _ :: waiting, hheld =>
      cases hheld
      cases hoperands with
      | paren hoperands => exact .intro rfl hends.closing hoperands hvalue

/-- Where nothing else waits, the operand is the whole expression. -/
theorem exists_derives {values : List α} (h : Completes level lexemes [] values) :
    ∃ tree, Derives wholeStrength lexemes tree := by
  cases h with
  | @intro waiting tree _ _ hheld hends _ _ =>
    obtain rfl : waiting = [] := List.map_eq_nil_iff.mp hheld.symm
    exact ⟨tree, hends.derives⟩

end Completes

/-! ## Runs -/

/-- **The state after lexemes in which every operand is where it belongs.** -/
inductive Reads : List Lexeme → Workspace α → Prop
  /-- An operand may follow. -/
  | operand {lexemes : List Lexeme} {waiting : List Waiting} {values : List α} :
      Begins lexemes waiting → Operands waiting values →
      Reads lexemes ⟨waiting.map Waiting.held, values, .operand⟩
  /-- The last lexeme is the sign of a literal. -/
  | literal {lexemes : List Lexeme} {waiting : List Waiting} {values : List α} {minus : Nat} :
      Begins lexemes waiting → Operands waiting values →
      Reads (lexemes ++ [⟨.operator .sub, minus⟩])
        ⟨waiting.map Waiting.held, values, .literal minus⟩
  /-- The last lexemes are a literal, or an expression in parentheses. -/
  | operator {lexemes : List Lexeme} {held : List Held} {values : List α} :
      Completes atomStrength lexemes held values → Reads lexemes ⟨held, values, .operator⟩

/-- Nothing has come yet. -/
theorem reads_empty : Reads [] (Workspace.empty : Workspace α) :=
  .operand .start .nil

/-- **Every step keeps the stacks what they are to be**, unless a parenthesis closes where an
operand is missing. -/
theorem Reads.step {lexemes : List Lexeme} {w w' : Workspace α} {lexeme : Lexeme}
    (h : Reads lexemes w) (hstep : Steps w lexeme w') :
    Reads (lexemes ++ [lexeme]) w' ∨ w.expecting = .operand ∧ lexeme.token = .rightParen := by
  cases hstep with
  | literal hvalue =>
    cases h with
    | operand hbegins hoperands =>
      exact .inl (.operator (.intro rfl (.of_atom hbegins .unsigned) hoperands
        (Expression.outcome_literal_ok_iff.mpr hvalue)))
  | sign =>
    cases h with
    | operand hbegins hoperands => exact .inl (.literal hbegins hoperands)
  | negative hvalue =>
    cases h with
    | literal hbegins hoperands =>
      rw [List.append_assoc]
      exact .inl (.operator (.intro rfl (.of_atom hbegins .signed) hoperands
        (Expression.outcome_literal_ok_iff.mpr hvalue)))
  | opening =>
    cases h with
    | operand hbegins hoperands => exact .inl (.operand hbegins.paren hoperands.paren)
  | @operator _ _ _ _ op position hunwinds =>
    cases h with
    | operator hcompletes =>
      -- what binds as strongly as the operator becomes its left operand
      have hlevel := Nat.le_of_lt op.precedence_lt_atomStrength
      have hleft := (hcompletes.mono hlevel).unwinds hunwinds
      cases hleft with
      | intro hheld hends hoperands hvalue =>
        subst hheld
        exact .inl (.operand (hends.operator hunwinds.stops) (.operator hvalue hoperands))
  | @closing _ _ _ _ expecting _ _ hclose hunwinds =>
    cases expecting with
    | operand => exact .inr ⟨rfl, rfl⟩
    | literal _ => exact hclose.elim
    | operator =>
      -- all that waits inside the parentheses becomes one operand
      cases h with
      | operator hcompletes =>
        exact .inl (.operator ((hcompletes.mono (Nat.zero_le _)).unwinds hunwinds).closing)

end Workspace

end Values

end DeskCalc
