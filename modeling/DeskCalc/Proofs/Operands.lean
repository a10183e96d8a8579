import DeskCalc.Proofs.Printing

/-! # Texts of operands

A text that can stand as an operand of any operator, on either side, whatever it stands between:
literals, and operators with both operands in parentheses.

* **`IsOperand`** — the texts of operands, with what they evaluate to.
* **`IsOperand.group`** — an operator between two operands, in parentheses, is an operand.
* **`MachineInt.isOperand_format`** — what an integer type writes is an operand.
* **`IsOperand.outcome_evaluateAs`** — an operand that is a whole text evaluates to just that. -/

namespace DeskCalc

/-! ## Operands -/

variable {α : Type} [Numeric α]

/-- **Whether a row of characters is the text of an operand,** with a given outcome: wherever it
stands, and whatever follows without prolonging its last literal, its lexemes are an operand by
themselves, and their tree has the outcome. -/
def IsOperand (cs : List Char) (outcome : Except EvalError α) : Prop :=
  ∀ (position : Nat) (rest : List Char), (∀ c ∈ rest.head?, Token.isLiteral c = false) →
    ∃ lexemes tree,
      Lexeme.scanFrom position (cs ++ rest) =
        (Lexeme.scanFrom (position + cs.length) rest).map (lexemes ++ ·) ∧
      Derives atomStrength lexemes tree ∧ tree.evaluate.outcome = outcome

/-- A literal is an operand. -/
theorem isOperand_unsigned {literal : String} {value : α}
    (hliteral : (Token.number literal).WellFormed)
    (hread : ∀ position, readNumber literal position = .ok value) :
    IsOperand literal.toList (.ok value) := by
  intro position rest hrest
  refine ⟨[⟨.number literal, position⟩], .literal literal position, ?_, .unsigned,
    Expression.outcome_literal_ok_iff.mpr (hread position)⟩
  exact Lexeme.scanFrom_token hliteral (fun _ => hrest) position

/-- A literal with a minus sign before it is an operand. -/
theorem isOperand_signed {literal : String} {value : α}
    (hliteral : (Token.number literal).WellFormed)
    (hread : ∀ position, readNumber ("-" ++ literal) position = .ok value) :
    IsOperand ("-" ++ literal).toList (.ok value) := by
  intro position rest hrest
  refine ⟨[⟨.operator .sub, position⟩, ⟨.number literal, position + 1⟩],
    .literal ("-" ++ literal) position, ?_, .signed,
    Expression.outcome_literal_ok_iff.mpr (hread position)⟩
  have hchars : ("-" ++ literal).toList ++ rest = '-' :: (literal.toList ++ rest) := by
    rw [String.toList_append]
    rfl
  have hlength : position + ("-" ++ literal).toList.length =
      position + 1 + literal.toList.length := by
    rw [String.toList_append, List.length_append]
    exact (Nat.add_assoc ..).symm
  have hscan : Lexeme.scanFrom (position + 1) (literal.toList ++ rest) =
      (Lexeme.scanFrom (position + 1 + literal.toList.length) rest).map
        (⟨.number literal, position + 1⟩ :: ·) :=
    Lexeme.scanFrom_token hliteral (fun _ => hrest) (position + 1)
  rw [hchars, hlength, Lexeme.scanFrom_mark rfl, hscan]
  cases Lexeme.scanFrom (position + 1 + literal.toList.length) rest <;> rfl

/-- The text of an operator with its operands, in parentheses and with a space on each side of the
operator. -/
def groupChars (op : Operator) (left right : List Char) : List Char :=
  '(' :: left ++ ' ' :: op.symbol :: ' ' :: right ++ [')']

/-- The symbol of an operator is scanned as the operator. -/
theorem Operator.ofMark?_symbol (op : Operator) :
    Token.ofMark? op.symbol = some (.operator op) := by
  cases op <;> rfl

/-- The outcome of an operator's tree, from those of its operands. -/
theorem Expression.outcome_binary_eq_bind (op : Operator) (left right : Expression) :
    (Expression.binary op left right).evaluate.outcome =
      left.evaluate.outcome.bind fun a => right.evaluate.outcome.bind fun b =>
        (op.apply a b : Except RuntimeError α).mapError .runtime := by
  cases hleft : (left.evaluate : Evaluation α α).outcome with
  | error cause => exact Logged.outcome_bind_of_error hleft _
  | ok a =>
    cases hright : (right.evaluate : Evaluation α α).outcome with
    | error cause =>
      rw [Expression.evaluate, Logged.outcome_bind_of_ok hleft]
      exact Logged.outcome_bind_of_error hright _
    | ok b => exact Expression.outcome_binary hleft hright

/-- An operator between two atoms of the grammar, in parentheses, is an atom. -/
theorem Derives.group {leftLexemes rightLexemes : List Lexeme} {left right : Expression}
    (hleft : Derives atomStrength leftLexemes left) (hright : Derives atomStrength rightLexemes right)
    (op : Operator) (opening position closing : Nat) :
    Derives atomStrength
      (⟨.leftParen, opening⟩ :: (leftLexemes ++ ⟨.operator op, position⟩ :: rightLexemes) ++
        [⟨.rightParen, closing⟩])
      (.binary op left right) := by
  have hprecedence := op.precedence_lt_atomStrength
  have hbinary : Derives op.precedence
      (leftLexemes ++ ⟨.operator op, position⟩ :: rightLexemes) (.binary op left right) :=
    .binary (hleft.weaken_of_le (Nat.le_of_lt hprecedence)) (hright.weaken_of_le hprecedence)
  exact .parenthesized (hbinary.weaken_of_le op.one_le_precedence)

/-- **A group is scanned** in five parts: its two parentheses, its operator, and its two texts, where
they stand. -/
theorem Lexeme.scanFrom_groupChars {left right rest : List Char}
    {leftLexemes rightLexemes : List Lexeme} {position : Nat} {op : Operator}
    (hleft : scanFrom (position + 1) (left ++ ' ' :: op.symbol :: ' ' :: (right ++ ')' :: rest)) =
      (scanFrom (position + 1 + left.length)
        (' ' :: op.symbol :: ' ' :: (right ++ ')' :: rest))).map (leftLexemes ++ ·))
    (hright : scanFrom (position + 1 + left.length + 1 + 1 + 1) (right ++ ')' :: rest) =
      (scanFrom (position + 1 + left.length + 1 + 1 + 1 + right.length) (')' :: rest)).map
        (rightLexemes ++ ·)) :
    scanFrom position (groupChars op left right ++ rest) =
      (scanFrom (position + (groupChars op left right).length) rest).map
        ((⟨.leftParen, position⟩ ::
            (leftLexemes ++ ⟨.operator op, position + 1 + left.length + 1⟩ :: rightLexemes) ++
          [⟨.rightParen, position + 1 + left.length + 1 + 1 + 1 + right.length⟩]) ++ ·) := by
  have hchars : groupChars op left right ++ rest =
      '(' :: (left ++ ' ' :: op.symbol :: ' ' :: (right ++ ')' :: rest)) := by
    simp [groupChars]
  have hlength : position + (groupChars op left right).length =
      position + 1 + left.length + 1 + 1 + 1 + right.length + 1 := by
    simp [groupChars]
    omega
  -- the marks and spaces are scanned one by one, the texts as they are assumed to be
  rw [hchars, hlength, scanFrom_mark rfl, hleft, scanFrom_isGap rfl,
    scanFrom_mark op.ofMark?_symbol, scanFrom_isGap rfl, hright, scanFrom_mark rfl]
  cases scanFrom (position + 1 + left.length + 1 + 1 + 1 + right.length + 1) rest with
  | error cause => rfl
  | ok lexemes => simp [Except.map]

/-- **An operator between two operands, in parentheses, is an operand.** -/
theorem IsOperand.group {left right : List Char} {x y : Except EvalError α}
    (hleft : IsOperand left x) (hright : IsOperand right y) (op : Operator) :
    IsOperand (groupChars op left right)
      (x.bind fun a => y.bind fun b => (op.apply a b).mapError .runtime) := by
  intro position rest hrest
  -- neither a space nor a parenthesis prolongs the operand before it
  have hspace : ∀ c ∈ (' ' :: op.symbol :: ' ' :: (right ++ ')' :: rest)).head?,
      Token.isLiteral c = false := by
    rintro c ⟨⟩
    rfl
  have hclosing : ∀ c ∈ (')' :: rest).head?, Token.isLiteral c = false := by
    rintro c ⟨⟩
    rfl
  obtain ⟨leftLexemes, leftTree, hscanLeft, hderivesLeft, hx⟩ := hleft (position + 1) _ hspace
  obtain ⟨rightLexemes, rightTree, hscanRight, hderivesRight, hy⟩ :=
    hright (position + 1 + left.length + 1 + 1 + 1) _ hclosing
  refine ⟨_, .binary op leftTree rightTree, Lexeme.scanFrom_groupChars hscanLeft hscanRight,
    hderivesLeft.group hderivesRight op _ _ _, ?_⟩
  rw [Expression.outcome_binary_eq_bind, hx, hy]

/-- **An operand that is a whole text** has its outcome. -/
theorem IsOperand.outcome_evaluateAs {source : String} {outcome : Except EvalError α}
    (h : IsOperand source.toList outcome) : (evaluateAs α source).outcome = outcome := by
  obtain ⟨lexemes, tree, hscan, hderives, houtcome⟩ := h 0 [] nofun
  rw [List.append_nil, Lexeme.scanFrom_nil] at hscan
  have hwhole : Derives wholeStrength (lexemes ++ []) tree := by
    rw [List.append_nil]
    exact hderives.weaken_of_le (by decide)
  rw [DeskCalc.outcome_evaluateAs hscan, evaluateLexemes_of_derives hwhole, houtcome]

/-- **The text of a numeral is an operand** with the value that a type has for it. -/
theorem Numeral.isOperand_text {n : Numeral} {value : α} (h : Numeric.ofNumeral? n = some value) :
    IsOperand n.text.toList (.ok value) := by
  have hread := readNumber_text h
  have hliteral : (Token.number (String.ofList (magnitudeChars n.coefficient n.places))).WellFormed := by
    obtain ⟨whole, fraction, hchars, hne, -⟩ := exists_magnitudeChars_eq n.coefficient n.places
    refine ⟨?_, ?_⟩
    · rw [String.toList_ofList, hchars]
      exact List.append_ne_nil_of_left_ne_nil hne _
    · rw [String.toList_ofList]
      exact isLiteral_of_mem_magnitudeChars
  by_cases hnegative : n.negative = true
  · rw [text, chars, if_pos hnegative, String.ofList_cons] at hread ⊢
    exact isOperand_signed hliteral hread
  · rw [text, chars, if_neg hnegative] at hread ⊢
    exact isOperand_unsigned hliteral hread

/-- **What an integer type writes is an operand** with the value that is written. -/
theorem MachineInt.isOperand_format {f : IntFormat} (a : MachineInt f) :
    IsOperand (Numeric.format a).toList (.ok a) :=
  Numeral.isOperand_text a.ofNumeral?_toNumeral

end DeskCalc
