import DeskCalc.Proofs.Culprits
import DeskCalc.Proofs.Keystrokes
import DeskCalc.Proofs.Printing
import DeskCalc.Proofs.RuntimeErrors

/-! # Results and messages stay on one line

An expression may hold any characters, line feeds too. What is printed of it never does: values are
written with digits, and messages quote only literals, operators and characters that start no token,
while a line feed is a gap.

* **`IsLine`** — the rows of characters that end no line.
* **`ParseError.quoted`**, **`ParseError.isLine_message`** — a message stays on one line if what it
  quotes does.
* **`NumberType.isLine_format`** — so do the texts of values.
* **`NumberType.isLine_message`** — and so do the messages of all errors. -/

namespace DeskCalc

/-! ## Lines -/

/-- **Whether characters stay on one line:** none of them ends one. -/
def IsLine (cs : List Char) : Prop :=
  ∀ c ∈ cs, c ≠ '\n' ∧ c ≠ '\r'

instance : DecidablePred IsLine :=
  fun cs => List.decidableBAll (fun c => c ≠ '\n' ∧ c ≠ '\r') cs

/-- Two rows that stay on one line stay on it together. -/
theorem isLine_append {before after : List Char} :
    IsLine (before ++ after) ↔ IsLine before ∧ IsLine after :=
  List.forall_mem_append

/-- What ends a line may stand between tokens, and is no part of one. -/
theorem ne_lineEnd_of_not_isGap {c : Char} (h : ¬Token.isGap c = true) : c ≠ '\n' ∧ c ≠ '\r' := by
  constructor
  · rintro rfl
    exact h rfl
  · rintro rfl
    exact h rfl

/-- Digits and points stay on one line. -/
theorem isLine_of_isLiteral {cs : List Char} (h : ∀ c ∈ cs, Token.isLiteral c = true) :
    IsLine cs := by
  intro c hc
  refine ne_lineEnd_of_not_isGap fun hgap => ?_
  have hliteral := h c hc
  rw [Token.isLiteral_of_isGap hgap] at hliteral
  cases hliteral

/-! ## Messages -/

/-- The characters that the message of an error takes over from the text. -/
def ParseError.quoted : ParseError → List Char
  | invalidNumber literal _ => literal.toList
  | invalidCharacter character _ => [character]
  | missingOperand operator _ => [operator]
  | _ => []

/-- Naming a place keeps a text on one line. -/
theorem isLine_atPosition {text : String} (h : IsLine text.toList) (position : Nat) :
    IsLine (atPosition position text).toList := by
  have hdigits : IsLine (toString position).toList := by
    rw [Nat.toString_eq_ofList_toDigits, String.toList_ofList]
    exact isLine_of_isLiteral fun c hc =>
      Token.isLiteral_of_isDigit (Numeral.isDigit_of_mem_toDigits c hc)
  unfold atPosition
  simp only [String.toList_append, isLine_append]
  exact ⟨⟨⟨by decide, hdigits⟩, by decide⟩, h⟩

/-- **A message stays on one line** if what it quotes does. -/
theorem ParseError.isLine_message {cause : ParseError} (h : IsLine cause.quoted) :
    IsLine cause.message.toList := by
  cases cause with
  | invalidNumber literal position =>
    refine isLine_atPosition ?_ position
    simp only [String.toList_append, isLine_append]
    exact ⟨⟨by decide, h⟩, by decide⟩
  | invalidCharacter character position =>
    refine isLine_atPosition ?_ position
    simp only [String.toList_append, isLine_append]
    exact ⟨⟨by decide, by simpa [quoted] using h⟩, by decide⟩
  | missingOperand operator position =>
    refine isLine_atPosition ?_ position
    simp only [String.toList_append, isLine_append]
    exact ⟨⟨by decide, by simpa [quoted] using h⟩, by decide⟩
  | mismatchedParenthesis position => exact isLine_atPosition (by decide) position
  | danglingMinus position => exact isLine_atPosition (by decide) position
  | missingOperator position => exact isLine_atPosition (by decide) position
  | emptyExpression => exact (by decide : IsLine "Error: Empty expression.".toList)

/-- What a lexeme is blamed for quotes no end of a line. -/
theorem IsCulprit.isLine_quoted {α : Type} [Numeric α] {lexemes : List Lexeme} {cause : ParseError}
    (h : IsCulprit α lexemes cause) (hscanned : ∀ lexeme ∈ lexemes, lexeme.token.WellFormed) :
    IsLine cause.quoted := by
  cases cause with
  | invalidNumber literal position =>
    obtain ⟨hliteral, -⟩ := h
    cases hliteral with
    | unsigned hlexemes _ =>
      subst hlexemes
      exact isLine_of_isLiteral (hscanned ⟨.number literal, position⟩ (by simp)).2
    | @signed before after text _ position hlexemes _ =>
      subst hlexemes
      have htext := isLine_of_isLiteral (hscanned ⟨.number text, position⟩ (by simp)).2
      rw [ParseError.quoted, String.toList_append, isLine_append]
      exact ⟨by decide, htext⟩
  | invalidCharacter _ _ => exact h.elim
  | missingOperand symbol position =>
    obtain ⟨op, rfl, -⟩ := h
    show IsLine [op.symbol]
    cases op <;> decide
  | mismatchedParenthesis _ | emptyExpression | danglingMinus _ | missingOperator _ =>
    exact List.forall_mem_nil _

/-! ## Number types -/

namespace NumberType

variable {t : NumberType}

/-- **The text of a value stays on one line.** -/
theorem isLine_format (value : t.Value) : IsLine (Numeric.format value).toList := by
  have hchars : ∀ n : Numeral, IsLine n.text.toList := by
    intro n c hc
    rw [Numeral.text, String.toList_ofList] at hc
    rcases Numeral.mem_chars c hc with rfl | hliteral
    · decide
    · exact isLine_of_isLiteral (List.forall_mem_singleton.mpr hliteral) c List.mem_cons_self
  cases t with
  | integer f => exact hchars (MachineInt.toNumeral value)
  | binary f =>
    cases value with
    | nan => exact (by decide : IsLine "NaN".toList)
    | infinite negative =>
      cases negative with
      | true => exact (by decide : IsLine "-inf".toList)
      | false => exact (by decide : IsLine "inf".toList)
    | finite negative rank => exact hchars (Binary.toNumeral f negative rank)

/-- **The message of every error stays on one line**, whatever the text is. -/
theorem isLine_message {source : String} {cause : EvalError}
    (h : (evaluateAs t.Value source).outcome = .error cause) : IsLine cause.message.toList := by
  cases cause with
  | runtime why =>
    obtain ⟨a, b, hdivide⟩ := exists_divide_of_evaluateAs h
    obtain ⟨-, -, rfl⟩ := divide_eq_error_iff.mp hdivide
    exact (by decide : IsLine "Error: Division by zero.".toList)
  | parse why =>
    refine @ParseError.isLine_message why ?_
    cases hscan : Lexeme.scan source with
    | error cause =>
      rw [outcome_evaluateAs_of_error hscan] at h
      cases h
      -- the character that starts no token cannot end a line, since what does is a gap
      obtain ⟨-, c, -, -, hc, rfl⟩ := Lexeme.exists_of_scan_error hscan
      refine List.forall_mem_singleton.mpr (ne_lineEnd_of_not_isGap fun hgap => ?_)
      exact hc (Token.isAllowed_iff.mpr (.inl hgap))
    | ok lexemes =>
      rw [outcome_evaluateAs hscan] at h
      exact (isCulprit_of_evaluateLexemes h).isLine_quoted (Lexeme.wellFormed_of_scan hscan)

end NumberType

end DeskCalc
