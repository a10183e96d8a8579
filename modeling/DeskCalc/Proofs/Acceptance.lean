import DeskCalc.Proofs.Literals
import DeskCalc.Proofs.RuntimeErrors

/-! # Types in which no operation fails

Where every quotient has a value, so has every operator, and an evaluation can fail only for what
the text is. Floating-point numbers are such a type: a zero divisor gives an infinity or not-a-number.

* **`Total`** — the number types in which no operation fails.
* **`Total.exists_parse_of_evaluateAs`** — no text has a runtime error there.
* **`IsDecimalExpression`**, **`Total.exists_evaluateAs_iff`** — the texts that have a value: those
  of the grammar whose literals are decimal.
* **`Binary.evaluateAs_accepts`** — what floating-point evaluation accepts does not depend on any
  value. -/

namespace DeskCalc

/-- **A number type in which no operation fails:** every quotient and every numeral has a value. -/
structure Total (α : Type) [Numeric α] : Prop where
  /-- Any two values have a quotient. -/
  exists_divide : ∀ a b : α, ∃ value, Numeric.divide a b = .ok value
  /-- Any numeral has a value. -/
  exists_ofNumeral : ∀ n, ∃ value : α, Numeric.ofNumeral? n = some value

/-- **Whether a text writes an expression in decimal literals:** its lexemes are those of a tree, and
each of its literals has a digit and one point at most. -/
def IsDecimalExpression (source : String) : Prop :=
  ∃ lexemes, Lexeme.scan source = .ok lexemes ∧ (∃ tree, Derives wholeStrength lexemes tree) ∧
    ∀ lexeme ∈ lexemes, lexeme.token.IsDecimal

namespace Total

variable {α : Type} [Numeric α]

/-! ## Operations -/

section Operations

variable (total : Total α)
include total

/-- Every operator has a value for any two operands. -/
theorem exists_apply (op : Operator) (left right : α) :
    ∃ value, op.apply left right = .ok value := by
  cases happly : op.apply left right with
  | ok value => exact ⟨value, rfl⟩
  | error why =>
    obtain ⟨a, b, hdivide⟩ := op.exists_divide_of_apply happly
    obtain ⟨value, hvalue⟩ := total.exists_divide a b
    rw [hvalue] at hdivide
    cases hdivide

/-- **A tree has a value just if its literals have.** -/
theorem exists_outcome_iff (tree : Expression) :
    (∃ value : α, tree.evaluate.outcome = .ok value) ↔ tree.Legible α := by
  constructor
  · rintro ⟨value, h⟩
    exact Expression.legible_of_outcome h
  · intro h
    induction tree with
    | literal text position =>
      obtain ⟨value, hvalue⟩ := h
      exact ⟨value, Expression.outcome_literal_ok_iff.mpr hvalue⟩
    | binary op left right ihLeft ihRight =>
      obtain ⟨a, ha⟩ := ihLeft h.1
      obtain ⟨b, hb⟩ := ihRight h.2
      obtain ⟨value, hvalue⟩ := total.exists_apply op a b
      refine ⟨value, ?_⟩
      rw [Expression.outcome_binary ha hb, hvalue]
      rfl

end Operations

/-! ## Texts -/

section Texts

variable (total : Total α) {source : String}
include total

/-- **A row of lexemes has a value** just if the grammar derives it and its literals are decimal. -/
theorem exists_evaluateLexemes_iff {lexemes : List Lexeme}
    (hscanned : ∀ lexeme ∈ lexemes, lexeme.token.WellFormed) :
    (∃ value, (evaluateLexemes lexemes : Evaluation α α).outcome = .ok value) ↔
      (∃ tree, Derives wholeStrength lexemes tree) ∧
        ∀ lexeme ∈ lexemes, lexeme.token.IsDecimal := by
  constructor
  · rintro ⟨value, h⟩
    obtain ⟨tree, hderives⟩ := exists_derives_of_evaluateLexemes_ok h
    rw [evaluateLexemes_of_derives hderives] at h
    have hlegible := Expression.legible_of_outcome h
    exact ⟨⟨tree, hderives⟩, (hderives.legible_iff total.exists_ofNumeral hscanned).mp hlegible⟩
  · rintro ⟨⟨tree, hderives⟩, hdecimal⟩
    rw [evaluateLexemes_of_derives hderives, total.exists_outcome_iff]
    exact (hderives.legible_iff total.exists_ofNumeral hscanned).mpr hdecimal

/-- **A text fails only for what it is.** -/
theorem exists_parse_of_evaluateAs {cause : EvalError}
    (h : (evaluateAs α source).outcome = .error cause) : ∃ why, cause = .parse why := by
  cases cause with
  | parse why => exact ⟨why, rfl⟩
  | runtime why =>
    obtain ⟨a, b, hdivide⟩ := exists_divide_of_evaluateAs h
    obtain ⟨value, hvalue⟩ := total.exists_divide a b
    rw [hvalue] at hdivide
    cases hdivide

/-- A text has a value just if it writes an expression in decimal literals. -/
theorem exists_evaluateAs_iff :
    (∃ value, (evaluateAs α source).outcome = .ok value) ↔ IsDecimalExpression source := by
  constructor
  · rintro ⟨value, h⟩
    obtain ⟨lexemes, hscan, hvalue⟩ := evaluateAs_ok_iff.mp h
    exact ⟨lexemes, hscan,
      (total.exists_evaluateLexemes_iff (Lexeme.wellFormed_of_scan hscan)).mp ⟨value, hvalue⟩⟩
  · rintro ⟨lexemes, hscan, h⟩
    obtain ⟨value, hvalue⟩ :=
      (total.exists_evaluateLexemes_iff (Lexeme.wellFormed_of_scan hscan)).mpr h
    exact ⟨value, evaluateAs_ok_iff.mpr ⟨lexemes, hscan, hvalue⟩⟩

end Texts

end Total

/-! ## Floating-point numbers -/

namespace Binary

/-- No floating-point operation fails. -/
theorem total (f : BinaryFormat) : Total (Binary f) where
  exists_divide a b := ⟨a.quotient b, rfl⟩
  exists_ofNumeral n := ⟨ofNumeral n, rfl⟩

/-- **What floating-point evaluation accepts** does not depend on any value: it gives one to the
texts that write an expression in decimal literals. All others fail for what they are, and no
operation ever fails, be it a division by zero, a negative power of zero, an overflow or one on
not-a-number. -/
theorem evaluateAs_accepts (f : BinaryFormat) (source : String) :
    (∀ why, (evaluateAs (Binary f) source).outcome ≠ .error (.runtime why)) ∧
      ((∃ value, (evaluateAs (Binary f) source).outcome = .ok value) ↔
        IsDecimalExpression source) ∧
      (¬IsDecimalExpression source →
        ∃ why, (evaluateAs (Binary f) source).outcome = .error (.parse why)) := by
  refine ⟨fun why h => ?_, (total f).exists_evaluateAs_iff, fun hnone => ?_⟩
  · obtain ⟨_, hparse⟩ := (total f).exists_parse_of_evaluateAs h
    cases hparse
  · cases houtcome : (evaluateAs (Binary f) source).outcome with
    | ok value => exact absurd ((total f).exists_evaluateAs_iff.mp ⟨value, houtcome⟩) hnone
    | error cause =>
      obtain ⟨why, rfl⟩ := (total f).exists_parse_of_evaluateAs houtcome
      exact ⟨why, rfl⟩

/-- A negative power of zero is infinite. -/
example : (evaluateAs Double "0^-1").outcome = .ok (.infinite false) := by
  decide +kernel

end Binary

end DeskCalc
