import DeskCalc.Proofs.Operands

/-! # Literals of integer types

An integer type reads the digits that write a number in its range, with a sign before them or
without. It refuses all other texts, and quotes them unchanged.

* **`Numeral.WritesWhole`** — the rows of characters that write a whole number.
* **`MachineInt.readNumber_ok_iff_writesWhole`** — an integer type has a value for just these, if the
  number is in range.
* **`MachineInt.readNumber_exact`** — what is read and as which value, what is refused, and that each
  value is read from its own text. -/

namespace DeskCalc

/-- **Whether a row of characters writes a whole number** for a type with or without a sign: a sign
that may be left out, then digits and nothing else. Only signed types know the minus sign, even before
a zero. -/
def Numeral.WritesWhole (signed : Bool) (cs : List Char) (n : Int) : Prop :=
  ∃ negative digits, Spells negative digits none cs ∧ (negative = true → signed = true) ∧
    n = if negative then -(decimal digits : Int) else decimal digits

namespace MachineInt

variable {f : IntFormat} {value : MachineInt f}

/-- A numeral has the value that equals it, if it has no point and no sign that the type does not
know. -/
theorem ofNumeral?_eq_some_iff {n : Numeral} :
    ofNumeral? f n = some value ↔
      n.places = none ∧ (n.negative = true → f.signed = true) ∧
        value.val = if n.negative then -(n.coefficient : Int) else n.coefficient := by
  obtain ⟨negative, coefficient, places⟩ := n
  cases places with
  | some places => simp [ofNumeral?]
  | none =>
    cases negative with
    | false => simp [ofNumeral?, ofInt?_eq_some_iff]
    | true => cases hsigned : f.signed <;> simp [ofNumeral?, ofInt?_eq_some_iff, hsigned]

/-- **An integer type reads the texts that write a number** of the type. -/
theorem readNumber_ok_iff_writesWhole {text : String} {position : Nat} :
    readNumber text position = .ok value ↔
      Numeral.WritesWhole f.signed text.toList value.val := by
  rw [readNumber_ok_iff_spells]
  constructor
  · rintro ⟨negative, whole, fraction, hcs, hvalue⟩
    obtain ⟨hplaces, hsigned, hval⟩ := ofNumeral?_eq_some_iff.mp hvalue
    obtain rfl := Option.map_eq_none_iff.mp hplaces
    rw [Option.getD_none, List.append_nil] at hval
    exact ⟨negative, whole, hcs, hsigned, hval⟩
  · rintro ⟨negative, digits, hcs, hsigned, hval⟩
    rw [← List.append_nil digits] at hval
    exact ⟨negative, digits, none, hcs, ofNumeral?_eq_some_iff.mpr ⟨rfl, hsigned, hval⟩⟩

/-- **Integer literals are exact, and what is written is read back.** An integer type reads a text
just if it writes a whole number: a sign that may be left out, of which unsigned types know the plus
sign only, then digits and nothing else. The value is that number. If the text writes no whole number
or one out of range, it is refused, and the error quotes it unchanged. The text of each value is read
as the value, as a literal and as an expression. -/
theorem readNumber_exact (f : IntFormat) :
    (∀ (text : String) (value : MachineInt f),
      readNumber text 0 = .ok value ↔ Numeral.WritesWhole f.signed text.toList value.val) ∧
      (∀ (text : String) (cause : ParseError),
        (readNumber text 0 : Except ParseError (MachineInt f)) = .error cause ↔
          (¬∃ n, Numeral.WritesWhole f.signed text.toList n ∧ f.least ≤ n ∧ n ≤ f.greatest) ∧
            cause = .invalidNumber text 0) ∧
      ∀ value : MachineInt f, readNumber (Numeric.format value) 0 = .ok value ∧
        (evaluateAs (MachineInt f) (Numeric.format value)).outcome = .ok value := by
  refine ⟨fun text value => readNumber_ok_iff_writesWhole, fun text cause => ?_,
    fun value => ⟨value.readNumber_format 0, value.isOperand_format.outcome_evaluateAs⟩⟩
  have hvalues : (∃ n, Numeral.WritesWhole f.signed text.toList n ∧ f.least ≤ n ∧ n ≤ f.greatest) ↔
      ∃ value : MachineInt f, readNumber text 0 = .ok value := by
    constructor
    · rintro ⟨n, hn, hleast, hgreatest⟩
      exact ⟨⟨n, hleast, hgreatest⟩, readNumber_ok_iff_writesWhole.mpr hn⟩
    · rintro ⟨value, hvalue⟩
      exact ⟨value.val, readNumber_ok_iff_writesWhole.mp hvalue, value.least_le, value.le_greatest⟩
  rw [hvalues, readNumber_error_iff]

end MachineInt

end DeskCalc
