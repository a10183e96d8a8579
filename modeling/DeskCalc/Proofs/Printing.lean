import DeskCalc.Integer
import DeskCalc.Proofs.Spelling

/-! # Texts of numbers

A numeral is written with digits, a point and a minus sign only, and is read back from its text. So
what an integer type writes, it reads back.

* **`Numeral.mem_chars`** — the characters that numerals are written with.
* **`Numeral.exists_spells_text`** — how the text of a numeral spells it.
* **`Numeral.ofText?_text`** — a numeral is read back from its text.
* **`MachineInt.readNumber_format`** — the text of an integer is a literal with that value. -/

namespace DeskCalc

/-! ## Numerals -/

namespace Numeral

/-- The digits of a number are digits. -/
theorem isDigit_of_mem_toDigits {n : Nat} : ∀ c ∈ Nat.toDigits 10 n, c.isDigit = true :=
  fun _ hc => Nat.isDigit_of_mem_toDigits (by decide) (by decide) hc

/-- Digits that are filled up with zeros are digits. -/
theorem isDigit_of_mem_paddedDigits {length n : Nat} :
    ∀ c ∈ paddedDigits length n, c.isDigit = true := by
  intro c hc
  rw [paddedDigits, List.leftpad, List.mem_append] at hc
  rcases hc with hc | hc
  · obtain rfl := List.eq_of_mem_replicate hc
    rfl
  · exact isDigit_of_mem_toDigits c hc

/-- **A magnitude is written with digits and a point.** -/
theorem isLiteral_of_mem_magnitudeChars {coefficient : Nat} {places : Option Nat} :
    ∀ c ∈ magnitudeChars coefficient places, Token.isLiteral c = true := by
  intro c hc
  cases places with
  | none => exact Token.isLiteral_of_isDigit (isDigit_of_mem_toDigits c hc)
  | some places =>
    rw [magnitudeChars, List.mem_append, List.mem_cons] at hc
    rcases hc with hc | rfl | hc
    · exact Token.isLiteral_of_isDigit (isDigit_of_mem_paddedDigits c (List.mem_of_mem_take hc))
    · rfl
    · exact Token.isLiteral_of_isDigit (isDigit_of_mem_paddedDigits c (List.mem_of_mem_drop hc))

/-- **A numeral is written with digits, a point and a minus sign.** -/
theorem mem_chars {n : Numeral} : ∀ c ∈ n.chars, c = '-' ∨ Token.isLiteral c = true := by
  intro c hc
  unfold chars at hc
  split at hc
  · rcases List.mem_cons.mp hc with rfl | hc
    · exact .inl rfl
    · exact .inr (isLiteral_of_mem_magnitudeChars c hc)
  · exact .inr (isLiteral_of_mem_magnitudeChars c hc)

/-- Zeros before the digits of a number do not change it. -/
theorem decimal_paddedDigits (length n : Nat) : decimal (paddedDigits length n) = n := by
  rw [← ofDigits_eq_decimal, ofDigits, paddedDigits, List.leftpad, Nat.ofDigitChars_append,
    Nat.ofDigitChars_replicate_zero, Nat.mul_zero, Nat.ofDigitChars_ten_toDigits]

/-- **A magnitude is written in digits,** with at least one before the point if there is a point. -/
theorem exists_magnitudeChars_eq (coefficient : Nat) (places : Option Nat) :
    ∃ whole fraction, magnitudeChars coefficient places = whole ++ pointed fraction ∧ whole ≠ [] ∧
      (∀ c ∈ whole ++ fraction.getD [], c.isDigit = true) ∧
      decimal (whole ++ fraction.getD []) = coefficient ∧ fraction.map List.length = places := by
  cases places with
  | none =>
    refine ⟨Nat.toDigits 10 coefficient, none, (List.append_nil _).symm, Nat.toDigits_ne_nil, ?_, ?_,
      rfl⟩
    · rw [Option.getD_none, List.append_nil]
      exact isDigit_of_mem_toDigits
    · rw [Option.getD_none, List.append_nil, decimal_toDigits]
  | some places =>
    -- the row is filled up so far that a digit is left before the point
    have hlength : places < (paddedDigits (places + 1) coefficient).length := by
      rw [paddedDigits, List.length_leftpad]
      exact Nat.le_max_left _ _
    have hdigits : ∀ c ∈ paddedDigits (places + 1) coefficient, c.isDigit = true :=
      isDigit_of_mem_paddedDigits
    have hdecimal := decimal_paddedDigits (places + 1) coefficient
    rw [magnitudeChars]
    generalize paddedDigits (places + 1) coefficient = digits at *
    refine ⟨digits.take (digits.length - places), some (digits.drop (digits.length - places)), rfl,
      ?_, ?_, ?_, ?_⟩
    · rw [← List.length_pos_iff, List.length_take_of_le (Nat.sub_le _ _)]
      exact Nat.sub_pos_of_lt hlength
    · rwa [Option.getD_some, List.take_append_drop]
    · rwa [Option.getD_some, List.take_append_drop]
    · rw [Option.map_some, List.length_drop, Nat.sub_sub_self hlength.le]

/-- **A numeral is spelled by its text,** with no plus sign and with a digit before any point. -/
theorem exists_spells_text (n : Numeral) :
    ∃ whole fraction,
      n.text.toList = (if n.negative then ['-'] else []) ++ (whole ++ pointed fraction) ∧
      whole ≠ [] ∧ Spells n.negative whole fraction n.text.toList ∧
      decimal (whole ++ fraction.getD []) = n.coefficient ∧ fraction.map List.length = n.places := by
  obtain ⟨whole, fraction, hchars, hne, hdigits, hdecimal, hplaces⟩ :=
    exists_magnitudeChars_eq n.coefficient n.places
  have htext : n.text.toList = (if n.negative then ['-'] else []) ++ (whole ++ pointed fraction) := by
    rw [text, String.toList_ofList, chars, hchars]
    cases n.negative <;> rfl
  refine ⟨whole, fraction, htext, hne, ⟨⟨_, ?_, htext⟩, hdigits, ?_⟩, hdecimal, hplaces⟩
  · cases n.negative <;> exact List.mem_cons_self
  · exact List.append_ne_nil_of_left_ne_nil hne _

/-- **A numeral is read back from its text.** -/
theorem ofText?_text (n : Numeral) : ofText? n.text = some n := by
  obtain ⟨whole, fraction, -, -, hspells, hdecimal, hplaces⟩ := n.exists_spells_text
  exact ofChars?_eq_some_iff.mpr ⟨_, _, _, hspells, by rw [hdecimal, hplaces]⟩

/-- The text of a numeral is read as its value. -/
theorem readNumber_text {α : Type} [Numeric α] {n : Numeral} {value : α}
    (h : Numeric.ofNumeral? n = some value) (position : Nat) :
    readNumber n.text position = .ok value :=
  readNumber_ok_iff.mpr ⟨n, n.ofText?_text, h⟩

end Numeral

/-! ## Integers -/

namespace MachineInt

variable {f : IntFormat}

/-- An integer has the value of its numeral: only signed types have negative values. -/
theorem ofNumeral?_toNumeral (a : MachineInt f) : ofNumeral? f a.toNumeral = some a := by
  by_cases hnegative : a.val < 0
  · have hsigned : f.signed = true := by
      by_contra hunsigned
      have hleast := a.least_le
      rw [IntFormat.least, if_neg hunsigned] at hleast
      omega
    have hval : a.val = -(a.val.natAbs : Int) := by omega
    rw [ofNumeral?, toNumeral]
    dsimp only
    rw [if_pos (decide_eq_true hnegative), if_pos hsigned, ofInt?_eq_some_iff]
    exact hval
  · have hval : a.val = (a.val.natAbs : Int) := by omega
    rw [ofNumeral?, toNumeral]
    dsimp only
    rw [if_neg (by simpa using hnegative), ofInt?_eq_some_iff]
    exact hval

/-- **What an integer type writes, it reads back.** -/
theorem readNumber_format (a : MachineInt f) (position : Nat) :
    readNumber (Numeric.format a) position = .ok a :=
  Numeral.readNumber_text a.ofNumeral?_toNumeral position

end MachineInt

end DeskCalc
