import DeskCalc.Proofs.Operands
import DeskCalc.Proofs.RoundedLiterals
import DeskCalc.Proofs.ShortestDigits
import DeskCalc.Proofs.SignificantDigits

/-! # Texts of floating-point values

A finite value is written with digits only, with a point among them or none, and after a minus sign if
it is negative. It is read back from that text, and no other text that is read as the value has fewer
significant digits. The other values have texts that are no literals.

* **`Binary.ofNumeral_toNumeral`** — the numeral of a value has that value.
* **`Binary.significantDigits_format_le`** — no text with the value has fewer significant digits.
* **`Binary.readNumber_format_shortest`** — how values are written, and what is read from their
  texts. -/

namespace DeskCalc

namespace Binary

variable {f : BinaryFormat} {negative : Bool}

/-! ## The numeral of a value -/

/-- The numeral of a value has its sign, and digits after its point if it has a point. -/
theorem toNumeral_negative (f : BinaryFormat) (negative : Bool) (rank : ℕ) :
    (toNumeral f negative rank).negative = negative ∧
      (toNumeral f negative rank).places ≠ some 0 := by
  unfold toNumeral
  dsimp only
  split
  · exact ⟨rfl, nofun⟩
  · split
    · exact ⟨rfl, nofun⟩
    · rename_i hpower
      exact ⟨rfl, fun h => hpower (Nat.sub_eq_zero_iff_le.mp (Option.some.inj h))⟩

/-- The numeral of zero. -/
theorem toNumeral_zero (f : BinaryFormat) (negative : Bool) :
    toNumeral f negative 0 = ⟨negative, 0, none⟩ := by
  have hzero : f.units 0 * decimalUnitsPerUnit f = 0 := by
    rw [BinaryFormat.units_zero, Nat.zero_mul]
  rw [toNumeral, if_pos hzero]

/-- **The numeral of a positive magnitude** has the digits that stand at the greatest power of ten. Zeros
fill up the places behind them as far as the ones. -/
theorem exists_toNumeral_eq {rank : ℕ} (negative : Bool) (hrank : rank ≠ 0) :
    ∃ digits power, IsCoarsest f rank digits power ∧
      (toNumeral f negative rank).coefficient = digits * 10 ^ (power - f.unitExponent) ∧
      (toNumeral f negative rank).places.getD 0 = f.unitExponent - power := by
  have hunits : 0 < f.units rank :=
    (Nat.zero_le _).trans_lt (f.units_strictMono (Nat.pos_of_ne_zero hrank))
  have hexact : f.units rank * decimalUnitsPerUnit f ≠ 0 :=
    (Nat.mul_pos hunits (decimalUnitsPerUnit_pos f)).ne'
  have hcoarsest := isCoarsest_shortestFrom (readsBack_units f rank)
    (not_readsBack_of_powerAbove_lt hrank)
  refine ⟨_, _, hcoarsest, ?_⟩
  rw [toNumeral, if_neg hexact]
  dsimp only
  split
  · rename_i hpower
    exact ⟨rfl, (Nat.sub_eq_zero_of_le hpower).symm⟩
  · rename_i hpower
    rw [Nat.sub_eq_zero_of_le (Nat.le_of_not_le hpower), pow_zero, Nat.mul_one]
    exact ⟨rfl, rfl⟩

/-- **The numeral of a rank** is nearest to its magnitude. -/
theorem isNearest_toNumeral (f : BinaryFormat) (negative : Bool) (rank : ℕ) :
    IsNearest f.magnitude ((toNumeral f negative rank).coefficient /
      (10 ^ (toNumeral f negative rank).places.getD 0 : ℕ)) rank := by
  by_cases hrank : rank = 0
  · have hzero := IsNearest.self f.magnitude_strictMono 0
    rw [BinaryFormat.magnitude_zero] at hzero
    rwa [hrank, toNumeral_zero, Nat.cast_zero, zero_div]
  · obtain ⟨digits, power, hcoarsest, hcoefficient, hplaces⟩ :=
      exists_toNumeral_eq (f := f) negative hrank
    have hnumber : ((digits * 10 ^ (power - f.unitExponent) : ℕ) : ℚ) /
        (10 ^ (f.unitExponent - power) : ℕ) = (digits * 10 ^ power : ℕ) / 10 ^ f.unitExponent := by
      -- of the two differences, one is zero
      have hexponents : power - f.unitExponent + f.unitExponent =
          power + (f.unitExponent - power) := by omega
      rw [div_eq_div_iff (by positivity) (by positivity)]
      push_cast
      rw [mul_assoc, mul_assoc, ← pow_add, ← pow_add, hexponents]
    rw [hcoefficient, hplaces, hnumber]
    exact readsBack_iff.mp hcoarsest.reads

/-- **The numeral of a value has that value.** -/
theorem ofNumeral_toNumeral (negative : Bool) (rank : Fin f.infinityRank) :
    ofNumeral (toNumeral f negative rank) = finite negative rank := by
  have hrounded : IsRounded negative _ (ofRank negative rank : Binary f) :=
    (isRounded_iff (isNearest_toNumeral f negative rank)).mpr rfl
  rw [isRounded_ofRatio_iff (Nat.pow_pos (by decide)), ofRank_val] at hrounded
  rw [ofNumeral, (toNumeral_negative f negative rank).1]
  exact hrounded.symm

/-! ## The text of a value -/

/-- How a finite value is written. -/
theorem exists_format_eq (negative : Bool) (rank : Fin f.infinityRank) :
    ∃ whole fraction, (format (finite negative rank)).toList =
        (if negative then ['-'] else []) ++ (whole ++ Numeral.pointed fraction) ∧
      whole ≠ [] ∧ fraction ≠ some [] ∧ ∀ c ∈ whole ++ fraction.getD [], c.isDigit = true := by
  obtain ⟨whole, fraction, htext, hne, hspells, -, hplaces⟩ :=
    (toNumeral f negative rank).exists_spells_text
  obtain ⟨hnegative, hpoint⟩ := toNumeral_negative f negative rank
  rw [hnegative] at htext
  refine ⟨whole, fraction, htext, hne, ?_, hspells.isDigit⟩
  rintro rfl
  exact hpoint hplaces.symm

/-- The texts of the other values spell no numeral. -/
theorem ofText?_format_eq_none {value : Binary f}
    (hvalue : value = nan ∨ ∃ negative, value = infinite negative) :
    Numeral.ofText? (format value) = none := by
  rcases hvalue with rfl | ⟨negative, rfl⟩
  · show Numeral.ofText? "NaN" = none
    decide +kernel
  · cases negative with
    | true =>
      show Numeral.ofText? "-inf" = none
      decide +kernel
    | false =>
      show Numeral.ofText? "inf" = none
      decide +kernel

/-- **No text with the value of a finite one has fewer significant digits** than the value is written
with, unless the value is a zero. -/
theorem significantDigits_format_le {rank : Fin f.infinityRank} {text : String} {position : ℕ}
    (hrank : rank.val ≠ 0) (hread : readNumber text position = .ok (finite negative rank)) :
    Numeral.significantDigits (format (finite negative rank)) ≤ Numeral.significantDigits text := by
  obtain ⟨sign, whole, fraction, hspells, hrounded⟩ := readNumber_ok_iff_isRounded.mp hread
  obtain ⟨c, b, hc, hdecimal⟩ := hspells.significantDigits_le_iff.mp le_rfl
  obtain ⟨formatWhole, formatFraction, -, -, hformat, hcoefficient, -⟩ :=
    (toNumeral f negative rank).exists_spells_text
  obtain ⟨digits, power, hcoarsest, hdigits, -⟩ := exists_toNumeral_eq (f := f) negative hrank
  -- with its significant digits as `c`, the text writes a number near to the same magnitude
  rw [Numeral.decimalFraction_eq, hdecimal] at hrounded
  refine hformat.significantDigits_le_iff.mpr ⟨digits, _, ?_, hcoefficient.trans hdigits⟩
  exact hcoarsest.digits_lt hrank (isNearest_of_isRounded hrounded) hc

/-- **Texts of floating-point values.** A finite value is written with digits, and with a point among
them or none, after a minus sign if it is negative. What is read from that text, as a literal or as an
expression, is just the value, with the sign of a zero as well. If the value is not a zero, then each
text that is read as it has as many significant digits at least. The text of an infinity or of
not-a-number is no literal. -/
theorem readNumber_format_shortest (f : BinaryFormat) :
    (∀ (negative : Bool) (rank : Fin f.infinityRank),
      (∃ whole fraction, (format (finite negative rank)).toList =
          (if negative then ['-'] else []) ++ (whole ++ Numeral.pointed fraction) ∧
        whole ≠ [] ∧ fraction ≠ some [] ∧ ∀ c ∈ whole ++ fraction.getD [], c.isDigit = true) ∧
      readNumber (format (finite negative rank)) 0 = .ok (finite negative rank) ∧
      (evaluateAs (Binary f) (format (finite negative rank))).outcome = .ok (finite negative rank) ∧
      (rank.val ≠ 0 → ∀ text, readNumber text 0 = .ok (finite negative rank) →
        Numeral.significantDigits (format (finite negative rank)) ≤
          Numeral.significantDigits text)) ∧
    ∀ value : Binary f, value = nan ∨ (∃ negative, value = infinite negative) →
      readNumber (format value) 0 =
        (.error (.invalidNumber (format value) 0) : Except ParseError (Binary f)) := by
  refine ⟨fun negative rank => ⟨exists_format_eq negative rank, ?_, ?_, ?_⟩, ?_⟩
  · exact Numeral.readNumber_text (congrArg some (ofNumeral_toNumeral negative rank)) 0
  · have hoperand : IsOperand (format (finite negative rank)).toList (.ok (finite negative rank)) :=
      Numeral.isOperand_text (congrArg some (ofNumeral_toNumeral negative rank))
    exact hoperand.outcome_evaluateAs
  · exact fun hrank text => significantDigits_format_le hrank
  · intro value hvalue
    rw [readNumber, ofText?_format_eq_none hvalue]
    rfl

/-- The single-precision value next to a tenth is written with one digit, although its literals can have
more, and negative infinity is written with no literal at all. -/
theorem readNumber_format_shortest_tenth :
    (∃ rank : Fin BinaryFormat.single.infinityRank, rank.val ≠ 0 ∧
      format (finite false rank) = "0.1" ∧
      readNumber "0.100000001" 0 = .ok (finite false rank) ∧
      Numeral.significantDigits (format (finite false rank)) ≤
        Numeral.significantDigits "0.100000001") ∧
    readNumber "-inf" 0 = (.error (.invalidNumber "-inf" 0) : Except ParseError Single) := by
  have hshortest := readNumber_format_shortest .single
  have hread : readNumber "0.100000001" 0 =
      .ok (finite false ⟨1036831949, by decide⟩ : Single) := by
    decide +kernel
  exact ⟨⟨⟨1036831949, by decide⟩, by decide, by decide +kernel, hread,
    (hshortest.1 false _).2.2.2 (by decide) _ hread⟩, hshortest.2 (infinite true) (.inr ⟨true, rfl⟩)⟩

end Binary

end DeskCalc
