import DeskCalc.Proofs.Literals
import Mathlib.Data.Nat.Digits.Defs

/-! # How numerals are spelled

A numeral is spelled with a sign, which may be left out or be a plus sign if it is not negative, and
then with digits, among which there may be a point. Which number that is, the positions of the digits
say.

* **`Numeral.decimal`** — the number that a row of digits writes.
* **`Numeral.Spells`** — the rows of characters that spell a sign and digits.
* **`Numeral.ofChars?_eq_some_iff`** — just these are numerals, and with the number that their digits
  write.
* **`readNumber_ok_iff_spells`** — so a literal that a type has a value for spells one. -/

namespace DeskCalc

namespace Numeral

/-! ## Digits -/

/-- **The number that a row of digits writes.** Its last digit counts ones, and each other digit
counts ten times as much as the one after it. -/
def decimal (digits : List Char) : Nat :=
  Nat.ofDigits 10 (digits.reverse.map fun c => c.toNat - '0'.toNat)

/-- What digits write, digits on their right shift to the left. -/
theorem decimal_append (whole fraction : List Char) :
    decimal (whole ++ fraction) = decimal whole * 10 ^ fraction.length + decimal fraction := by
  rw [decimal, List.reverse_append, List.map_append, Nat.ofDigits_append, ← decimal, ← decimal,
    List.length_map, List.length_reverse, Nat.mul_comm, Nat.add_comm]

/-- The digits of a numeral are read as the number that they write. -/
theorem ofDigits_eq_decimal (digits : List Char) : ofDigits digits = decimal digits := by
  rw [ofDigits, Nat.ofDigitChars_eq_foldl, decimal, Nat.ofDigits_eq_foldr, List.foldr_map,
    List.foldr_reverse]
  simp only [Nat.cast_id, Nat.add_comm]

/-- The digits of a number write it. -/
theorem decimal_toDigits (n : Nat) : decimal (Nat.toDigits 10 n) = n := by
  rw [← ofDigits_eq_decimal, ofDigits, Nat.ofDigitChars_ten_toDigits]

/-- A digit counts less than ten. -/
theorem toNat_sub_lt_of_isDigit {c : Char} (h : c.isDigit = true) : c.toNat - '0'.toNat < 10 := by
  obtain ⟨-, hle⟩ := Char.isDigit_iff_toNat.mp h
  exact Nat.lt_succ_of_le (Nat.sub_le_sub_right hle _)

/-- A row of digits writes less than the next power of ten. -/
theorem decimal_lt {digits : List Char} (h : ∀ c ∈ digits, c.isDigit = true) :
    decimal digits < 10 ^ digits.length := by
  have hlt := Nat.ofDigits_lt_base_pow_length (b := 10) (by decide)
    (l := digits.reverse.map fun c => c.toNat - '0'.toNat) (by
      intro d hd
      obtain ⟨c, hc, rfl⟩ := List.mem_map.mp hd
      exact toNat_sub_lt_of_isDigit (h c (List.mem_reverse.mp hc)))
  rwa [List.length_map, List.length_reverse] at hlt

/-! ## Spellings -/

/-- How a sign is written. That a number is not negative need not be written at all. -/
def signs : Bool → List (List Char)
  | true => [['-']]
  | false => [[], ['+']]

/-- The digits of a fraction after their point. Without a fraction there is no point, but there may be
a point without any digits after it. -/
def pointed : Option (List Char) → List Char
  | none => []
  | some fraction => '.' :: fraction

/-- **Whether a row of characters spells a sign and digits,** those of a fraction after a point. There
is one digit at least, before the point or after it. -/
structure Spells (negative : Bool) (whole : List Char) (fraction : Option (List Char))
    (cs : List Char) : Prop where
  /-- The sign stands first, and the point between the digits. -/
  exists_sign : ∃ sign ∈ signs negative, cs = sign ++ (whole ++ pointed fraction)
  /-- There are only digits besides. -/
  isDigit : ∀ c ∈ whole ++ fraction.getD [], c.isDigit = true
  /-- There is a digit. -/
  ne_nil : whole ++ fraction.getD [] ≠ []

variable {negative : Bool} {whole body cs : List Char} {fraction : Option (List Char)} {n : Numeral}

/-- Digits with at most one point among them are read as the number that they write. -/
theorem ofMagnitude?_pointed (hdigits : ∀ c ∈ whole ++ fraction.getD [], c.isDigit = true)
    (hne : whole ++ fraction.getD [] ≠ []) :
    ofMagnitude? negative (whole ++ pointed fraction) =
      some ⟨negative, decimal (whole ++ fraction.getD []), fraction.map List.length⟩ := by
  rw [← ofDigits_eq_decimal]
  cases fraction with
  | none =>
    rw [Option.getD_none, List.append_nil] at hdigits hne ⊢
    rw [pointed, List.append_nil]
    exact ofMagnitude?_digits hdigits hne
  | some fraction => exact ofMagnitude?_point hdigits hne

/-- What is read is spelled so, after any sign. -/
theorem exists_spells (sign : List Char) (hsign : sign ∈ signs negative)
    (h : ofMagnitude? negative body = some n) :
    ∃ negative whole fraction, Spells negative whole fraction (sign ++ body) := by
  rcases ofMagnitude?_eq_some_iff.mp h with
    ⟨hdigits, hne, -⟩ | ⟨whole, fraction, rfl, hdigits, hne, -⟩
  · rw [← List.append_nil body] at hdigits hne
    exact ⟨negative, body, none, ⟨sign, hsign, by rw [pointed, List.append_nil]⟩, hdigits, hne⟩
  · exact ⟨negative, whole, some fraction, ⟨sign, hsign, rfl⟩, hdigits, hne⟩

/-- Digits and a point are read as they are after any sign. -/
theorem ofChars?_sign {sign : List Char} (hsign : sign ∈ signs negative)
    (hdigits : ∀ c ∈ whole ++ fraction.getD [], c.isDigit = true) :
    ofChars? (sign ++ (whole ++ pointed fraction)) =
      ofMagnitude? negative (whole ++ pointed fraction) := by
  cases negative with
  | true =>
    obtain rfl := List.mem_singleton.mp hsign
    rfl
  | false =>
    rcases List.mem_cons.mp hsign with rfl | hplus
    · -- without a sign, the first character is no sign either
      have hliteral : ∀ c ∈ (String.ofList (whole ++ pointed fraction)).toList,
          Token.isLiteral c = true := by
        intro c hc
        rw [String.toList_ofList] at hc
        cases fraction with
        | none => exact Token.isLiteral_of_isDigit (hdigits c hc)
        | some fraction =>
          by_cases hpoint : c = '.'
          · rw [hpoint]
            rfl
          · refine Token.isLiteral_of_isDigit (hdigits c ?_)
            simpa [pointed, hpoint] using hc
      have hread := ofText?_of_isLiteral hliteral
      rwa [ofText?, String.toList_ofList] at hread
    · obtain rfl := List.mem_singleton.mp hplus
      rfl

/-- **The rows of characters that are numerals** are those that spell one. -/
theorem ofChars?_eq_some_iff :
    ofChars? cs = some n ↔
      ∃ negative whole fraction, Spells negative whole fraction cs ∧
        n = ⟨negative, decimal (whole ++ fraction.getD []), fraction.map List.length⟩ := by
  have hspells : ∀ {negative whole fraction}, Spells negative whole fraction cs →
      ofChars? cs =
        some ⟨negative, decimal (whole ++ fraction.getD []), fraction.map List.length⟩ := by
    rintro negative whole fraction ⟨⟨sign, hsign, rfl⟩, hdigits, hne⟩
    rw [ofChars?_sign hsign hdigits, ofMagnitude?_pointed hdigits hne]
  constructor
  · intro h
    have hexists : ∃ negative whole fraction, Spells negative whole fraction cs := by
      have hread := h
      unfold ofChars? at hread
      split at hread
      · exact exists_spells ['-'] (List.mem_singleton.mpr rfl) hread
      · exact exists_spells ['+'] (List.mem_cons_of_mem _ List.mem_cons_self) hread
      · exact exists_spells [] List.mem_cons_self hread
    obtain ⟨negative, whole, fraction, hcs⟩ := hexists
    rw [hspells hcs] at h
    exact ⟨negative, whole, fraction, hcs, (Option.some.inj h).symm⟩
  · rintro ⟨negative, whole, fraction, hcs, rfl⟩
    exact hspells hcs

end Numeral

/-- **The texts that a type has a value for** are those that spell a numeral with a value in the type. -/
theorem readNumber_ok_iff_spells {α : Type} [Numeric α] {text : String} {position : Nat} {value : α} :
    readNumber text position = .ok value ↔
      ∃ negative whole fraction, Numeral.Spells negative whole fraction text.toList ∧
        Numeric.ofNumeral? ⟨negative, Numeral.decimal (whole ++ fraction.getD []),
          fraction.map List.length⟩ = some value := by
  rw [readNumber_ok_iff]
  constructor
  · rintro ⟨n, hn, hvalue⟩
    obtain ⟨negative, whole, fraction, hspells, rfl⟩ := Numeral.ofChars?_eq_some_iff.mp hn
    exact ⟨negative, whole, fraction, hspells, hvalue⟩
  · rintro ⟨negative, whole, fraction, hspells, hvalue⟩
    exact ⟨_, Numeral.ofChars?_eq_some_iff.mpr ⟨negative, whole, fraction, hspells, rfl⟩, hvalue⟩

end DeskCalc
