import DeskCalc.Proofs.Spelling
import Mathlib.Data.List.DropRight

/-! # Significant digits

Zeros at either end of a row of digits only show where its point stands. The other digits are the
significant ones. How many there are depends on the number alone: as many as a whole number needs
that, moved by the right power of ten, is the number that the row writes.

* **`Numeral.significantDigits`** — how many significant digits a text has.
* **`Numeral.exists_eq_significant`** — only zeros are left out, and at the ends only.
* **`Numeral.Spells.significantDigits_le_iff`** — when a few digits are enough for a number. -/

namespace DeskCalc

namespace Numeral

/-- **The significant digits of a row:** all but the zeros that lead and those that trail. -/
def significant (digits : List Char) : List Char :=
  (digits.dropWhile (· == '0')).rdropWhile (· == '0')

/-- **How many significant digits a text has.** -/
def significantDigits (text : String) : Nat :=
  (significant (text.toList.filter Char.isDigit)).length

/-! ## The digits that are left -/

section Row

variable {digits : List Char}

/-- A row of zeros. -/
theorem eq_replicate_of_forall_eq {row : List Char} (h : ∀ c ∈ row, (c == '0') = true) :
    row = List.replicate row.length '0' :=
  List.eq_replicate_of_mem fun c hc => beq_iff_eq.mp (h c hc)

/-- **Only zeros at the ends are no significant digits.** -/
theorem exists_eq_significant (digits : List Char) :
    ∃ a b, digits = List.replicate a '0' ++ (significant digits ++ List.replicate b '0') := by
  have hleading := eq_replicate_of_forall_eq fun c hc =>
    List.mem_takeWhile_imp (p := fun c => c == '0') (l := digits) hc
  have htrailing := eq_replicate_of_forall_eq fun c hc =>
    List.mem_rtakeWhile_imp (p := fun c => c == '0') (l := digits.dropWhile (· == '0')) hc
  refine ⟨(digits.takeWhile (· == '0')).length,
    ((digits.dropWhile (· == '0')).rtakeWhile (· == '0')).length, ?_⟩
  rw [← hleading, ← htrailing, significant, List.rdropWhile_append_rtakeWhile,
    List.takeWhile_append_dropWhile]

/-- The first significant digit is not zero. -/
theorem head_significant_ne {first : Char} {others : List Char}
    (h : significant digits = first :: others) : first ≠ '0' := by
  have hhead : (digits.dropWhile (· == '0')).head? = some first := by
    rw [← List.rdropWhile_append_rtakeWhile (p := (· == '0')) (l := digits.dropWhile (· == '0')),
      ← significant, h]
    rfl
  have hnot := List.head?_dropWhile_not (fun c => c == '0') digits
  rw [hhead] at hnot
  simpa using hnot

/-- The last significant digit is not zero. -/
theorem last_significant_ne {last : Char} {others : List Char}
    (h : significant digits = others ++ [last]) : last ≠ '0' := by
  have hne : significant digits ≠ [] := by
    rw [h]
    exact List.concat_ne_nil last others
  have hlast : (significant digits).getLast hne = last := by
    simp only [h, List.getLast_append_singleton]
  have hnot : ¬((significant digits).getLast hne == '0') = true :=
    List.rdropWhile_last_not _ _ hne
  rw [hlast] at hnot
  simpa using hnot

/-- Zeros at the ends only shift what the digits between them write. -/
theorem decimal_zeros (digits : List Char) (a b : Nat) :
    decimal (List.replicate a '0' ++ (digits ++ List.replicate b '0')) = decimal digits * 10 ^ b := by
  have hzeros : ∀ n, decimal (List.replicate n '0') = 0 := by
    intro n
    rw [← ofDigits_eq_decimal, ofDigits, Nat.ofDigitChars_replicate_zero, Nat.mul_zero]
  rw [decimal_append, decimal_append, hzeros, hzeros, Nat.zero_mul, Nat.zero_add, Nat.add_zero,
    List.length_replicate]

/-- A digit other than zero counts. -/
theorem toNat_sub_pos {c : Char} (hdigit : c.isDigit = true) (hne : c ≠ '0') :
    0 < c.toNat - '0'.toNat := by
  obtain ⟨hge, -⟩ := Char.isDigit_iff_toNat.mp hdigit
  refine Nat.sub_pos_of_lt (lt_of_le_of_ne hge fun heq => hne ?_)
  exact Char.toNat_inj.mp heq.symm

/-- A single digit writes what it counts. -/
theorem decimal_singleton (c : Char) : decimal [c] = c.toNat - '0'.toNat :=
  Nat.ofDigits_singleton

/-- **Significant digits write a number with that many digits** that is no multiple of ten. -/
theorem decimal_significant (hdigits : ∀ c ∈ digits, c.isDigit = true)
    (hne : significant digits ≠ []) :
    10 ^ ((significant digits).length - 1) ≤ decimal (significant digits) ∧
      ¬10 ∣ decimal (significant digits) := by
  have hdigit : ∀ c ∈ significant digits, c.isDigit = true := by
    intro c hc
    obtain ⟨a, b, heq⟩ := exists_eq_significant digits
    refine hdigits c ?_
    rw [heq]
    exact List.mem_append_right _ (List.mem_append_left _ hc)
  constructor
  · obtain ⟨first, others, hfirst⟩ := List.exists_cons_of_ne_nil hne
    have hpos := toNat_sub_pos (hdigit first (hfirst ▸ List.mem_cons_self)) (head_significant_ne hfirst)
    rw [hfirst, List.length_cons, Nat.add_sub_cancel, ← List.singleton_append, decimal_append,
      decimal_singleton]
    exact Nat.le_add_right_of_le (Nat.le_mul_of_pos_left _ hpos)
  · obtain ⟨others, last, hlast⟩ := (List.eq_nil_or_concat' (significant digits)).resolve_left hne
    have hmem : last ∈ significant digits := by
      rw [hlast]
      exact List.mem_append_right _ List.mem_cons_self
    have hpos := toNat_sub_pos (hdigit last hmem) (last_significant_ne hlast)
    have hlt := toNat_sub_lt_of_isDigit (hdigit last hmem)
    rw [hlast, decimal_append, decimal_singleton, List.length_singleton, pow_one]
    omega

/-- **A row needs as many digits as the number that it writes,** without the zeros at the end. -/
theorem length_significant_le_iff (hdigits : ∀ c ∈ digits, c.isDigit = true) {k : Nat} :
    (significant digits).length ≤ k ↔ ∃ c b, c < 10 ^ k ∧ decimal digits = c * 10 ^ b := by
  obtain ⟨a, b, heq⟩ := exists_eq_significant digits
  have hdecimal : decimal digits = decimal (significant digits) * 10 ^ b := by
    conv_lhs => rw [heq, decimal_zeros]
  constructor
  · intro hlength
    refine ⟨_, b, ?_, hdecimal⟩
    refine (decimal_lt fun c hc => hdigits c ?_).trans_le (Nat.pow_le_pow_right (by decide) hlength)
    rw [heq]
    exact List.mem_append_right _ (List.mem_append_left _ hc)
  · rintro ⟨c, b', hc, hwrites⟩
    rw [hdecimal] at hwrites
    by_cases hne : significant digits = []
    · rw [hne]
      exact Nat.zero_le k
    obtain ⟨hge, hmultiple⟩ := decimal_significant hdigits hne
    have hten : 0 < 10 := by decide
    -- the number has no more zeros at the end than there are behind the significant digits
    have hle : b' ≤ b := by
      by_contra hlt
      obtain ⟨j, rfl⟩ := Nat.exists_eq_add_of_lt (Nat.lt_of_not_le hlt)
      refine hmultiple ⟨c * 10 ^ j, Nat.eq_of_mul_eq_mul_right (Nat.pow_pos (n := b) hten) ?_⟩
      rw [hwrites]
      ring
    obtain ⟨j, rfl⟩ := Nat.exists_eq_add_of_le hle
    have hfewer : decimal (significant digits) ≤ c := by
      refine Nat.le_of_mul_le_mul_right ?_ (Nat.pow_pos (n := b') hten)
      rw [← hwrites, Nat.pow_add]
      exact Nat.mul_le_mul_left _ (Nat.le_mul_of_pos_right _ (Nat.pow_pos hten))
    have hpow := (hge.trans hfewer).trans_lt hc
    have hlength := (Nat.pow_lt_pow_iff_right (by decide)).mp hpow
    omega

end Row

/-! ## The digits of a text -/

variable {negative : Bool} {whole : List Char} {fraction : Option (List Char)} {text : String}

/-- The digits of a text that spells a numeral are those before and after its point. -/
theorem Spells.filter_isDigit (h : Spells negative whole fraction text.toList) :
    text.toList.filter Char.isDigit = whole ++ fraction.getD [] := by
  obtain ⟨⟨sign, hsign, hcs⟩, hdigits, -⟩ := h
  -- neither a sign nor the point is a digit
  have hnosign : sign.filter Char.isDigit = [] := by
    cases negative with
    | true =>
      obtain rfl := List.mem_singleton.mp hsign
      rfl
    | false =>
      rcases List.mem_cons.mp hsign with rfl | hplus
      · rfl
      · obtain rfl := List.mem_singleton.mp hplus
        rfl
  have hpoint : (pointed fraction).filter Char.isDigit = (fraction.getD []).filter Char.isDigit := by
    cases fraction <;> rfl
  rw [hcs, List.filter_append, List.filter_append, hnosign, List.nil_append, hpoint,
    ← List.filter_append, List.filter_eq_self.mpr hdigits]

/-- **When a few digits are enough for a number:** just if it is a number of so few digits, moved by a
power of ten. -/
theorem Spells.significantDigits_le_iff (h : Spells negative whole fraction text.toList) {k : Nat} :
    significantDigits text ≤ k ↔
      ∃ c b, c < 10 ^ k ∧ decimal (whole ++ fraction.getD []) = c * 10 ^ b := by
  rw [significantDigits, h.filter_isDigit]
  exact length_significant_le_iff h.isDigit

end Numeral

end DeskCalc
