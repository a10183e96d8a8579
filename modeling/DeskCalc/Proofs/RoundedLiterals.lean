import DeskCalc.Binary.Numeric
import DeskCalc.Proofs.Rounding
import DeskCalc.Proofs.Spelling

/-! # Floating-point literals are correctly rounded

A literal of a floating-point type has the value nearest to the number that it writes, whatever number
of digits it has: it is rounded once, and of two values that are equally near the one with the even
significand is taken. From half a step beyond the greatest finite value on it is infinite.

* **`BinaryFormat.overflow`** — where the finite values end.
* **`Binary.IsRounded`** — the value that an exact number is rounded to.
* **`Binary.isRounded_iff`** — this is the value at the nearest rank.
* **`Binary.readNumber_correctlyRounded`** — literals have this value, and what spells no numeral is
  refused. -/

namespace DeskCalc

/-! ## Where the finite values end -/

namespace BinaryFormat

variable {f : BinaryFormat} {x : ℚ} {rank : ℕ}

/-- The exponent of the greatest power of two among the finite values. -/
def maxExponent (f : BinaryFormat) : ℕ :=
  2 ^ (f.exponentBits - 1) - 1

/-- **Where numbers overflow.** The greatest finite value has all bits of its significand set; this is
half a step more. -/
def overflow (f : BinaryFormat) : ℚ :=
  (2 - 1 / 2 ^ (f.fractionBits + 1)) * 2 ^ f.maxExponent

/-- The scale of the greatest finite values. -/
def topScale (f : BinaryFormat) : ℕ :=
  2 ^ f.exponentBits - 3

theorem infinityRank_eq (f : BinaryFormat) :
    f.infinityRank = f.topScale * f.binade + 2 * f.binade := by
  rw [infinityRank, ← Nat.add_mul]
  cases f <;> rfl

/-- The rank of the greatest finite value. -/
def lastRank (f : BinaryFormat) : ℕ :=
  f.infinityRank - 1

theorem lastRank_succ (f : BinaryFormat) : f.lastRank + 1 = f.infinityRank := by
  have hpos := f.binade_pos
  have hrank := f.infinityRank_eq
  unfold lastRank
  omega

/-- The significand of the greatest finite value has all its bits set. -/
theorem odd_lastRank (f : BinaryFormat) : ¬Even f.lastRank := by
  have hpos := f.binade_pos
  have heven : Even (f.lastRank + 1) := by
    rw [lastRank_succ, infinityRank]
    exact f.even_binade.mul_left _
  exact Nat.even_add_one.mp heven

/-- **Numbers overflow in the middle** between the greatest finite value and the magnitude that would be
the next. -/
theorem two_mul_overflow (f : BinaryFormat) :
    2 * f.overflow = f.magnitude f.lastRank + f.magnitude f.infinityRank := by
  have hpos := f.binade_pos
  have hlast : f.units f.lastRank = (2 * f.binade - 1) * 2 ^ f.topScale := by
    have hrank : f.lastRank = f.topScale * f.binade + (2 * f.binade - 1) := by
      rw [lastRank, infinityRank_eq]
      omega
    rw [hrank]
    exact units_of_significand (.inr (by omega)) (by omega)
  have hinfinity : f.units f.infinityRank = 2 * f.binade * 2 ^ f.topScale := by
    rw [infinityRank_eq]
    exact units_of_significand (.inr (by omega)) le_rfl
  have hscale : 2 ^ f.topScale * f.binade = 2 ^ f.maxExponent * f.unitsPerOne := by
    have hexponent : f.topScale + f.fractionBits = f.maxExponent + f.unitExponent := by
      cases f <;> rfl
    rw [binade, unitsPerOne, Nat.pow_eq, Nat.pow_eq, ← Nat.pow_add, ← Nat.pow_add, hexponent]
  have hbits : (2 : ℚ) ^ (f.fractionBits + 1) = 2 * f.binade := by
    rw [pow_succ', binade, Nat.pow_eq, Nat.cast_pow, Nat.cast_ofNat]
  have hcast : (2 : ℚ) ^ f.topScale * f.binade = 2 ^ f.maxExponent * f.unitsPerOne := by
    exact_mod_cast hscale
  have hbinade : (f.binade : ℚ) ≠ 0 := Nat.cast_ne_zero.mpr hpos.ne'
  have hunits : (f.unitsPerOne : ℚ) ≠ 0 := Nat.cast_ne_zero.mpr f.unitsPerOne_pos.ne'
  rw [overflow, magnitude, magnitude, hlast, hinfinity, hbits, ← add_div, eq_div_iff hunits]
  push_cast [Nat.cast_sub (show 1 ≤ 2 * f.binade by omega)]
  calc 2 * ((2 - 1 / (2 * (f.binade : ℚ))) * 2 ^ f.maxExponent) * f.unitsPerOne
      = (4 - 1 / f.binade) * (2 ^ f.maxExponent * f.unitsPerOne) := by
        field_simp
        ring
    _ = (2 * (f.binade : ℚ) - 1) * 2 ^ f.topScale + 2 * f.binade * 2 ^ f.topScale := by
        rw [← hcast]
        field_simp
        ring

/-- **What is rounded to a finite value does not overflow,** and what is rounded further up does. -/
theorem lt_overflow_iff (h : IsNearest f.magnitude x rank) :
    x < f.overflow ↔ rank < f.infinityRank := by
  have hmono := f.magnitude_strictMono
  have hoverflow := f.two_mul_overflow
  have hsucc := f.lastRank_succ
  constructor
  · intro hlt
    by_contra hge
    have hlast : f.lastRank < rank := by omega
    have hmiddle := h.middle_le hmono hlast
    have hle : f.magnitude f.infinityRank ≤ f.magnitude rank := hmono.monotone (by omega)
    linarith
  · intro hlt
    have hmiddle := h.le_middle hmono hlt
    have hle : f.magnitude rank ≤ f.magnitude f.lastRank := hmono.monotone (by omega)
    refine lt_of_le_of_ne (by linarith) fun hx => ?_
    -- in the middle, the odd significand of the greatest finite value is not taken
    have hlast : rank = f.lastRank := hmono.injective (by linarith)
    have htie : |f.magnitude f.infinityRank - x| = |f.magnitude rank - x| := by
      have hless := hmono hlt
      rw [abs_of_nonneg (by linarith), abs_of_nonpos (by linarith)]
      linarith
    exact f.odd_lastRank (hlast ▸ (h f.infinityRank).2 (by omega) htie)

/-- Below the overflow, the nearest finite value is nearest among all magnitudes. -/
theorem isNearest_of_finite (hx : x < f.overflow)
    (h : ∀ other < f.infinityRank, |f.magnitude rank - x| ≤ |f.magnitude other - x| ∧
      (other ≠ rank → |f.magnitude other - x| = |f.magnitude rank - x| →
        Even (f.significand rank))) :
    IsNearest f.magnitude x rank := by
  intro other
  rw [← even_significand_iff]
  rcases Nat.lt_or_ge other f.infinityRank with hlt | hge
  · exact h other hlt
  · -- the greatest finite value is nearer than what is beyond it
    have hmono := f.magnitude_strictMono
    have hoverflow := f.two_mul_overflow
    have hsucc := f.lastRank_succ
    have hlast := (h f.lastRank (by omega)).1
    have hless : f.magnitude f.lastRank < f.magnitude f.infinityRank := hmono (by omega)
    have hbeyond : f.magnitude f.infinityRank ≤ f.magnitude other := hmono.monotone hge
    have hfar : |f.magnitude f.lastRank - x| < |f.magnitude other - x| := by
      rw [abs_of_pos (show 0 < f.magnitude other - x by linarith)]
      exact abs_lt.mpr ⟨by linarith, by linarith⟩
    exact ⟨by linarith, fun _ htie => by linarith⟩

end BinaryFormat

/-! ## The value of a number -/

namespace Binary

variable {f : BinaryFormat} {negative : Bool} {x : ℚ} {rank : ℕ} {value : Binary f}

/-- **Whether a value is what a number is rounded to:** the number with the magnitude `x`, negative or
not. It is the nearest finite value, with an even significand if another one is equally near, or an
infinity if the number overflows. The value has the sign of the number, also if it is a zero. -/
def IsRounded (negative : Bool) (x : ℚ) : Binary f → Prop
  | nan => False
  | infinite sign => sign = negative ∧ f.overflow ≤ x
  | finite sign rank => sign = negative ∧ x < f.overflow ∧
      ∀ other : Fin f.infinityRank, |f.magnitude rank - x| ≤ |f.magnitude other - x| ∧
        (other ≠ rank → |f.magnitude other - x| = |f.magnitude rank - x| →
          Even (f.significand rank))

/-- The finite value that a number is rounded to is that of the nearest magnitude. -/
theorem isNearest_of_isRounded {sign : Bool} {nearest : Fin f.infinityRank}
    (h : IsRounded negative x (finite sign nearest)) : IsNearest f.magnitude x nearest := by
  obtain ⟨-, hx, hnearest⟩ := h
  refine BinaryFormat.isNearest_of_finite hx fun other hother => ?_
  have hboth := hnearest ⟨other, hother⟩
  exact ⟨hboth.1, fun hne => hboth.2 fun heq => hne (congrArg Fin.val heq)⟩

/-- **The value that a number is rounded to** is that of the nearest magnitude. -/
theorem isRounded_iff (h : IsNearest f.magnitude x rank) :
    IsRounded negative x value ↔ value = ofRank negative rank := by
  have hoverflow := BinaryFormat.lt_overflow_iff h
  constructor
  · intro hvalue
    cases value with
    | nan => exact hvalue.elim
    | infinite sign =>
      obtain ⟨rfl, hx⟩ := hvalue
      have hge : ¬rank < f.infinityRank := fun hlt => (hoverflow.mpr hlt).not_ge hx
      rw [ofRank, dif_neg hge]
    | finite sign nearest =>
      obtain rfl := (isNearest_of_isRounded hvalue).unique f.magnitude_strictMono h
      rw [ofRank_val, hvalue.1]
  · rintro rfl
    by_cases hlt : rank < f.infinityRank
    · rw [ofRank, dif_pos hlt]
      refine ⟨rfl, hoverflow.mpr hlt, fun other => ⟨(h other).1, fun hne htie => ?_⟩⟩
      exact BinaryFormat.even_significand_iff.mpr
        ((h other).2 (fun heq => hne (Fin.ext heq)) htie)
    · rw [ofRank, dif_neg hlt]
      exact ⟨rfl, not_lt.mp fun hx => hlt (hoverflow.mp hx)⟩

/-- A ratio has the value that it is rounded to. -/
theorem isRounded_ofRatio_iff {num den : ℕ} (hden : 0 < den) :
    IsRounded negative (num / den) value ↔ value = ofRatio negative num den := by
  have hnearest := f.isNearest_roundRank (num * f.unitsPerOne) hden
  have hx : ((num * f.unitsPerOne : ℕ) : ℚ) / den / f.unitsPerOne = num / den := by
    have hpos : (f.unitsPerOne : ℚ) ≠ 0 := Nat.cast_ne_zero.mpr f.unitsPerOne_pos.ne'
    push_cast
    field_simp
  rw [hx] at hnearest
  exact isRounded_iff hnearest

end Binary

/-! ## Literals -/

/-- **The number that digits write,** those of a fraction after the point. -/
def Numeral.decimalFraction (whole : List Char) (fraction : Option (List Char)) : ℚ :=
  decimal whole + decimal (fraction.getD []) / 10 ^ (fraction.getD []).length

/-- All digits together write it in units of the last one. -/
theorem Numeral.decimalFraction_eq (whole : List Char) (fraction : Option (List Char)) :
    decimalFraction whole fraction =
      (decimal (whole ++ fraction.getD []) : ℕ) / (10 ^ (fraction.getD []).length : ℕ) := by
  rw [decimalFraction, decimal_append]
  push_cast
  field_simp

namespace Binary

variable {f : BinaryFormat} {value : Binary f} {text : String}

/-- **A floating-point type reads the texts that spell a numeral,** as the value that it is rounded
to. -/
theorem readNumber_ok_iff_isRounded {position : ℕ} :
    readNumber text position = .ok value ↔
      ∃ negative whole fraction, Numeral.Spells negative whole fraction text.toList ∧
        IsRounded negative (Numeral.decimalFraction whole fraction) value := by
  have hvalue : ∀ negative whole fraction,
      IsRounded negative (Numeral.decimalFraction whole fraction) value ↔
        Numeric.ofNumeral? ⟨negative, Numeral.decimal (whole ++ fraction.getD []),
          fraction.map List.length⟩ = some value := by
    intro negative whole fraction
    have hplaces : (fraction.map List.length).getD 0 = (fraction.getD []).length := by
      cases fraction <;> rfl
    rw [Numeral.decimalFraction_eq, isRounded_ofRatio_iff (Nat.pow_pos (by decide)), eq_comm, ← hplaces]
    exact Option.some_inj.symm
  simp only [hvalue]
  exact readNumber_ok_iff_spells

/-- **Floating-point literals are correctly rounded.** A floating-point type reads a text just if it
spells a numeral: a sign that may be left out, then digits with at most one point before, among or after
them. The value is the one that the number is rounded to, once and however many digits there are. All
other texts are refused, and the error quotes them unchanged. -/
theorem readNumber_correctlyRounded (f : BinaryFormat) (text : String) :
    (∀ value : Binary f, readNumber text 0 = .ok value ↔
      ∃ negative whole fraction, Numeral.Spells negative whole fraction text.toList ∧
        IsRounded negative (Numeral.decimalFraction whole fraction) value) ∧
      ((∃ value : Binary f, readNumber text 0 = .ok value) ↔
        ∃ negative whole fraction, Numeral.Spells negative whole fraction text.toList) ∧
      ∀ cause, (readNumber text 0 : Except ParseError (Binary f)) = .error cause ↔
        (¬∃ negative whole fraction, Numeral.Spells negative whole fraction text.toList) ∧
          cause = .invalidNumber text 0 := by
  have hreads : (∃ value : Binary f, readNumber text 0 = .ok value) ↔
      ∃ negative whole fraction, Numeral.Spells negative whole fraction text.toList := by
    constructor
    · rintro ⟨value, hvalue⟩
      obtain ⟨negative, whole, fraction, hspells, -⟩ := readNumber_ok_iff_spells.mp hvalue
      exact ⟨negative, whole, fraction, hspells⟩
    · rintro ⟨negative, whole, fraction, hspells⟩
      exact ⟨ofNumeral _, readNumber_ok_iff_spells.mpr ⟨negative, whole, fraction, hspells, rfl⟩⟩
  refine ⟨fun value => readNumber_ok_iff_isRounded, hreads, fun cause => ?_⟩
  rw [readNumber_error_iff, hreads]

/-- A digit far behind decides a literal that is otherwise in the middle between two values. -/
example : (readNumber "16777217" 0 : Except ParseError Single) = readNumber "16777216" 0 ∧
    (readNumber "16777217.00000000000000001" 0 : Except ParseError Single) =
      readNumber "16777218" 0 := by
  decide +kernel

end Binary

end DeskCalc
