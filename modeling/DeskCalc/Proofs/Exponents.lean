import DeskCalc.Binary.Numeric
import DeskCalc.Integer
import DeskCalc.Proofs.Rounding
import Mathlib.Data.Rat.Floor

/-! # Exponents are truncated and kept in range

A value whose whole part is beyond the range of exponents is asked on which side of zero it is. That
comes to the same as going from the exact number to the nearest exponent, for each type: what is out
of range is not near to zero. So the greater one of two values never has the lesser exponent.

* **`truncated`** — a number without its fraction.
* **`BinaryFormat.numberAt`** — the exact number at a place in the order of the values.
* **`Binary.exponent_eq_of_place?`** — the exponent of a floating-point value, from its place.
* **`exponent_eq_clampExponent_truncated`** — the exponents of all types, and their order. -/

namespace DeskCalc

/-! ## Numbers without their fractions -/

/-- **A number without its fraction:** the last whole number on the way from zero. -/
def truncated (x : ℚ) : ℤ :=
  if 0 ≤ x then ⌊x⌋ else ⌈x⌉

@[simp] theorem truncated_zero : truncated 0 = 0 := by
  rw [truncated, if_pos le_rfl, Int.floor_zero]

/-- Opposite numbers have opposite whole parts. -/
theorem truncated_neg (x : ℚ) : truncated (-x) = -truncated x := by
  rcases lt_trichotomy x 0 with hneg | rfl | hpos
  · rw [truncated, truncated, if_pos (neg_nonneg.mpr hneg.le), if_neg hneg.not_ge, Int.floor_neg]
  · rw [neg_zero, truncated_zero, neg_zero]
  · rw [truncated, truncated, if_neg (neg_lt_zero.mpr hpos).not_ge, if_pos hpos.le, Int.ceil_neg]

/-- **Whole parts are ordered as their numbers.** -/
theorem truncated_le_truncated {x y : ℚ} (hxy : x ≤ y) : truncated x ≤ truncated y := by
  unfold truncated
  rcases le_or_gt 0 x with hx | hx
  · rw [if_pos hx, if_pos (hx.trans hxy)]
    exact Int.floor_mono hxy
  · rw [if_neg hx.not_ge]
    rcases le_or_gt 0 y with hy | hy
    · rw [if_pos hy]
      exact (Int.ceil_le.mpr (by exact_mod_cast hx.le)).trans (Int.floor_nonneg.mpr hy)
    · rw [if_neg hy.not_ge]
      exact Int.ceil_mono hxy

/-- The whole part of a ratio is its quotient. -/
theorem truncated_natCast_div (num den : ℕ) : truncated (num / den) = (num / den : ℕ) := by
  rw [truncated, if_pos (by positivity), Rat.floor_natCast_div_natCast, Int.natCast_ediv]

/-- Going to the nearest exponent keeps the order. -/
theorem clampExponent_le_clampExponent {m n : ℤ} (h : m ≤ n) : clampExponent m ≤ clampExponent n :=
  max_le_max_left leastExponent (min_le_min_right greatestExponent h)

/-! ## Places and numbers -/

namespace BinaryFormat

/-- **The exact number at a place** in the order of the values: the magnitude of its rank, with its
sign. An infinity is at the place of the first magnitude that is out of range. -/
def numberAt (f : BinaryFormat) (place : ℤ) : ℚ :=
  if place < 0 then -f.magnitude place.natAbs else f.magnitude place.natAbs

variable {f : BinaryFormat}

@[simp] theorem numberAt_natCast (rank : ℕ) : f.numberAt rank = f.magnitude rank :=
  if_neg (Int.natCast_nonneg rank).not_gt

theorem numberAt_zero (f : BinaryFormat) : f.numberAt 0 = 0 :=
  f.magnitude_zero

/-- Opposite places are those of opposite numbers. -/
@[simp] theorem numberAt_neg_natCast (rank : ℕ) : f.numberAt (-rank) = -f.magnitude rank := by
  rw [numberAt, Int.natAbs_neg, Int.natAbs_natCast]
  split
  · rfl
  · rename_i hnonneg
    obtain rfl : rank = 0 := by omega
    rw [magnitude_zero, neg_zero]

/-- **Numbers are ordered as their places.** -/
theorem numberAt_le_numberAt {place other : ℤ} (hle : place ≤ other) :
    f.numberAt place ≤ f.numberAt other := by
  have hmono := f.magnitude_strictMono.monotone
  have hnonneg : ∀ rank, 0 ≤ f.magnitude rank := fun rank => by
    rw [← f.magnitude_zero]
    exact hmono (Nat.zero_le rank)
  unfold numberAt
  rcases Int.lt_or_le place 0 with hplace | hplace
  · rw [if_pos hplace]
    split
    · exact neg_le_neg (hmono (by omega))
    · exact (neg_nonpos.mpr (hnonneg _)).trans (hnonneg _)
  · rw [if_neg hplace.not_gt, if_neg (hplace.trans hle).not_gt]
    exact hmono (by omega)

/-- The whole part of a magnitude. -/
theorem truncated_magnitude (rank : ℕ) :
    truncated (f.magnitude rank) = (f.units rank / f.unitsPerOne : ℕ) :=
  truncated_natCast_div (f.units rank) f.unitsPerOne

/-- The first magnitude that is out of range is beyond the exponents on both sides. -/
theorem neg_leastExponent_lt_infinity (f : BinaryFormat) :
    -leastExponent < (f.units f.infinityRank / f.unitsPerOne : ℕ) := by
  cases f <;> decide +kernel

/-- What has a positive whole part is at a positive place. -/
theorem place_pos {place : ℤ} (h : 0 < truncated (f.numberAt place)) : 0 < place := by
  by_contra hle
  have hnumber : f.numberAt place ≤ 0 := numberAt_zero f ▸ numberAt_le_numberAt (not_lt.mp hle)
  have hwhole := truncated_le_truncated hnumber
  rw [truncated_zero] at hwhole
  omega

/-- What has a negative whole part is at a negative place. -/
theorem place_neg {place : ℤ} (h : truncated (f.numberAt place) < 0) : place < 0 := by
  by_contra hge
  have hnumber : 0 ≤ f.numberAt place := numberAt_zero f ▸ numberAt_le_numberAt (not_lt.mp hge)
  have hwhole := truncated_le_truncated hnumber
  rw [truncated_zero] at hwhole
  omega

end BinaryFormat

/-! ## Floating-point exponents -/

namespace Binary

open BinaryFormat

variable {f : BinaryFormat} {a b : Binary f} {place : ℤ}

/-- The whole part of a value, from its place: infinities are out of range. -/
theorem truncate?_eq_of_place? (h : a.place? = some place) :
    a.truncate? = exponent? (truncated (f.numberAt place)) := by
  have hbelow := f.neg_leastExponent_lt_infinity
  have habove : greatestExponent < -leastExponent := by decide
  cases a with
  | nan => cases h
  | infinite negative =>
    -- an infinity has no whole part, and the number at its place has none in range
    obtain rfl := Option.some.inj h
    cases negative
    · rw [if_neg Bool.false_ne_true, numberAt_natCast, truncated_magnitude, exponent?,
        if_neg (by omega)]
      rfl
    · rw [if_pos rfl, numberAt_neg_natCast, truncated_neg, truncated_magnitude, exponent?,
        if_neg (by omega)]
      rfl
  | finite negative rank =>
    obtain rfl := Option.some.inj h
    cases negative
    · rw [if_neg Bool.false_ne_true, numberAt_natCast, truncated_magnitude]
      rfl
    · rw [if_pos rfl, numberAt_neg_natCast, truncated_neg, truncated_magnitude]
      rfl

/-- **The exponent of a value, from its place:** the one nearest to the whole part of the number
there. -/
theorem exponent_eq_of_place? (h : a.place? = some place) :
    Numeric.exponent a = clampExponent (truncated (f.numberAt place)) := by
  have hleft : Numeric.lt (0 : Binary f) a = decide (0 < place) := by
    change lt zero a = _
    rw [lt, place?_zero, h]
  have hright : Numeric.lt a (0 : Binary f) = decide (place < 0) := by
    change lt a zero = _
    rw [lt, place?_zero, h]
  -- what is out of range is on its own side of zero, and so is its place
  apply Numeric.exponent_eq_clampExponent (truncate?_eq_of_place? h)
  · intro habove
    rw [hleft]
    exact decide_eq_true (place_pos (lt_trans (by decide) habove))
  · intro hbelow
    have hnegative : place < 0 := place_neg (hbelow.trans (by decide))
    rw [hleft, hright]
    exact ⟨decide_eq_false hnegative.not_gt, decide_eq_true hnegative⟩

/-- Values that compare are at places in this order. -/
theorem le_iff : a.le b = true ↔
    ∃ place other, a.place? = some place ∧ b.place? = some other ∧ place ≤ other := by
  rw [le, lt, eq]
  cases a.place? with
  | none => simp
  | some place =>
    cases b.place? with
    | none => simp
    | some other => simp [le_iff_lt_or_eq]

end Binary

/-! ## All types -/

/-- **Exponents are truncated and kept in range.** The exponent of an integer is the one nearest to it,
and that of a finite floating-point value the one nearest to the exact number without its fraction.
Infinities have the exponents at the ends of the range, and not-a-number has the exponent 0. In every
type, a value that compares less than another or equal to it has no greater exponent. -/
theorem exponent_eq_clampExponent_truncated :
    (∀ (f : IntFormat) (a : MachineInt f), Numeric.exponent a = clampExponent a.val) ∧
      (∀ (f : BinaryFormat) (negative : Bool) (rank : Fin f.infinityRank),
        Numeric.exponent (Binary.finite negative rank) =
          clampExponent (truncated (if negative then -f.magnitude rank else f.magnitude rank))) ∧
      (∀ f : BinaryFormat, Numeric.exponent (Binary.infinite false : Binary f) = greatestExponent ∧
        Numeric.exponent (Binary.infinite true : Binary f) = leastExponent ∧
        Numeric.exponent (Binary.nan : Binary f) = 0) ∧
      (∀ (f : IntFormat) (a b : MachineInt f), a.val ≤ b.val →
        Numeric.exponent a ≤ Numeric.exponent b) ∧
      ∀ (f : BinaryFormat) (a b : Binary f), a.le b = true →
        Numeric.exponent a ≤ Numeric.exponent b := by
  refine ⟨fun _ => MachineInt.exponent_eq_clampExponent, fun f negative rank => ?_,
    fun f => ?_, fun f a b hle => ?_, fun f a b hle => ?_⟩
  · rw [Binary.exponent_eq_of_place? rfl]
    cases negative
    · rw [if_neg Bool.false_ne_true, if_neg Bool.false_ne_true, BinaryFormat.numberAt_natCast]
    · rw [if_pos rfl, if_pos rfl, BinaryFormat.numberAt_neg_natCast]
  · cases f <;> exact ⟨rfl, rfl, rfl⟩
  · rw [MachineInt.exponent_eq_clampExponent, MachineInt.exponent_eq_clampExponent]
    exact clampExponent_le_clampExponent hle
  · obtain ⟨place, other, ha, hb, hplaces⟩ := Binary.le_iff.mp hle
    rw [Binary.exponent_eq_of_place? ha, Binary.exponent_eq_of_place? hb]
    exact clampExponent_le_clampExponent
      (truncated_le_truncated (BinaryFormat.numberAt_le_numberAt hplaces))

/-- In double precision, the greatest value below `2 ^ 63` is 1024 less, and so is its exponent; `2 ^ 63`
itself is out of range, and its opposite is the least exponent. -/
example : Numeric.exponent (Binary.ofBits 0x43dfffffffffffff : Double) = 2 ^ 63 - 1024 ∧
    Numeric.exponent (Binary.ofBits 0x43e0000000000000 : Double) = 2 ^ 63 - 1 ∧
    Numeric.exponent (Binary.ofBits 0xc3e0000000000000 : Double) = -2 ^ 63 := by
  decide +kernel

end DeskCalc
