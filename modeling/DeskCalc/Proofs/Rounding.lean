import DeskCalc.Proofs.Magnitudes
import Mathlib.Algebra.Order.Field.Rat
import Mathlib.Tactic.FieldSimp
import Mathlib.Tactic.Linarith
import Mathlib.Tactic.Positivity
import Mathlib.Tactic.Ring

/-! # Rounding to the nearest magnitude

The nearest of an increasing row of numbers, and of two that are equally near the one with the even
place, is settled by the two numbers around the given one and by the middle between them. It does not
decrease when the given number grows, and there is only one.

* **`IsNearest`** — the place of the nearest number of a row.
* **`IsNearest.mono`**, **`IsNearest.unique`** — it grows with the number, and is the only one.
* **`BinaryFormat.isNearest_roundRank`** — a ratio is rounded to the rank of the nearest magnitude. -/

namespace DeskCalc

/-! ## The nearest number of a row -/

/-- **Whether a place of a row holds the number nearest to `x`.** If another one is equally near, the
place is even. -/
def IsNearest (u : ℕ → ℚ) (x : ℚ) (place : ℕ) : Prop :=
  ∀ other, |u place - x| ≤ |u other - x| ∧
    (other ≠ place → |u other - x| = |u place - x| → Even place)

/-- **Which of two neighbours is nearer to `x`**, `low` at the place `n` of a row or `high` at the next
place. In the middle between them it is the one at the even place. -/
def IsNearer (low high x : ℚ) (n place : ℕ) : Prop :=
  place = n ∧ (x - low < high - x ∨ x - low = high - x ∧ Even n) ∨
    place = n + 1 ∧ (high - x < x - low ∨ high - x = x - low ∧ Even (n + 1))

namespace IsNearer

variable {low high x : ℚ} {n place : ℕ}

/-- Neighbours that are scaled together with the number stay as they are. -/
theorem mul (h : IsNearer low high x n place) {c : ℚ} (hc : 0 < c) :
    IsNearer (low * c) (high * c) (x * c) n place := by
  rw [IsNearer, ← sub_mul, ← sub_mul, mul_lt_mul_iff_of_pos_right hc,
    mul_lt_mul_iff_of_pos_right hc, mul_left_inj' hc.ne', mul_left_inj' hc.ne']
  exact h

/-- So do neighbours whose places move by an even number. -/
theorem add_left (h : IsNearer low high x n place) {start : ℕ} (hstart : Even start) :
    IsNearer low high x (start + n) (start + place) := by
  have hparity : ∀ m, Even (start + m) ↔ Even m := by
    intro m
    rw [Nat.even_add]
    exact iff_true_left hstart
  rw [IsNearer, Nat.add_assoc, hparity, hparity, Nat.add_left_cancel_iff, Nat.add_left_cancel_iff]
  exact h

end IsNearer

namespace IsNearest

variable {u : ℕ → ℚ} {x y : ℚ} {m n : ℕ}

/-- In a row that is scaled, the same place is nearest to the number that is scaled with it. -/
theorem div (h : IsNearest u x n) {c : ℚ} (hc : 0 < c) :
    IsNearest (fun place => u place / c) (x / c) n := by
  have hdist : ∀ place, |u place / c - x / c| = |u place - x| / c := by
    intro place
    rw [← sub_div, abs_div, abs_of_pos hc]
  intro other
  simp only [hdist, div_le_div_iff_of_pos_right hc, div_left_inj' hc.ne']
  exact h other

section Increasing

variable (hu : StrictMono u)
include hu

/-- **The lower one of two neighbours is nearest** up to the middle between them. -/
theorem of_lower (hlow : u n ≤ x) (hhigh : x ≤ u (n + 1))
    (hmiddle : x - u n < u (n + 1) - x ∨ x - u n = u (n + 1) - x ∧ Even n) : IsNearest u x n := by
  intro other
  rw [abs_sub_comm (u n), abs_of_nonneg (sub_nonneg.mpr hlow)]
  rcases Nat.lt_or_ge n other with hlt | hge
  · have hother : u (n + 1) ≤ u other := hu.monotone hlt
    rw [abs_of_nonneg (by linarith)]
    refine ⟨?_, fun _ htie => ?_⟩
    · rcases hmiddle with h | ⟨h, -⟩ <;> linarith
    · rcases hmiddle with h | ⟨-, heven⟩
      · linarith
      · exact heven
  · have hother : u other ≤ u n := hu.monotone hge
    rw [abs_sub_comm (u other), abs_of_nonneg (by linarith)]
    refine ⟨by linarith, fun hne htie => ?_⟩
    have hless : u other < u n := hu (Nat.lt_of_le_of_ne hge hne)
    linarith

/-- **The upper one of two neighbours is nearest** from the middle between them on. -/
theorem of_upper (hlow : u n ≤ x) (hhigh : x ≤ u (n + 1))
    (hmiddle : u (n + 1) - x < x - u n ∨ u (n + 1) - x = x - u n ∧ Even (n + 1)) :
    IsNearest u x (n + 1) := by
  intro other
  rw [abs_of_nonneg (sub_nonneg.mpr hhigh)]
  rcases Nat.lt_or_ge other (n + 1) with hlt | hge
  · have hother : u other ≤ u n := hu.monotone (Nat.le_of_lt_succ hlt)
    rw [abs_sub_comm (u other), abs_of_nonneg (by linarith)]
    refine ⟨?_, fun _ htie => ?_⟩
    · rcases hmiddle with h | ⟨h, -⟩ <;> linarith
    · rcases hmiddle with h | ⟨-, heven⟩
      · linarith
      · exact heven
  · have hother : u (n + 1) ≤ u other := hu.monotone hge
    rw [abs_of_nonneg (by linarith)]
    refine ⟨by linarith, fun hne htie => ?_⟩
    have hless : u (n + 1) < u other := hu (Nat.lt_of_le_of_ne hge (Ne.symm hne))
    linarith

/-- **The nearer one of two neighbours is nearest** to what lies between them. -/
theorem of_isNearer {place : ℕ} (hlow : u n ≤ x) (hhigh : x ≤ u (n + 1))
    (h : IsNearer (u n) (u (n + 1)) x n place) : IsNearest u x place := by
  rcases h with ⟨rfl, hlower⟩ | ⟨rfl, hupper⟩
  · exact of_lower hu hlow hhigh hlower
  · exact of_upper hu hlow hhigh hupper

/-- A number that is nearest lies on its own side of the middle to any greater one. -/
theorem le_middle (h : IsNearest u x m) (hmn : m < n) : 2 * x ≤ u m + u n := by
  have hlt := hu hmn
  have hle := (h n).1
  by_contra hgt
  have hdist : |u n - x| < |u m - x| := by
    rw [abs_sub_comm (u m), abs_of_pos (show 0 < x - u m by linarith)]
    exact abs_lt.mpr ⟨by linarith, by linarith⟩
  linarith

/-- A number that is nearest lies on its own side of the middle to any smaller one. -/
theorem middle_le (h : IsNearest u x n) (hmn : m < n) : u m + u n ≤ 2 * x := by
  have hlt := hu hmn
  have hle := (h m).1
  by_contra hgt
  have hdist : |u m - x| < |u n - x| := by
    rw [abs_of_pos (show 0 < u n - x by linarith)]
    exact abs_lt.mpr ⟨by linarith, by linarith⟩
  linarith

/-- **The place of the nearest number grows with the number.** -/
theorem mono (hx : IsNearest u x m) (hy : IsNearest u y n) (hxy : x ≤ y) : m ≤ n := by
  by_contra hnot
  have hlt : n < m := Nat.lt_of_not_le hnot
  -- both numbers are in the middle between the two places, so that both places are even
  have hlow := hx.middle_le hu hlt
  have hhigh := hy.le_middle hu hlt
  obtain rfl : y = x := by linarith
  have htie : |u n - y| = |u m - y| := le_antisymm (hy m).1 (hx n).1
  have hm : Even m := (hx n).2 hlt.ne htie
  have hn : Even n := (hy m).2 hlt.ne' htie.symm
  -- and there is a place between them, which is nearer
  have hbetween : n + 1 < m := by
    obtain ⟨i, rfl⟩ := hm
    obtain ⟨j, rfl⟩ := hn
    omega
  have hfar := hy.le_middle hu (Nat.lt_succ_self n)
  have hless := hu hbetween
  linarith

/-- **What lies between two numbers with the same nearest place** has it too. -/
theorem eq_of_between {z : ℚ} (hx : IsNearest u x n) (hy : IsNearest u y m) (hz : IsNearest u z n)
    (hxy : x ≤ y) (hyz : y ≤ z) : m = n :=
  Nat.le_antisymm (hy.mono hu hz hyz) (hx.mono hu hy hxy)

/-- A number of the row is nearest to itself. -/
theorem self (n : ℕ) : IsNearest u (u n) n := by
  intro other
  rw [sub_self, abs_zero]
  refine ⟨abs_nonneg _, fun hne htie => ?_⟩
  exact absurd (hu.injective (sub_eq_zero.mp (abs_eq_zero.mp htie))) hne

/-- **Only one place is nearest.** -/
theorem unique (h : IsNearest u x m) (h' : IsNearest u x n) : m = n :=
  Nat.le_antisymm (h.mono hu h' le_rfl) (h'.mono hu h le_rfl)

end Increasing

end IsNearest

/-! ## The nearest magnitude -/

namespace BinaryFormat

/-- **A magnitude as a number.** -/
def magnitude (f : BinaryFormat) (rank : ℕ) : ℚ :=
  f.units rank / f.unitsPerOne

@[simp] theorem magnitude_zero (f : BinaryFormat) : f.magnitude 0 = 0 := by
  rw [magnitude, units_zero, Nat.cast_zero, zero_div]

theorem unitsPerOne_pos (f : BinaryFormat) : 0 < f.unitsPerOne :=
  Nat.pow_pos (by decide)

/-- Magnitudes are ordered as their ranks when they are counted in units. -/
theorem cast_units_strictMono (f : BinaryFormat) : StrictMono fun rank => (f.units rank : ℚ) :=
  fun _ _ h => Nat.cast_lt.mpr (f.units_strictMono h)

theorem magnitude_strictMono (f : BinaryFormat) : StrictMono f.magnitude := by
  intro a b hab
  have hpos : (0 : ℚ) < f.unitsPerOne := Nat.cast_pos.mpr f.unitsPerOne_pos
  exact (div_lt_div_iff_of_pos_right hpos).mpr (f.cast_units_strictMono hab)

/-- A ratio lies between its quotient and the next whole number, and is rounded to the nearer one. -/
theorem isNearer_roundHalfEven (num : ℕ) {den : ℕ} (hden : 0 < den) :
    ((num / den : ℕ) : ℚ) ≤ num / den ∧ (num : ℚ) / den ≤ (num / den : ℕ) + 1 ∧
      IsNearer (num / den : ℕ) ((num / den : ℕ) + 1) (num / den) (num / den)
        (roundHalfEven num den) := by
  have hpos : (0 : ℚ) < den := Nat.cast_pos.mpr hden
  have hrest : (num % den : ℕ) / (den : ℚ) = num / den - (num / den : ℕ) := by
    have hsplit : ((den * (num / den) + num % den : ℕ) : ℚ) = num := by rw [Nat.div_add_mod]
    rw [← hsplit]
    push_cast
    field_simp
    ring
  have hrest0 : 0 ≤ (num % den : ℕ) / (den : ℚ) := by positivity
  have hrest1 : (num % den : ℕ) / (den : ℚ) < 1 :=
    (div_lt_one hpos).mpr (Nat.cast_lt.mpr (Nat.mod_lt num hden))
  have htwice : (2 * (num % den) : ℕ) / (den : ℚ) = 2 * ((num % den : ℕ) / (den : ℚ)) := by
    push_cast
    ring
  refine ⟨by linarith, by linarith, ?_⟩
  unfold roundHalfEven
  dsimp only
  rcases Nat.lt_trichotomy (2 * (num % den)) den with hlt | heq | hgt
  · have hless : (2 * (num % den) : ℕ) / (den : ℚ) < 1 :=
      (div_lt_one hpos).mpr (Nat.cast_lt.mpr hlt)
    exact .inl ⟨if_pos hlt, .inl (by linarith)⟩
  · have hhalf : (2 * (num % den) : ℕ) / (den : ℚ) = 1 := by rw [heq, div_self hpos.ne']
    rw [if_neg heq.not_lt, if_neg heq.not_gt]
    rcases Nat.even_or_odd (num / den) with heven | hodd
    · exact .inl ⟨by rw [Nat.even_iff.mp heven, Nat.add_zero], .inr ⟨by linarith, heven⟩⟩
    · exact .inr ⟨by rw [Nat.odd_iff.mp hodd], .inr ⟨by linarith, hodd.add_one⟩⟩
  · have hmore : 1 < (2 * (num % den) : ℕ) / (den : ℚ) :=
      (one_lt_div hpos).mpr (Nat.cast_lt.mpr hgt)
    exact .inr ⟨by rw [if_neg hgt.not_gt, if_pos hgt], .inl (by linarith)⟩

/-- **The scale that a ratio is rounded in** is the one whose significands reach up to it: its quotient
there is a significand of the scale. -/
theorem quotient_bounds (f : BinaryFormat) (num den : ℕ) :
    ((num / den).log2 - f.fractionBits = 0 ∨
        f.binade ≤ num / (den * 2 ^ ((num / den).log2 - f.fractionBits))) ∧
      num / (den * 2 ^ ((num / den).log2 - f.fractionBits)) < 2 * f.binade := by
  rw [← Nat.div_div_eq_div_mul]
  generalize num / den = whole
  have hbinade : 2 * f.binade = 2 ^ (f.fractionBits + 1) := (Nat.pow_succ').symm
  rw [hbinade]
  have hupper : whole < 2 ^ (f.fractionBits + 1) * 2 ^ (whole.log2 - f.fractionBits) := by
    rw [← Nat.pow_add]
    exact Nat.lt_log2_self.trans_le (Nat.pow_le_pow_right (by decide) (by omega))
  refine ⟨?_, (Nat.div_lt_iff_lt_mul (Nat.two_pow_pos _)).mpr hupper⟩
  rcases Nat.lt_or_ge f.fractionBits whole.log2 with hlt | hle
  · have hzero : whole ≠ 0 := by
      rintro rfl
      exact Nat.not_lt_zero _ hlt
    refine .inr ((Nat.le_div_iff_mul_le (Nat.two_pow_pos _)).mpr ?_)
    calc f.binade * 2 ^ (whole.log2 - f.fractionBits)
        = 2 ^ whole.log2 := by
          rw [binade, Nat.pow_eq, ← Nat.pow_add, Nat.add_sub_cancel' hlt.le]
      _ ≤ whole := Nat.log2_self_le hzero
  · exact .inl (Nat.sub_eq_zero_of_le hle)

/-- A ratio is rounded to the rank of the nearest magnitude, if both are counted in units. -/
theorem isNearest_units_roundRank (f : BinaryFormat) (num : ℕ) {den : ℕ} (hden : 0 < den) :
    IsNearest (fun rank => (f.units rank : ℚ)) (num / den) (f.roundRank num den) := by
  obtain ⟨hlow, hhigh⟩ := f.quotient_bounds num den
  rw [roundRank]
  generalize (num / den).log2 - f.fractionBits = k at *
  obtain ⟨hge, hle, hnearer⟩ := isNearer_roundHalfEven num (Nat.mul_pos hden (Nat.two_pow_pos k))
  generalize num / (den * 2 ^ k) = quotient at *
  -- the ratio and the magnitudes around it are those of whole numbers, scaled by `2 ^ k`
  have hstep : (0 : ℚ) < 2 ^ k := by positivity
  have hx : (num : ℚ) / den = num / (den * 2 ^ k : ℕ) * 2 ^ k := by
    push_cast
    field_simp
  have hn : (f.units (k * f.binade + quotient) : ℚ) = quotient * 2 ^ k := by
    rw [units_of_significand hlow hhigh.le]
    push_cast
    rfl
  have hn' : (f.units (k * f.binade + quotient + 1) : ℚ) = (quotient + 1) * 2 ^ k := by
    rw [Nat.add_assoc, units_of_significand (hlow.imp_right Nat.le_succ_of_le) hhigh]
    push_cast
    rfl
  refine IsNearest.of_isNearer f.cast_units_strictMono (n := k * f.binade + quotient) ?_ ?_ ?_
  · rw [hn, hx]
    exact mul_le_mul_of_nonneg_right hge hstep.le
  · rw [hn', hx]
    exact mul_le_mul_of_nonneg_right hle hstep.le
  · rw [hn, hn', hx]
    exact (hnearer.mul hstep).add_left (f.even_binade.mul_left k)

/-- **A ratio is rounded to the rank of the nearest magnitude.** -/
theorem isNearest_roundRank (f : BinaryFormat) (num : ℕ) {den : ℕ} (hden : 0 < den) :
    IsNearest f.magnitude (num / den / f.unitsPerOne) (f.roundRank num den) :=
  (f.isNearest_units_roundRank num hden).div (Nat.cast_pos.mpr f.unitsPerOne_pos)

end BinaryFormat

end DeskCalc
