import DeskCalc.Binary.Arithmetic
import DeskCalc.Proofs.Rounding

/-! # Positive values and the bounds that rounding keeps

A ratio between two magnitudes is rounded to a magnitude between them, so that bounds on exact results
are bounds on rounded ones. Where the bounds are magnitudes themselves, nothing needs to be known of
how far the rounded result is from the exact one.

* **`BinaryFormat.le_roundRank`**, **`BinaryFormat.roundRank_le`** — rounding keeps bounds.
* **`BinaryFormat.units_doubleRank`** — twice a magnitude is a magnitude.
* **`Binary.IsPositive`** — the finite values greater than zero.
* **`Binary.IsWithin`** — the magnitudes from one rank to another, as values.
* **`Binary.isWithin_add`**, **`Binary.isWithin_div`**, **`Binary.isWithin_half`** — sums, quotients
  and halves of values without a sign. -/

namespace DeskCalc

namespace BinaryFormat

variable {f : BinaryFormat} {num den rank : ℕ}

/-! ## Bounds of rounded ratios -/

/-- **A magnitude below a ratio** is not above the rounded ratio. -/
theorem le_roundRank (hden : 0 < den) (h : f.units rank * den ≤ num) :
    rank ≤ f.roundRank num den := by
  have hself := IsNearest.self f.cast_units_strictMono rank
  refine hself.mono f.cast_units_strictMono (f.isNearest_units_roundRank num hden) ?_
  exact (le_div_iff₀ (Nat.cast_pos.mpr hden)).mpr (by exact_mod_cast h)

/-- **A magnitude above a ratio** is not below the rounded ratio. -/
theorem roundRank_le (hden : 0 < den) (h : num ≤ f.units rank * den) :
    f.roundRank num den ≤ rank := by
  have hself := IsNearest.self f.cast_units_strictMono rank
  refine (f.isNearest_units_roundRank num hden).mono f.cast_units_strictMono hself ?_
  exact (div_le_iff₀ (Nat.cast_pos.mpr hden)).mpr (by exact_mod_cast h)

/-! ## Magnitudes of some ranks -/

/-- Only the magnitude of rank 0 is zero. -/
theorem units_pos (hrank : 0 < rank) : 0 < f.units rank :=
  hrank.trans_le f.units_strictMono.le_apply

/-- Up to the second normal scale, ranks count units. -/
theorem units_of_le (h : rank ≤ 2 * f.binade) : f.units rank = rank := by
  have hunits := units_of_significand (f := f) (k := 0) (m := rank) (.inl rfl) h
  rwa [Nat.zero_mul, Nat.zero_add, pow_zero, Nat.mul_one] at hunits

/-- **The rank of twice a magnitude.** Above the subnormal ranks it is as far into the next scale. -/
def doubleRank (f : BinaryFormat) (rank : ℕ) : ℕ :=
  if rank < f.binade then 2 * rank else rank + f.binade

/-- **Twice a magnitude is a magnitude.** -/
theorem units_doubleRank (f : BinaryFormat) (rank : ℕ) :
    f.units (f.doubleRank rank) = 2 * f.units rank := by
  unfold doubleRank
  rcases Nat.lt_or_ge rank f.binade with hsubnormal | hnormal
  · rw [if_pos hsubnormal, units_of_le (by omega), units_of_le (by omega)]
  · obtain ⟨k, hk⟩ : ∃ k, rank / f.binade = k + 1 :=
      Nat.exists_eq_add_of_le' (Nat.div_pos hnormal f.binade_pos)
    have hrank : rank = (k + 1) * f.binade + rank % f.binade := by
      rw [← hk, Nat.mul_comm, Nat.div_add_mod]
    have hmod := Nat.mod_lt rank f.binade_pos
    generalize rank % f.binade = j at hrank hmod
    have hnext : rank + f.binade = (k + 1 + 1) * f.binade + j := by
      rw [hrank, Nat.succ_mul (k + 1)]
      omega
    rw [if_neg hnormal.not_gt, hnext, hrank, units_of_lt hmod, units_of_lt hmod, pow_succ]
    ring

/-- Twice a magnitude is not less. -/
theorem le_doubleRank (rank : ℕ) : rank ≤ f.doubleRank rank := by
  unfold doubleRank
  split <;> omega

/-- **A half is exact** above the least normal scale. -/
theorem exists_doubleRank_eq (h : 2 * f.binade ≤ rank) :
    ∃ half, 0 < half ∧ f.doubleRank half = rank := by
  have hpos := f.binade_pos
  refine ⟨rank - f.binade, by omega, ?_⟩
  rw [doubleRank, if_neg (by omega)]
  omega

/-- The rank of 1. -/
def oneRank (f : BinaryFormat) : ℕ :=
  (f.unitExponent - f.fractionBits + 1) * f.binade

/-- The rank of 2. -/
def twoRank (f : BinaryFormat) : ℕ :=
  f.doubleRank f.oneRank

theorem units_oneRank (f : BinaryFormat) : f.units f.oneRank = f.unitsPerOne := by
  cases f <;> decide +kernel

theorem units_twoRank (f : BinaryFormat) : f.units f.twoRank = 2 * f.unitsPerOne := by
  rw [twoRank, units_doubleRank, units_oneRank]

theorem twoRank_pos (f : BinaryFormat) : 0 < f.twoRank := by
  cases f <;> decide +kernel

/-- Where ranks count units, they are far below the rank of 1. -/
theorem two_mul_binade_le (f : BinaryFormat) : 2 * f.binade ≤ f.unitsPerOne := by
  cases f <;> decide +kernel

/-- Not even four times 2 is near to where magnitudes end. -/
theorem doubleRank_twoRank_lt (f : BinaryFormat) :
    f.doubleRank (f.doubleRank f.twoRank) < f.infinityRank := by
  cases f <;> decide +kernel

end BinaryFormat

namespace Binary

open BinaryFormat

variable {f : BinaryFormat} {low high : ℕ}

/-! ## Positive values -/

/-- **Whether a value is positive and finite:** it compares as greater than zero and as less than
infinity. -/
def IsPositive (a : Binary f) : Prop :=
  (zero : Binary f).lt a = true ∧ a.lt (infinite false) = true

instance (a : Binary f) : Decidable a.IsPositive :=
  inferInstanceAs (Decidable (_ ∧ _))

/-- **Whether a value is a magnitude of a rank from `low` to `high`,** without a sign. -/
def IsWithin (low high : ℕ) (a : Binary f) : Prop :=
  ∃ rank : Fin f.infinityRank, a = finite false rank ∧ low ≤ rank.val ∧ rank.val ≤ high

/-- A positive value is a magnitude without a sign, and not that of zero. -/
theorem isPositive_iff {a : Binary f} :
    a.IsPositive ↔ ∃ rank : Fin f.infinityRank, a = finite false rank ∧ 0 < rank.val := by
  rw [IsPositive, lt, lt, place?_zero]
  cases a with
  | nan => simp [place?]
  | infinite negative => cases negative <;> simp [place?]
  | finite negative rank => cases negative <;> simp [place?]

theorem IsWithin.isPositive {a : Binary f} (h : a.IsWithin low high) (hlow : 0 < low) :
    a.IsPositive := by
  obtain ⟨rank, rfl, hrank, -⟩ := h
  exact isPositive_iff.mpr ⟨rank, rfl, hlow.trans_le hrank⟩

/-! ## Rounded results -/

/-- **A ratio between two magnitudes** is rounded to one between them. -/
theorem isWithin_ofUnitRatio {num den : ℕ} (hden : 0 < den) (hlow : f.units low * den ≤ num)
    (hhigh : num ≤ f.units high * den) (hfinite : high < f.infinityRank) :
    IsWithin low high (ofUnitRatio false num den : Binary f) := by
  have hle := roundRank_le hden hhigh
  have hlt := hle.trans_lt hfinite
  exact ⟨⟨_, hlt⟩, dif_pos hlt, le_roundRank hden hlow, hle⟩

/-- **A sum between two magnitudes.** -/
theorem isWithin_add {a b : Fin f.infinityRank} (hlow : f.units low ≤ f.units a + f.units b)
    (hhigh : f.units a + f.units b ≤ f.units high) (hfinite : high < f.infinityRank) :
    IsWithin low high ((finite false a).add (finite false b)) := by
  have hsum : (finite false a).add (finite false b) =
      (ofUnitRatio false (f.units a + f.units b) 1 : Binary f) := by
    show ofSignedUnits false ((f.units a : ℤ) + f.units b) = _
    rw [ofSignedUnits, ← Nat.cast_add, Int.natAbs_natCast]
    congr 1
    split
    · rfl
    · exact decide_eq_false (Int.natCast_nonneg _).not_gt
  rw [hsum]
  exact isWithin_ofUnitRatio Nat.one_pos (by omega) (by omega) hfinite

/-- **A quotient between two magnitudes.** -/
theorem isWithin_div {a b : Fin f.infinityRank} (hb : 0 < b.val)
    (hlow : f.units low * f.units b ≤ f.units a * f.unitsPerOne)
    (hhigh : f.units a * f.unitsPerOne ≤ f.units high * f.units b)
    (hfinite : high < f.infinityRank) :
    IsWithin low high ((finite false a).div (finite false b)) := by
  have hquotient : (finite false a).div (finite false b) =
      (ofUnitRatio false (f.units a * f.unitsPerOne) (f.units b) : Binary f) := if_neg hb.ne'
  rw [hquotient]
  exact isWithin_ofUnitRatio (units_pos hb) hlow hhigh hfinite

/-- The value 2 is the magnitude of its rank. -/
theorem ofNat_two (f : BinaryFormat) :
    ∃ rank : Fin f.infinityRank, (ofNat 2 : Binary f) = finite false rank ∧ rank.val = f.twoRank := by
  cases f <;> exact ⟨⟨_, by decide +kernel⟩, by decide +kernel, rfl⟩

/-- **A half between two magnitudes.** -/
theorem isWithin_half {a : Fin f.infinityRank} (hlow : 2 * f.units low ≤ f.units a)
    (hhigh : f.units a ≤ 2 * f.units high) (hfinite : high < f.infinityRank) :
    IsWithin low high ((finite false a).div (ofNat 2)) := by
  obtain ⟨two, htwo, hrank⟩ := ofNat_two f
  have hunits : ∀ rank, f.units rank * f.units two = 2 * f.units rank * f.unitsPerOne := by
    intro rank
    rw [hrank, units_twoRank, Nat.mul_left_comm, Nat.mul_assoc]
  rw [htwo]
  refine isWithin_div (hrank ▸ f.twoRank_pos) ?_ ?_ hfinite
  · rw [hunits]
    exact Nat.mul_le_mul_right _ hlow
  · rw [hunits]
    exact Nat.mul_le_mul_right _ hhigh

end Binary

end DeskCalc
