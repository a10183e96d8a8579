import DeskCalc.Binary.Shortest
import DeskCalc.Proofs.Rounding

/-! # The shortest digits of a value

The numbers that have one nearest magnitude lie side by side. So of the multiples of a power of ten
that have it, there is one next to the magnitude itself, and a search from great powers down to small
ones ends at the greatest power that has one at all. Whatever has the same nearest magnitude needs as
many digits as that one.

* **`Binary.readsBack_iff`** — which decimal units the search accepts.
* **`Binary.IsCoarsest`** — digits that stand at the greatest power of ten for their rank.
* **`Binary.isCoarsest_shortestFrom`** — the search ends at such digits.
* **`Binary.IsCoarsest.digits_lt`** — no other number with the same nearest magnitude has fewer
  digits. -/

namespace DeskCalc

namespace Binary

variable {f : BinaryFormat} {rank exact step digits m n : ℕ}

/-! ## Which numbers read back -/

theorem decimalUnitsPerUnit_pos (f : BinaryFormat) : 0 < decimalUnitsPerUnit f :=
  Nat.pow_pos (by decide)

/-- There are a power of ten decimal units in 1. -/
theorem decimalUnits_mul_unitsPerOne (f : BinaryFormat) :
    decimalUnitsPerUnit f * f.unitsPerOne = 10 ^ f.unitExponent := by
  rw [decimalUnitsPerUnit, BinaryFormat.unitsPerOne, Nat.pow_eq, Nat.pow_eq, ← Nat.mul_pow]

/-- **A number of decimal units reads back** as the rank of the nearest magnitude. -/
theorem readsBack_iff :
    readsBack f rank m = true ↔ IsNearest f.magnitude (m / 10 ^ f.unitExponent) rank := by
  have hnearest := f.isNearest_roundRank m (decimalUnitsPerUnit_pos f)
  have hunits : (m : ℚ) / decimalUnitsPerUnit f / f.unitsPerOne = m / 10 ^ f.unitExponent := by
    rw [div_div, ← Nat.cast_mul, decimalUnits_mul_unitsPerOne, Nat.cast_pow, Nat.cast_ofNat]
  rw [hunits] at hnearest
  rw [readsBack, beq_iff_eq]
  constructor
  · rintro rfl
    exact hnearest
  · exact hnearest.unique f.magnitude_strictMono

/-- The decimal units of a rank are its magnitude. -/
theorem cast_units_mul_div (f : BinaryFormat) (rank : ℕ) :
    ((f.units rank * decimalUnitsPerUnit f : ℕ) : ℚ) / 10 ^ f.unitExponent = f.magnitude rank := by
  have hpos : (decimalUnitsPerUnit f : ℚ) ≠ 0 := Nat.cast_ne_zero.mpr (decimalUnitsPerUnit_pos f).ne'
  have hunits : (10 : ℚ) ^ f.unitExponent = f.unitsPerOne * decimalUnitsPerUnit f := by
    rw [← Nat.cast_mul, Nat.mul_comm, decimalUnits_mul_unitsPerOne, Nat.cast_pow, Nat.cast_ofNat]
  rw [BinaryFormat.magnitude, hunits, Nat.cast_mul, mul_div_mul_right _ _ hpos]

/-- **A magnitude reads back** itself. -/
theorem readsBack_units (f : BinaryFormat) (rank : ℕ) :
    readsBack f rank (f.units rank * decimalUnitsPerUnit f) = true := by
  rw [readsBack_iff, cast_units_mul_div]
  exact IsNearest.self f.magnitude_strictMono rank

/-- **What lies between two numbers that read back** reads back as well. -/
theorem readsBack_of_between {x z : ℚ} (hx : IsNearest f.magnitude x rank)
    (hz : IsNearest f.magnitude z rank) (hxm : x ≤ m / 10 ^ f.unitExponent)
    (hmz : m / 10 ^ f.unitExponent ≤ z) : readsBack f rank m = true := by
  have hm := readsBack_iff.mp (beq_self_eq_true (f.roundRank m (decimalUnitsPerUnit f)))
  have heq := hx.eq_of_between f.magnitude_strictMono hm hz hxm hmz
  rwa [heq, ← readsBack_iff] at hm

/-- Between whole numbers of decimal units. -/
theorem readsBack_of_le_of_le {a b : ℕ} (ha : readsBack f rank a = true)
    (hb : readsBack f rank b = true) (ham : a ≤ m) (hmb : m ≤ b) : readsBack f rank m = true := by
  have hpos : (0 : ℚ) < 10 ^ f.unitExponent := by positivity
  refine readsBack_of_between (readsBack_iff.mp ha) (readsBack_iff.mp hb) ?_ ?_
  · exact (div_le_div_iff_of_pos_right hpos).mpr (Nat.cast_le.mpr ham)
  · exact (div_le_div_iff_of_pos_right hpos).mpr (Nat.cast_le.mpr hmb)

/-- Zero reads back as the rank of zero only. -/
theorem not_isNearest_zero (hrank : rank ≠ 0) : ¬IsNearest f.magnitude 0 rank := by
  intro h
  have hself := IsNearest.self f.magnitude_strictMono 0
  rw [BinaryFormat.magnitude_zero] at hself
  exact hrank (h.unique f.magnitude_strictMono hself)

/-- The magnitude after a positive one is at most twice as great. -/
theorem units_succ_le (hrank : rank ≠ 0) : f.units (rank + 1) ≤ 2 * f.units rank := by
  have hpos : 0 < f.significand rank := by
    have heq := f.eq_scale_mul_add_significand rank
    have hscale := f.scale_eq_zero_or rank
    have hbinade := f.binade_pos
    rcases hscale with hscale | hsignificand
    · rw [hscale, Nat.zero_mul, Nat.zero_add] at heq
      omega
    · omega
  rw [BinaryFormat.units_succ, Nat.two_mul]
  exact Nat.add_le_add_left (Nat.le_mul_of_pos_left _ hpos) _

/-- **What reads back is near to the magnitude.** -/
theorem two_mul_le_of_readsBack (hrank : rank ≠ 0) (h : readsBack f rank m = true) :
    2 * m ≤ 3 * (f.units rank * decimalUnitsPerUnit f) := by
  have hmiddle := (readsBack_iff.mp h).le_middle f.magnitude_strictMono (Nat.lt_succ_self rank)
  have hexact := cast_units_mul_div f rank
  have hpos : (0 : ℚ) < 10 ^ f.unitExponent := by positivity
  have hnext : f.magnitude (rank + 1) ≤ 2 * f.magnitude rank := by
    rw [BinaryFormat.magnitude, BinaryFormat.magnitude, ← mul_div_assoc]
    refine (div_le_div_iff_of_pos_right (Nat.cast_pos.mpr f.unitsPerOne_pos)).mpr ?_
    exact_mod_cast units_succ_le hrank
  have hscaled : (2 * m : ℚ) / 10 ^ f.unitExponent ≤
      3 * (f.units rank * decimalUnitsPerUnit f : ℕ) / 10 ^ f.unitExponent := by
    rw [mul_div_assoc, mul_div_assoc, hexact]
    linarith
  exact_mod_cast (div_le_div_iff_of_pos_right hpos).mp hscaled

/-! ## The search -/

/-- A neighbour reads back. -/
theorem readsBack_of_neighbour? (h : neighbour? f rank exact step = some digits) :
    readsBack f rank (digits * step) = true := by
  unfold neighbour? at h
  dsimp only at h
  split at h
  · rename_i hupper
    split at h
    · rename_i hlower
      obtain rfl := Option.some.inj h
      exact (Bool.and_eq_true_iff.mp hlower).1
    · obtain rfl := Option.some.inj h
      exact hupper
  · split at h
    · rename_i hlower
      obtain rfl := Option.some.inj h
      exact hlower
    · nomatch h

/-- **Where no neighbour reads back, no multiple does:** the neighbours lie between it and the number
itself, which does. -/
theorem not_readsBack_of_neighbour? (hstep : 0 < step) (hexact : readsBack f rank exact = true)
    (h : neighbour? f rank exact step = none) : ¬readsBack f rank (digits * step) = true := by
  intro hdigits
  have hlow : exact / step * step ≤ exact := Nat.div_mul_le_self exact step
  have hhigh : exact ≤ (exact / step + 1) * step := by
    rw [Nat.mul_comm]
    exact (Nat.lt_mul_div_succ exact hstep).le
  -- the neighbour on the side of the multiple lies between the two
  have hneighbour : readsBack f rank (exact / step * step) = true ∨
      readsBack f rank ((exact / step + 1) * step) = true := by
    rcases Nat.le_total (digits * step) exact with hle | hge
    · refine .inl (readsBack_of_le_of_le hdigits hexact ?_ hlow)
      exact Nat.mul_le_mul_right step ((Nat.le_div_iff_mul_le hstep).mpr hle)
    · rcases Nat.eq_or_lt_of_le hge with heq | hlt
      · refine .inl ?_
        rwa [heq, Nat.mul_div_cancel _ hstep]
      · refine .inr (readsBack_of_le_of_le hexact hdigits hhigh ?_)
        exact Nat.mul_le_mul_right step ((Nat.div_lt_iff_lt_mul hstep).mpr hlt)
  unfold neighbour? at h
  dsimp only at h
  rcases hneighbour with hlower | hupper
  · rw [hlower] at h
    split at h
    · split at h <;> nomatch h
    · nomatch h
  · rw [if_pos hupper] at h
    split at h <;> nomatch h

/-- **Whether digits stand at the greatest power of ten for a rank:** there they read back as it, and at
a greater power no digits do. -/
structure IsCoarsest (f : BinaryFormat) (rank digits power : ℕ) : Prop where
  /-- The digits read back. -/
  reads : readsBack f rank (digits * 10 ^ power) = true
  /-- No multiple of a greater power does. -/
  not_reads : ∀ j > power, ∀ d, ¬readsBack f rank (d * 10 ^ j) = true

/-- **The search ends at the greatest power of ten** if it starts above it. -/
theorem isCoarsest_shortestFrom (hexact : readsBack f rank exact = true)
    (hn : ∀ j > n, ∀ d, ¬readsBack f rank (d * 10 ^ j) = true) :
    IsCoarsest f rank (shortestFrom f rank exact n).1 (shortestFrom f rank exact n).2 := by
  -- what is known of the greater powers grows by each power that is tried in vain
  induction n with
  | zero => exact ⟨by rwa [shortestFrom, pow_zero, Nat.mul_one], hn⟩
  | succ n ih =>
    rw [shortestFrom]
    cases hneighbour : neighbour? f rank exact (Nat.pow 10 (n + 1)) with
    | some digits => exact ⟨readsBack_of_neighbour? hneighbour, hn⟩
    | none =>
      refine ih fun j hj d => ?_
      rcases Nat.eq_or_lt_of_le (Nat.succ_le_of_lt hj) with rfl | hlt
      · exact not_readsBack_of_neighbour? (Nat.pow_pos (by decide)) hexact hneighbour
      · exact hn j hlt d

/-- Powers of two against powers of ten, from two powers of about the same size. -/
theorem two_pow_le_ten_pow {a b m p : ℕ} (ha : a ≠ 0) (hbase : 2 ^ a ≤ 10 ^ b)
    (h : m * b ≤ p * a) : 2 ^ m ≤ 10 ^ p := by
  refine (Nat.pow_le_pow_iff_left ha).mp ?_
  calc (2 ^ m) ^ a = (2 ^ a) ^ m := Nat.pow_right_comm 2 m a
    _ ≤ (10 ^ b) ^ m := Nat.pow_le_pow_left hbase m
    _ = 10 ^ (m * b) := by rw [← Nat.pow_mul, Nat.mul_comm]
    _ ≤ 10 ^ (p * a) := Nat.pow_le_pow_right (by decide) h
    _ = (10 ^ p) ^ a := Nat.pow_mul ..

/-- The power of ten above a number is greater. -/
theorem lt_pow_powerAbove (n : ℕ) : n < 10 ^ powerAbove n := by
  have hbase : 2 ^ (250 * 2) ≤ 10 ^ 151 := by
    rw [Nat.pow_mul]
    decide +kernel
  refine Nat.lt_log2_self.trans_le (two_pow_le_ten_pow (by decide) hbase ?_)
  unfold powerAbove
  omega

/-- **From the power above a magnitude on,** no multiple of a greater power reads back. -/
theorem not_readsBack_of_powerAbove_lt (hrank : rank ≠ 0) :
    ∀ j > powerAbove (f.units rank * decimalUnitsPerUnit f), ∀ d,
      ¬readsBack f rank (d * 10 ^ j) = true := by
  intro j hj d hd
  rcases Nat.eq_zero_or_pos d with rfl | hpos
  · rw [Nat.zero_mul, readsBack_iff, Nat.cast_zero, zero_div] at hd
    exact not_isNearest_zero hrank hd
  · -- the multiple is ten times the magnitude at least, too far away to read back
    have hbound := two_mul_le_of_readsBack hrank hd
    have habove := lt_pow_powerAbove (f.units rank * decimalUnitsPerUnit f)
    have hstep : 10 ^ powerAbove (f.units rank * decimalUnitsPerUnit f) * 10 ≤ d * 10 ^ j := by
      rw [← Nat.pow_succ]
      exact (Nat.pow_le_pow_right (by decide) hj).trans (Nat.le_mul_of_pos_left _ hpos)
    omega

/-! ## The fewest digits -/

/-- **The fewest digits stand at the greatest power of ten.** Let a number with the same nearest
magnitude be `c` at some other power of ten, up or down. If `c` has few digits, so have these. -/
theorem IsCoarsest.digits_lt {power c b places k : ℕ} (h : IsCoarsest f rank digits power)
    (hrank : rank ≠ 0) (hnearest : IsNearest f.magnitude ((c * 10 ^ b : ℕ) / (10 ^ places : ℕ)) rank)
    (hc : c < 10 ^ k) : digits < 10 ^ k := by
  by_contra hge
  have hone : 10 ^ k ≤ digits := Nat.le_of_not_lt hge
  have hplaces : (0 : ℚ) < 10 ^ places := by positivity
  have hunits : (0 : ℚ) < 10 ^ f.unitExponent := by positivity
  push_cast at hnearest
  rcases Nat.lt_or_ge (places + power) (b + f.unitExponent) with hcoarse | hfine
  · -- the number is a multiple of a greater power
    obtain ⟨j, hj⟩ := Nat.exists_eq_add_of_lt hcoarse
    refine h.not_reads (power + j + 1) (by omega) c (readsBack_iff.mpr ?_)
    have heq : (c * 10 ^ b : ℚ) / 10 ^ places =
        (c * 10 ^ (power + j + 1) : ℕ) / 10 ^ f.unitExponent := by
      rw [div_eq_div_iff hplaces.ne' hunits.ne']
      push_cast
      rw [mul_assoc, mul_assoc, ← pow_add, ← pow_add, hj]
      congr 2
      omega
    rwa [← heq]
  · -- between the number and the digits there is a power of ten
    have hbetween : readsBack f rank (10 ^ (k + power)) = true := by
      refine readsBack_of_between hnearest (readsBack_iff.mp h.reads) ?_ ?_
      · rw [div_le_div_iff₀ hplaces hunits]
        have hpow : c * 10 ^ b * 10 ^ f.unitExponent ≤ 10 ^ (k + power) * 10 ^ places := by
          rw [Nat.mul_assoc, ← Nat.pow_add, Nat.pow_add _ k, Nat.mul_assoc, ← Nat.pow_add]
          exact Nat.mul_le_mul hc.le (Nat.pow_le_pow_right (by decide) (by omega))
        exact_mod_cast hpow
      · rw [div_le_div_iff_of_pos_right hunits, Nat.pow_add]
        exact Nat.cast_le.mpr (Nat.mul_le_mul_right _ hone)
    -- that power is greater than the one of the digits, unless the number is zero
    rcases Nat.eq_zero_or_pos k with rfl | hk
    · obtain rfl : c = 0 := Nat.lt_one_iff.mp hc
      rw [Nat.cast_zero, zero_mul, zero_div] at hnearest
      exact not_isNearest_zero hrank hnearest
    · refine h.not_reads (k + power) (by omega) 1 ?_
      rwa [Nat.one_mul]

end Binary

end DeskCalc
