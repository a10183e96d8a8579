import DeskCalc.Binary.Numeric
import DeskCalc.Binary.SquareRoot
import DeskCalc.Proofs.PositiveValues

/-! # The guesses of Newton's method

The mean of a guess and of the quotient by it neither vanishes nor overflows as long as the guesses stay
between two magnitudes whose product is at least the number: a quotient by a guess above the lower one
is then below the upper one. For a number whose half is exact, these are the half and 2. The numbers
whose half is rounded are so small that all their guesses lie between the half and 4. Only the least
positive number has a half that is rounded to zero.

* **`Binary.newtonGuesses`** — the guesses that are made on the way to a root.
* **`Binary.Traps`** — bounds that no guess leaves.
* **`Binary.Traps.step`** — one round keeps them.
* **`Binary.exists_traps`** — every number but the least has such bounds, with the first guess between
  them.
* **`Binary.sqrt_isPositive_iff`** — the root, and all guesses, are positive and finite. -/

namespace DeskCalc

namespace Binary

open BinaryFormat

variable {f : BinaryFormat}

/-! ## The guesses -/

/-- **The guesses from a given one on**, until one settles or the rounds are used up. -/
def newtonGuesses (x guess : Binary f) : ℕ → List (Binary f)
  | 0 => [guess]
  | rounds + 1 =>
      let next := newtonStep x guess
      if (next.sub guess).abs.lt newtonTolerance then [guess, next]
      else guess :: newtonGuesses x next rounds

/-- The first of the guesses is the given one. -/
theorem mem_newtonGuesses (x guess : Binary f) (rounds : ℕ) :
    guess ∈ newtonGuesses x guess rounds := by
  cases rounds with
  | zero => exact List.mem_cons_self
  | succ rounds =>
    rw [newtonGuesses]
    split <;> exact List.mem_cons_self

/-- **The method gives one of its guesses.** -/
theorem newton_mem_newtonGuesses (x guess : Binary f) (rounds : ℕ) :
    newton x guess rounds ∈ newtonGuesses x guess rounds := by
  induction rounds generalizing guess with
  | zero => exact List.mem_cons_self
  | succ rounds ih =>
    rw [newton, newtonGuesses]
    split
    · exact List.mem_cons_of_mem _ List.mem_cons_self
    · exact List.mem_cons_of_mem _ (ih _)

/-- **What every round keeps** holds of all guesses if it holds of the first. -/
theorem forall_mem_newtonGuesses {x guess : Binary f} {P : Binary f → Prop}
    (hstep : ∀ a, P a → P (newtonStep x a)) (hguess : P guess) (rounds : ℕ) :
    ∀ a ∈ newtonGuesses x guess rounds, P a := by
  induction rounds generalizing guess with
  | zero => exact List.forall_mem_singleton.mpr hguess
  | succ rounds ih =>
    have hnext := hstep guess hguess
    rw [newtonGuesses]
    split
    · exact List.forall_mem_cons.mpr ⟨hguess, List.forall_mem_singleton.mpr hnext⟩
    · exact List.forall_mem_cons.mpr ⟨hguess, ih hnext⟩

/-! ## Bounds that no guess leaves -/

/-- **Bounds that the guesses for the root of `x` do not leave**, all given by their ranks. -/
structure Traps (f : BinaryFormat) (x low high : ℕ) : Prop where
  /-- Zero is not among the guesses. -/
  low_pos : 0 < low
  /-- Twice the upper bound, which bounds the sum in each round, is finite. -/
  doubleRank_lt : f.doubleRank high < f.infinityRank
  /-- The quotient by a guess is not above the upper bound. -/
  le_product : f.units x * f.unitsPerOne ≤ f.units low * f.units high
  /-- The mean is not below the lower bound: the guess itself is at least twice as great, or the
  quotient by it is not below the lower bound either. -/
  le_mean : ∀ guess, low ≤ guess → guess ≤ high →
    2 * f.units low ≤ f.units guess ∨ f.units low * f.units guess ≤ f.units x * f.unitsPerOne

/-- The quotient by a guess is finite, and with it the sum stays between twice the bounds. -/
theorem Traps.exists_quotient {x guess : Fin f.infinityRank} {low high : ℕ}
    (h : Traps f x low high) (hlow : low ≤ guess) (hhigh : guess ≤ high) :
    ∃ quotient : Fin f.infinityRank,
      (finite false x).div (finite false guess) = finite false quotient ∧
        2 * f.units low ≤ f.units guess + f.units quotient ∧
        f.units guess + f.units quotient ≤ 2 * f.units high := by
  have hmono := f.units_strictMono.monotone
  have hfinite : high < f.infinityRank := (le_doubleRank high).trans_lt h.doubleRank_lt
  have hpos : 0 < guess.val := h.low_pos.trans_le hlow
  have hguess : f.units low ≤ f.units guess := hmono hlow
  have hguess' : f.units guess ≤ f.units high := hmono hhigh
  have hle : f.units x * f.unitsPerOne ≤ f.units high * f.units guess :=
    calc f.units x * f.unitsPerOne
        ≤ f.units low * f.units high := h.le_product
      _ ≤ f.units guess * f.units high := Nat.mul_le_mul_right _ hguess
      _ = f.units high * f.units guess := Nat.mul_comm _ _
  rcases h.le_mean guess hlow hhigh with hfar | hge
  · have hnonneg : f.units 0 * f.units guess ≤ f.units x * f.unitsPerOne := by simp
    obtain ⟨quotient, heq, -, hquotient⟩ := isWithin_div hpos hnonneg hle hfinite
    have hupper : f.units quotient ≤ f.units high := hmono hquotient
    exact ⟨quotient, heq, by omega, by omega⟩
  · obtain ⟨quotient, heq, hquotient, hquotient'⟩ := isWithin_div hpos hge hle hfinite
    have hlower : f.units low ≤ f.units quotient := hmono hquotient
    have hupper : f.units quotient ≤ f.units high := hmono hquotient'
    exact ⟨quotient, heq, by omega, by omega⟩

/-- **One round keeps the bounds:** twice the bounds are magnitudes, between which the sum is rounded,
and the half of that is between the bounds. -/
theorem Traps.step {x : Fin f.infinityRank} {low high : ℕ} (h : Traps f x low high)
    {guess : Binary f} (hguess : guess.IsWithin low high) :
    (newtonStep (finite false x) guess).IsWithin low high := by
  obtain ⟨rank, rfl, hlow, hhigh⟩ := hguess
  obtain ⟨quotient, hquotient, hge, hle⟩ := h.exists_quotient hlow hhigh
  rw [← units_doubleRank] at hge hle
  obtain ⟨sum, hsum, hsumLow, hsumHigh⟩ := isWithin_add hge hle h.doubleRank_lt
  have hmono := f.units_strictMono.monotone
  rw [newtonStep, hquotient, hsum]
  refine isWithin_half ?_ ?_ ((le_doubleRank high).trans_lt h.doubleRank_lt)
  · rw [← units_doubleRank]
    exact hmono hsumLow
  · rw [← units_doubleRank]
    exact hmono hsumHigh

/-! ## Where the guesses start -/

/-- **Bounds whose product is the number.** A quotient by a guess between them is between them. -/
theorem traps_of_product {x low high : ℕ} (hlow : 0 < low)
    (hfinite : f.doubleRank high < f.infinityRank)
    (hproduct : f.units low * f.units high = f.units x * f.unitsPerOne) : Traps f x low high where
  low_pos := hlow
  doubleRank_lt := hfinite
  le_product := hproduct.ge
  le_mean guess _ hhigh := by
    right
    rw [← hproduct]
    exact Nat.mul_le_mul_left _ (f.units_strictMono.monotone hhigh)

/-- **Bounds for a number so small that ranks count units:** its half, rounded down, and 4. A guess is
far above the half, or the quotient by it is at least the number. -/
theorem traps_of_small {x : ℕ} (hx : 2 ≤ x) (hsmall : x < 2 * f.binade) :
    Traps f x (x / 2) (f.doubleRank f.twoRank) where
  low_pos := Nat.div_pos hx Nat.two_pos
  doubleRank_lt := doubleRank_twoRank_lt f
  le_product := by
    rw [units_of_le hsmall.le, units_of_le (by omega), units_doubleRank, units_twoRank]
    calc x * f.unitsPerOne
        ≤ 4 * (x / 2) * f.unitsPerOne := Nat.mul_le_mul_right _ (by omega)
      _ = x / 2 * (2 * (2 * f.unitsPerOne)) := by ring
  le_mean guess _ _ := by
    have hhalf : f.units (x / 2) = x / 2 := units_of_le (by omega)
    have hone := f.two_mul_binade_le
    rw [units_of_le hsmall.le, hhalf]
    rcases Nat.le_total f.unitsPerOne (f.units guess) with hge | hle
    · exact .inl (by omega)
    · exact .inr (Nat.mul_le_mul (Nat.div_le_self x 2) hle)

/-- **Every number but the least has bounds** that no guess leaves, with the first guess between
them. -/
theorem exists_traps {x : Fin f.infinityRank} (hx : 2 ≤ x.val) :
    ∃ low high, Traps f x low high ∧ ((finite false x).div (ofNat 2)).IsWithin low high := by
  have hmono := f.units_strictMono.monotone
  have hfour : f.doubleRank f.twoRank < f.infinityRank :=
    (le_doubleRank _).trans_lt (doubleRank_twoRank_lt f)
  rcases Nat.lt_or_ge x (2 * f.binade) with hsmall | hlarge
  · refine ⟨_, _, traps_of_small hx hsmall, isWithin_half ?_ ?_ hfour⟩
    · rw [units_of_le hsmall.le, units_of_le (by omega)]
      omega
    · have hone := f.two_mul_binade_le
      rw [units_of_le hsmall.le, units_doubleRank, units_twoRank]
      omega
  · -- the half is exact, and the product of the half and of 2 is the number
    obtain ⟨half, hpos, hdouble⟩ := exists_doubleRank_eq hlarge
    have hunits : f.units x = 2 * f.units half := by rw [← hdouble, units_doubleRank]
    have hfinite : f.doubleRank half < f.infinityRank := hdouble.trans_lt x.isLt
    have hproduct : f.units half * f.units f.twoRank = f.units x * f.unitsPerOne := by
      rw [hunits, units_twoRank]
      ring
    rcases Nat.le_total half f.twoRank with hle | hge
    · have hunitsLe : f.units half ≤ f.units f.twoRank := hmono hle
      exact ⟨half, f.twoRank, traps_of_product hpos hfour hproduct,
        isWithin_half hunits.ge (by omega) ((le_doubleRank _).trans_lt hfour)⟩
    · have hunitsGe : f.units f.twoRank ≤ f.units half := hmono hge
      rw [Nat.mul_comm] at hproduct
      exact ⟨f.twoRank, half, traps_of_product f.twoRank_pos hfinite hproduct,
        isWithin_half (by omega) hunits.le ((le_doubleRank _).trans_lt hfinite)⟩

/-! ## Roots -/

/-- **All guesses are positive and finite**, unless the number is the least. -/
theorem isPositive_of_mem_newtonGuesses {x : Fin f.infinityRank} (hx : 2 ≤ x.val) (rounds : ℕ) :
    ∀ guess ∈ newtonGuesses (finite false x) ((finite false x).div (ofNat 2)) rounds,
      guess.IsPositive := by
  obtain ⟨low, high, htraps, hfirst⟩ := exists_traps hx
  have hwithin := forall_mem_newtonGuesses (P := IsWithin low high) (fun _ => htraps.step) hfirst rounds
  exact fun guess hguess => (hwithin guess hguess).isPositive htraps.low_pos

/-- The root of a positive number is 1 or one of the guesses. -/
theorem sqrt_eq_or_mem {x : Binary f} (hx : x.IsPositive) :
    x.sqrt = ofNat 1 ∨ x.sqrt ∈ newtonGuesses x (x.div (ofNat 2)) newtonRounds := by
  have hle : ¬(x.le zero = true) := by
    obtain ⟨rank, rfl, hrank⟩ := isPositive_iff.mp hx
    rw [le, lt, eq, place?_zero]
    simp [place?]
    omega
  rw [sqrt, if_neg hle]
  split
  · exact .inl rfl
  · exact .inr (newton_mem_newtonGuesses _ _ _)

/-- The first guess for the root of the least positive number is rounded to zero, and by zero the
method divides. -/
theorem sqrt_ofRank_one (f : BinaryFormat) :
    (ofRank false 1 : Binary f).div (ofNat 2) = zero ∧
      (ofRank false 1 : Binary f).sqrt = infinite false := by
  cases f <;> decide +kernel

/-- **The root of a positive number is positive and finite, and so are all guesses, unless the number is
the least one.** Of that, the half is rounded to zero, and neither holds. -/
theorem sqrt_isPositive_iff {x : Binary f} (hx : x.IsPositive) :
    (x.sqrt.IsPositive ↔ x ≠ ofRank false 1) ∧
      ((∀ guess ∈ newtonGuesses x (x.div (ofNat 2)) newtonRounds, guess.IsPositive) ↔
        x ≠ ofRank false 1) := by
  obtain ⟨hzero, hinfinite⟩ := sqrt_ofRank_one f
  have hguesses : x ≠ ofRank false 1 →
      ∀ guess ∈ newtonGuesses x (x.div (ofNat 2)) newtonRounds, guess.IsPositive := by
    intro hne
    obtain ⟨rank, rfl, hrank⟩ := isPositive_iff.mp hx
    have hone : rank.val ≠ 1 := fun h => hne (h ▸ (ofRank_val false rank).symm)
    exact isPositive_of_mem_newtonGuesses (by omega) _
  refine ⟨⟨?_, fun hne => ?_⟩, ?_, hguesses⟩
  · rintro h rfl
    rw [hinfinite] at h
    obtain ⟨_, heq, -⟩ := isPositive_iff.mp h
    cases heq
  · rcases sqrt_eq_or_mem hx with hsqrt | hmem
    · rw [hsqrt]
      cases f <;> decide +kernel
    · exact hguesses hne _ hmem
  · rintro h rfl
    have hfirst := h _ (mem_newtonGuesses _ _ _)
    rw [hzero, zero, ofRank_zero] at hfirst
    obtain ⟨_, heq, hpos⟩ := isPositive_iff.mp hfirst
    cases heq
    exact absurd hpos (lt_irrefl 0)

/-- The half of three units is rounded up, and of the greatest value the sum in the first round is close
to the end of the range. Still all guesses for the two are positive and finite. -/
theorem sqrt_isPositive_of_extremes :
    (ofRank false 3 : Double).IsPositive ∧ (ofRank false 3 : Double).sqrt.IsPositive ∧
      (ofRank false (BinaryFormat.single.infinityRank - 1) : Single).IsPositive ∧
      ∀ guess ∈ newtonGuesses (ofRank false (BinaryFormat.single.infinityRank - 1) : Single)
        ((ofRank false (BinaryFormat.single.infinityRank - 1)).div (ofNat 2)) newtonRounds,
        guess.IsPositive := by
  have hleast : (ofRank false 3 : Double).IsPositive := by decide +kernel
  have hgreatest : (ofRank false (BinaryFormat.single.infinityRank - 1) : Single).IsPositive := by
    decide +kernel
  exact ⟨hleast, (sqrt_isPositive_iff hleast).1.mpr (by decide +kernel),
    hgreatest, (sqrt_isPositive_iff hgreatest).2.mpr (by decide +kernel)⟩

/-- In both formats the least positive value has an infinite root. -/
theorem sqrt_least_eq_infinite :
    (ofRank false 1 : Single).IsPositive ∧ (ofRank false 1 : Single).sqrt = infinite false ∧
      (ofRank false 1 : Double).IsPositive ∧ (ofRank false 1 : Double).sqrt = infinite false := by
  decide +kernel

end Binary

end DeskCalc
