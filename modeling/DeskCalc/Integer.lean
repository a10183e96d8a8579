import DeskCalc.Numeric

/-! # Integers of a fixed width

Signed and unsigned integers of 8 to 128 bits. Addition, subtraction, multiplication and division
are those of the whole numbers, brought back into range modulo `2 ^ width`.

* **`IntFormat`** — the range: a width, with or without a sign.
* **`MachineInt.wrap`** — the value of a format that is congruent to a given whole number.
* **`MachineInt.ofNumeral?`** — literals are exact: what is out of range, or has a point, is no
  integer. -/

namespace DeskCalc

/-! ## Ranges -/

/-- The widths that integers come in. -/
inductive Width where
  /-- 8 bits. -/
  | w8
  /-- 16 bits. -/
  | w16
  /-- 32 bits. -/
  | w32
  /-- 64 bits. -/
  | w64
  /-- 128 bits. -/
  | w128
  deriving DecidableEq, Repr

/-- The number of bits of a width. -/
def Width.bits : Width → Nat
  | w8 => 8
  | w16 => 16
  | w32 => 32
  | w64 => 64
  | w128 => 128

/-- **The range of an integer type.** -/
structure IntFormat where
  /-- How many bits a value has. -/
  width : Width
  /-- Whether half of the values are negative. -/
  signed : Bool
  deriving DecidableEq, Repr

namespace IntFormat

/-- How many values the format has. -/
def modulus (f : IntFormat) : Int :=
  Nat.pow 2 f.width.bits

/-- The least value. -/
def least (f : IntFormat) : Int :=
  if f.signed then -(Nat.pow 2 (f.width.bits - 1)) else 0

/-- The greatest value. -/
def greatest (f : IntFormat) : Int :=
  f.least + f.modulus - 1

theorem modulus_pos (f : IntFormat) : 0 < f.modulus :=
  Int.natCast_pos.mpr (Nat.pow_pos (by decide))

end IntFormat

/-- **An integer of a fixed width:** a whole number within the range of its format. -/
@[ext] structure MachineInt (f : IntFormat) where
  /-- The number itself. -/
  val : Int
  least_le : f.least ≤ val
  le_greatest : val ≤ f.greatest
  deriving DecidableEq, Repr

namespace MachineInt

variable {f : IntFormat}

/-! ## Wrapping -/

/-- **The value of the format that is congruent to `n`** modulo the number of its values. -/
def wrap (f : IntFormat) (n : Int) : MachineInt f where
  val := f.least + (n - f.least) % f.modulus
  least_le := by
    have := Int.emod_nonneg (n - f.least) (Int.ne_of_gt f.modulus_pos)
    omega
  le_greatest := by
    have := Int.emod_lt_of_pos (n - f.least) f.modulus_pos
    unfold IntFormat.greatest
    omega

/-- Wrapping moves a number by whole rounds only. -/
theorem val_wrap_emod (f : IntFormat) (n : Int) : (wrap f n).val % f.modulus = n % f.modulus := by
  change (f.least + (n - f.least) % f.modulus) % f.modulus = n % f.modulus
  rw [Int.add_emod_emod]
  congr 1
  omega

/-- A number in range is left as it is. -/
theorem val_wrap_of_mem {n : Int} (hleast : f.least ≤ n) (hgreatest : n ≤ f.greatest) :
    (wrap f n).val = n := by
  have hlt : n - f.least < f.modulus := by
    unfold IntFormat.greatest at hgreatest
    omega
  change f.least + (n - f.least) % f.modulus = n
  rw [Int.emod_eq_of_lt (by omega) hlt]
  omega

/-- A value wraps to itself. -/
@[simp] theorem wrap_val (a : MachineInt f) : wrap f a.val = a :=
  MachineInt.ext (val_wrap_of_mem a.least_le a.le_greatest)

/-- Numbers that differ by whole rounds wrap to the same value. -/
theorem wrap_eq_of_emod_eq {m n : Int} (h : m % f.modulus = n % f.modulus) :
    wrap f m = wrap f n := by
  apply MachineInt.ext
  change f.least + (m - f.least) % f.modulus = f.least + (n - f.least) % f.modulus
  rw [Int.sub_emod, h, ← Int.sub_emod]

/-- The value that equals `n`, if `n` is in range. -/
def ofInt? (f : IntFormat) (n : Int) : Option (MachineInt f) :=
  if h : f.least ≤ n ∧ n ≤ f.greatest then some ⟨n, h.1, h.2⟩ else none

/-- Only the value that equals `n` is given. -/
theorem ofInt?_eq_some_iff {n : Int} {a : MachineInt f} : ofInt? f n = some a ↔ a.val = n := by
  unfold ofInt?
  constructor
  · intro h
    split at h
    · cases h
      rfl
    · cases h
  · rintro rfl
    rw [dif_pos ⟨a.least_le, a.le_greatest⟩]

/-! ## Arithmetic -/

/-- Division truncates toward zero. The one quotient out of range, the least value by `-1`, wraps
back to the least value. -/
def divide (a b : MachineInt f) : Except RuntimeError (MachineInt f) :=
  if b.val = 0 then .error .divisionByZero else .ok (wrap f (a.val.tdiv b.val))

/-- Division fails just for a zero divisor. -/
theorem divide_eq_error_iff {a b : MachineInt f} {cause : RuntimeError} :
    divide a b = .error cause ↔ b.val = 0 ∧ cause = .divisionByZero := by
  by_cases hzero : b.val = 0
  · simp [divide, hzero, eq_comm]
  · simp [divide, hzero]

/-! ## Literals and text -/

/-- The whole number of a numeral without a point. An unsigned format has no negative literals, not
even `-0`. -/
def ofNumeral? (f : IntFormat) (n : Numeral) : Option (MachineInt f) :=
  match n.places with
  | some _ => none
  | none =>
      if n.negative then
        if f.signed then ofInt? f (-n.coefficient) else none
      else ofInt? f n.coefficient

/-- The numeral of a value. -/
def toNumeral (a : MachineInt f) : Numeral :=
  ⟨decide (a.val < 0), a.val.natAbs, none⟩

instance : Numeric (MachineInt f) where
  zero := wrap f 0
  one := wrap f 1
  add a b := wrap f (a.val + b.val)
  sub a b := wrap f (a.val - b.val)
  mul a b := wrap f (a.val * b.val)
  divide := divide
  isZero a := a.val == 0
  lt a b := decide (a.val < b.val)
  truncate? a := exponent? a.val
  ofNumeral? := ofNumeral? f
  format a := a.toNumeral.text

/-! ## Arithmetic on the numbers themselves -/

theorem zero_eq_wrap : (0 : MachineInt f) = wrap f 0 :=
  rfl

theorem one_eq_wrap : (1 : MachineInt f) = wrap f 1 :=
  rfl

theorem add_eq_wrap (a b : MachineInt f) : a + b = wrap f (a.val + b.val) :=
  rfl

theorem sub_eq_wrap (a b : MachineInt f) : a - b = wrap f (a.val - b.val) :=
  rfl

theorem mul_eq_wrap (a b : MachineInt f) : a * b = wrap f (a.val * b.val) :=
  rfl

/-- Zero is in every range. -/
theorem val_wrap_zero (f : IntFormat) : (wrap f 0).val = 0 := by
  obtain ⟨width, signed⟩ := f
  cases width <;> cases signed <;> rfl

/-- **An integer as an exponent** is the exponent nearest to it. -/
theorem exponent_eq_clampExponent (a : MachineInt f) :
    Numeric.exponent a = clampExponent a.val := by
  have hlt : ∀ b c : MachineInt f, Numeric.lt b c = decide (b.val < c.val) := fun _ _ => rfl
  have hzero : (0 : MachineInt f).val = 0 := val_wrap_zero f
  apply Numeric.exponent_eq_clampExponent rfl
  · intro habove
    rw [hlt, hzero]
    exact decide_eq_true (Int.lt_trans (by decide) habove)
  · intro hbelow
    have hnegative : a.val < 0 := Int.lt_trans hbelow (by decide)
    rw [hlt, hlt, hzero]
    exact ⟨decide_eq_false (Int.lt_asymm hnegative), decide_eq_true hnegative⟩

/-! ## Wrapping commutes with the operations -/

/-- Values that differ by whole rounds are the same. -/
theorem eq_of_val_emod_eq {a b : MachineInt f} (h : a.val % f.modulus = b.val % f.modulus) :
    a = b := by
  rw [← wrap_val a, ← wrap_val b]
  exact wrap_eq_of_emod_eq h

theorem wrap_add (f : IntFormat) (m n : Int) : wrap f (m + n) = wrap f m + wrap f n := by
  rw [add_eq_wrap]
  apply wrap_eq_of_emod_eq
  rw [Int.add_emod, Int.add_emod (wrap f m).val, val_wrap_emod, val_wrap_emod]

theorem wrap_sub (f : IntFormat) (m n : Int) : wrap f (m - n) = wrap f m - wrap f n := by
  rw [sub_eq_wrap]
  apply wrap_eq_of_emod_eq
  rw [Int.sub_emod, Int.sub_emod (wrap f m).val, val_wrap_emod, val_wrap_emod]

theorem wrap_mul (f : IntFormat) (m n : Int) : wrap f (m * n) = wrap f m * wrap f n := by
  rw [mul_eq_wrap]
  apply wrap_eq_of_emod_eq
  rw [Int.mul_emod, Int.mul_emod (wrap f m).val, val_wrap_emod, val_wrap_emod]

end MachineInt

/-- The signed 64-bit integers. -/
abbrev Integer64 : Type :=
  MachineInt ⟨.w64, true⟩

end DeskCalc
