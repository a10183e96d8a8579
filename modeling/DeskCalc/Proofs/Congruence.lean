import DeskCalc.Proofs.Literals
import DeskCalc.Proofs.Squaring
import Mathlib.Data.Int.ModEq
import Mathlib.Data.Option.NAry

/-! # Integer evaluation is exact up to whole rounds

Wrapping commutes with sums, differences, products and powers. An integer type so gives the exact
value of an expression without quotients, brought back into range once, no matter which intermediate
results left it.

* **`Expression.wholeValue?`** — the exact value of such an expression among all whole numbers.
* **`MachineInt.outcome_of_wholeValue?`** — its value in an integer type is the wrapped one.
* **`evaluateAs_modEq_wholeValue`** — so for texts: the value is the only one of its type that is
  congruent to the exact one, and signed and unsigned types agree on its bits. -/

namespace DeskCalc

/-! ## Exact values -/

/-- The whole number that a numeral without a point writes. -/
def Numeral.whole? (n : Numeral) : Option Int :=
  match n.places with
  | some _ => none
  | none => some (if n.negative then -n.coefficient else n.coefficient)

namespace Expression

/-- The whole number that the text of a literal writes. -/
def wholeLiteral? (text : String) : Option Int :=
  (Numeral.ofText? text).bind Numeral.whole?

/-- The exponent that a literal writes: a whole number in the range of exponents, and not a negative
one. -/
def wholeExponent? : Expression → Option Nat
  | literal text _ =>
      (wholeLiteral? text).bind fun n =>
        if 0 ≤ n ∧ n ≤ greatestExponent then some n.toNat else none
  | binary .. => none

/-- **The exact value of a tree** of whole literals, sums, differences, products, and powers whose
exponent is a literal. Nothing is brought into any range. -/
def wholeValue? : Expression → Option Int
  | literal text _ => wholeLiteral? text
  | binary .add left right => Option.map₂ (· + ·) left.wholeValue? right.wholeValue?
  | binary .sub left right => Option.map₂ (· - ·) left.wholeValue? right.wholeValue?
  | binary .mul left right => Option.map₂ (· * ·) left.wholeValue? right.wholeValue?
  | binary .div _ _ => none
  | binary .pow left right => Option.map₂ (· ^ ·) left.wholeValue? right.wholeExponent?

end Expression

namespace MachineInt

variable {f : IntFormat}

/-! ## Literals -/

/-- The value of a numeral is the whole number that it writes. -/
theorem whole?_of_ofNumeral? {n : Numeral} {value : MachineInt f}
    (h : ofNumeral? f n = some value) : n.whole? = some value.val := by
  obtain ⟨negative, coefficient, places⟩ := n
  match places, negative with
  | some _, _ => cases h
  | none, true =>
    -- only a signed type has negative literals
    obtain ⟨-, h⟩ := Option.ite_none_right_eq_some.mp h
    exact congrArg some (ofInt?_eq_some_iff.mp h).symm
  | none, false => exact congrArg some (ofInt?_eq_some_iff.mp h).symm

/-- **A literal that a type reads has its exact value there.** -/
theorem val_of_readNumber {text : String} {position : Nat} {value : MachineInt f} {n : Int}
    (hread : readNumber text position = .ok value)
    (hvalue : Expression.wholeLiteral? text = some n) : value.val = n := by
  obtain ⟨m, hm, hnumeral⟩ := readNumber_ok_iff.mp hread
  rw [Expression.wholeLiteral?, hm, Option.bind_some, whole?_of_ofNumeral? hnumeral] at hvalue
  exact Option.some.inj hvalue

/-! ## Trees -/

/-- An exponent literal has its exact value as an exponent. -/
theorem exists_outcome_of_wholeExponent? {tree : Expression} {k : Nat}
    (hlegible : tree.Legible (MachineInt f)) (hvalue : tree.wholeExponent? = some k) :
    ∃ value : MachineInt f, tree.evaluate.outcome = .ok value ∧
      Numeric.exponent value = (k : Int) := by
  cases tree with
  | binary op left right => cases hvalue
  | literal text position =>
    obtain ⟨value, hread⟩ := hlegible
    obtain ⟨n, hliteral, hrange⟩ := Option.bind_eq_some_iff.mp hvalue
    obtain ⟨⟨hnonneg, hgreatest⟩, hk⟩ := Option.ite_none_right_eq_some.mp hrange
    obtain rfl := val_of_readNumber hread hliteral
    cases hk
    have hleast : leastExponent ≤ value.val := Int.le_trans (by decide) hnonneg
    refine ⟨value, Expression.outcome_literal_ok_iff.mpr hread, ?_⟩
    rw [exponent_eq_clampExponent, clampExponent_of_mem hleast hgreatest,
      Int.toNat_of_nonneg hnonneg]

/-- **An integer type gives the wrapped exact value.** Each operator takes wrapped operands to its
wrapped result. -/
theorem outcome_of_wholeValue? {tree : Expression} {n : Int}
    (hlegible : tree.Legible (MachineInt f)) (hvalue : tree.wholeValue? = some n) :
    (tree.evaluate : Evaluation (MachineInt f) _).outcome = .ok (wrap f n) := by
  induction tree generalizing n with
  | literal text position =>
    obtain ⟨value, hread⟩ := hlegible
    obtain rfl := val_of_readNumber hread hvalue
    rw [wrap_val]
    exact Expression.outcome_literal_ok_iff.mpr hread
  | binary op left right ihLeft ihRight =>
    obtain ⟨hleft, hright⟩ := hlegible
    cases op with
    | add =>
      obtain ⟨a, b, ha, hb, rfl⟩ := Option.map₂_eq_some_iff.mp hvalue
      rw [Expression.outcome_binary (ihLeft hleft ha) (ihRight hright hb), wrap_add]
      rfl
    | sub =>
      obtain ⟨a, b, ha, hb, rfl⟩ := Option.map₂_eq_some_iff.mp hvalue
      rw [Expression.outcome_binary (ihLeft hleft ha) (ihRight hright hb), wrap_sub]
      rfl
    | mul =>
      obtain ⟨a, b, ha, hb, rfl⟩ := Option.map₂_eq_some_iff.mp hvalue
      rw [Expression.outcome_binary (ihLeft hleft ha) (ihRight hright hb), wrap_mul]
      rfl
    | div => cases hvalue
    | pow =>
      obtain ⟨a, k, ha, hk, rfl⟩ := Option.map₂_eq_some_iff.mp hvalue
      obtain ⟨b, hb, hexponent⟩ := exists_outcome_of_wholeExponent? hright hk
      rw [Expression.outcome_binary (ihLeft hleft ha) hb, Operator.apply, hexponent,
        power_of_nonneg _ (Int.natCast_nonneg k), Int.toNat_natCast, raise_wrap]
      rfl

/-! ## Residues -/

/-- A wrapped number is congruent to the number. -/
theorem val_wrap_modEq (f : IntFormat) (n : Int) : (wrap f n).val ≡ n [ZMOD 2 ^ f.width.bits] := by
  rw [← modulus_eq_two_pow]
  exact val_wrap_emod f n

/-- A type has one value only in each class of congruent numbers. -/
theorem eq_wrap_of_modEq {n : Int} {other : MachineInt f}
    (h : other.val ≡ n [ZMOD 2 ^ f.width.bits]) : other = wrap f n := by
  apply eq_of_val_emod_eq
  rw [modulus_eq_two_pow]
  exact h.trans (val_wrap_modEq f n).symm

end MachineInt

/-- Congruent numbers have the same bits. -/
theorem ofInt_eq_of_modEq {bits : Nat} {m n : Int} (h : m ≡ n [ZMOD 2 ^ bits]) :
    BitVec.ofInt bits m = BitVec.ofInt bits n := by
  apply BitVec.eq_of_toNat_eq
  rw [BitVec.toNat_ofInt, BitVec.toNat_ofInt, Int.natCast_pow]
  exact congrArg Int.toNat h

/-! ## Texts -/

/-- **Integer evaluation is exact arithmetic modulo `2 ^ w`.** A text without quotients, whose
exponents are literals that are not negative and in the range of exponents, has a value in each type
of the width `w` that reads its literals: the only one of the type that is congruent to the exact
value, and the exact value itself if that is in range, whatever the intermediate results are. Where
the signed and the unsigned type both read the literals, their values have the same bits. -/
theorem evaluateAs_modEq_wholeValue (w : Width) {source : String} {lexemes : List Lexeme}
    {tree : Expression} {n : Int} (hscan : Lexeme.scan source = .ok lexemes)
    (hderives : Derives wholeStrength lexemes tree) (hvalue : tree.wholeValue? = some n) :
    (∀ signed, tree.Legible (MachineInt ⟨w, signed⟩) →
        ∃ value, (evaluateAs (MachineInt ⟨w, signed⟩) source).outcome = .ok value ∧
          value.val ≡ n [ZMOD 2 ^ w.bits] ∧
          (∀ other : MachineInt ⟨w, signed⟩, other.val ≡ n [ZMOD 2 ^ w.bits] → other = value) ∧
          (IntFormat.least ⟨w, signed⟩ ≤ n → n ≤ IntFormat.greatest ⟨w, signed⟩ →
            value.val = n)) ∧
      (tree.Legible (MachineInt ⟨w, true⟩) → tree.Legible (MachineInt ⟨w, false⟩) →
        ∃ a b, (evaluateAs (MachineInt ⟨w, true⟩) source).outcome = .ok a ∧
          (evaluateAs (MachineInt ⟨w, false⟩) source).outcome = .ok b ∧
          BitVec.ofInt w.bits a.val = BitVec.ofInt w.bits b.val) := by
  have houtcome : ∀ signed, tree.Legible (MachineInt ⟨w, signed⟩) →
      (evaluateAs (MachineInt ⟨w, signed⟩) source).outcome =
        .ok (MachineInt.wrap ⟨w, signed⟩ n) := by
    intro signed hlegible
    rw [outcome_evaluateAs hscan, evaluateLexemes_of_derives hderives]
    exact MachineInt.outcome_of_wholeValue? hlegible hvalue
  constructor
  · intro signed hlegible
    exact ⟨_, houtcome signed hlegible, MachineInt.val_wrap_modEq _ n,
      fun other hother => MachineInt.eq_wrap_of_modEq hother, MachineInt.val_wrap_of_mem⟩
  · intro hsigned hunsigned
    refine ⟨_, _, houtcome true hsigned, houtcome false hunsigned, ofInt_eq_of_modEq ?_⟩
    have hleft := MachineInt.val_wrap_modEq ⟨w, true⟩ n
    have hright := MachineInt.val_wrap_modEq ⟨w, false⟩ n
    exact hleft.trans hright.symm

/-- In 8 bits the power and the product of `2^9-100*5` are out of range, and their difference is
exact. -/
theorem evaluateAs_difference_of_overflows :
    Lexeme.scan "2^9-100*5" = .ok [⟨.number "2", 0⟩, ⟨.operator .pow, 1⟩, ⟨.number "9", 2⟩,
        ⟨.operator .sub, 3⟩, ⟨.number "100", 4⟩, ⟨.operator .mul, 7⟩, ⟨.number "5", 8⟩] ∧
      ∃ a b, (evaluateAs (MachineInt ⟨.w8, true⟩) "2^9-100*5").outcome = .ok a ∧
        (evaluateAs (MachineInt ⟨.w8, false⟩) "2^9-100*5").outcome = .ok b ∧
        a.val = 12 ∧ b.val = 12 := by
  have hscan : Lexeme.scan "2^9-100*5" = .ok [⟨.number "2", 0⟩, ⟨.operator .pow, 1⟩,
      ⟨.number "9", 2⟩, ⟨.operator .sub, 3⟩, ⟨.number "100", 4⟩, ⟨.operator .mul, 7⟩,
      ⟨.number "5", 8⟩] := by decide +kernel
  have hpower : Derives Operator.pow.precedence
      ([⟨.number "2", 0⟩] ++ ⟨.operator .pow, 1⟩ :: [⟨.number "9", 2⟩])
      (.binary .pow (.literal "2" 0) (.literal "9" 2)) :=
    .binary (Derives.unsigned.weaken_of_le (by decide)) (Derives.unsigned.weaken_of_le (by decide))
  have hproduct : Derives Operator.mul.precedence
      ([⟨.number "100", 4⟩] ++ ⟨.operator .mul, 7⟩ :: [⟨.number "5", 8⟩])
      (.binary .mul (.literal "100" 4) (.literal "5" 8)) :=
    .binary (Derives.unsigned.weaken_of_le (by decide)) (Derives.unsigned.weaken_of_le (by decide))
  have hderives : Derives Operator.sub.precedence
      ([⟨.number "2", 0⟩, ⟨.operator .pow, 1⟩, ⟨.number "9", 2⟩] ++
        ⟨.operator .sub, 3⟩ :: [⟨.number "100", 4⟩, ⟨.operator .mul, 7⟩, ⟨.number "5", 8⟩]) _ :=
    .binary (hpower.weaken_of_le (by decide)) (hproduct.weaken_of_le (by decide))
  have hlegible : ∀ signed, Expression.Legible (MachineInt ⟨.w8, signed⟩)
      (.binary .sub (.binary .pow (.literal "2" 0) (.literal "9" 2))
        (.binary .mul (.literal "100" 4) (.literal "5" 8))) := by
    intro signed
    refine ⟨⟨⟨.wrap _ 2, ?_⟩, ⟨.wrap _ 9, ?_⟩⟩, ⟨.wrap _ 100, ?_⟩, ⟨.wrap _ 5, ?_⟩⟩ <;>
      revert signed <;> decide +kernel
  have hvalues := (evaluateAs_modEq_wholeValue .w8 hscan hderives (n := 12) (by decide +kernel)).1
  obtain ⟨a, ha, -, -, hexact⟩ := hvalues true (hlegible true)
  obtain ⟨b, hb, -, -, hexact'⟩ := hvalues false (hlegible false)
  exact ⟨hscan, a, b, ha, hb, hexact (by decide) (by decide), hexact' (by decide) (by decide)⟩

end DeskCalc
