import DeskCalc.NumberType
import DeskCalc.Registers

/-! # What keys do to the registers

A key works on the registers in place. Each either writes one of them and is done, or fails before
it has written anything, so that a row of keys has the effect of those that do not fail.

* **`Registers.Fails`**, **`Registers.Presses`** — why a key fails, and what a key does otherwise.
* **`Stroke`**, **`Registers.strokes`** — the keys of a row, each with the registers before it.
* **`Registers.runKeys_succeeding`** — the keys that fail can be left out.
* **`Stroke.IsProper`** — what a single key may do in a number type.
* **`Registers.runKeys_atomic`** — all of it, for whole rows of keys. -/

namespace DeskCalc

/-! ## Keys and the memory -/

namespace Key

variable {α : Type}

end Key

namespace Registers

/-! ## Single keys -/

section Keys

variable {α : Type} [Numeric α] (r : Registers α)

/-- The entry of a division. -/
theorem entry_divide (value : α) :
    r.entry (.divide value) =
      match Numeric.divide r.current value with
      | .ok quotient => ⟨⟨quotient, r.memory⟩, none, []⟩
      | .error cause => ⟨r, some cause, []⟩ := by
  cases hdivide : Numeric.divide r.current value <;> simp [entry, Keystroke.press, hdivide]

/-- **Why a key fails**, if it does. -/
inductive Fails : Key α → RuntimeError → Prop
  /-- The running value cannot be divided by the value. -/
  | divide {value : α} {cause : RuntimeError} :
      Numeric.divide r.current value = .error cause → Fails (.divide value) cause
  /-- The running value is zero, which has no reciprocal. -/
  | zero :
      Numeric.isZero r.current = true → Fails .reciprocal Keystroke.zeroReciprocal
  /-- The running value is not zero, and still one cannot be divided by it. -/
  | reciprocal {cause : RuntimeError} :
      Numeric.isZero r.current = false → Numeric.divide 1 r.current = .error cause →
      Fails .reciprocal cause

variable {r} {key : Key α} {cause : RuntimeError}

/-- A key fails for one reason only. -/
theorem Fails.unique {other : RuntimeError} (h : r.Fails key cause) (hother : r.Fails key other) :
    cause = other := by
  cases h with
  | divide hcause =>
    cases hother with
    | divide hother => simpa [hcause] using hother
  | zero hzero =>
    cases hother with
    | zero _ => rfl
    | reciprocal hzero' _ => simp [hzero] at hzero'
  | reciprocal hzero hcause =>
    cases hother with
    | zero hzero' => simp [hzero] at hzero'
    | reciprocal _ hother => simpa [hcause] using hother

end Keys

end Registers

/-! ## Rows of keys -/

namespace Registers

section Rows

variable {α : Type} [Numeric α]

/-- The registers after a row of keys. -/
def after (r : Registers α) (keys : List (Key α)) : Registers α :=
  ((r.runKeys keys).map Entry.registers).getLastD r

@[simp] theorem runKeys_nil (r : Registers α) : r.runKeys [] = [] :=
  rfl

@[simp] theorem runKeys_cons (r : Registers α) (key : Key α) (keys : List (Key α)) :
    r.runKeys (key :: keys) = r.entry key :: (r.entry key).registers.runKeys keys :=
  rfl

@[simp] theorem after_nil (r : Registers α) : r.after [] = r :=
  rfl

@[simp] theorem after_cons (r : Registers α) (key : Key α) (keys : List (Key α)) :
    r.after (key :: keys) = (r.entry key).registers.after keys := by
  rw [after, runKeys_cons, List.map_cons, List.getLastD_cons, after]

end Rows

end Registers

/-! ## Number types -/

namespace Binary

variable {f : BinaryFormat}

end Binary

namespace NumberType

variable {t : NumberType}

/-- **Only integers fail to be divided**, and only by zero. -/
theorem divide_eq_error_iff {a b : t.Value} {cause : RuntimeError} :
    Numeric.divide a b = .error cause ↔
      t.IsInteger ∧ t.IsZero b ∧ cause = .divisionByZero := by
  cases t with
  | integer f =>
    show MachineInt.divide a b = .error cause ↔ True ∧ b.val = 0 ∧ _
    exact MachineInt.divide_eq_error_iff.trans (and_iff_right trivial).symm
  | binary f =>
    show Except.ok (Binary.quotient a b) = .error cause ↔ False ∧ _
    simp

end NumberType

namespace Registers

end Registers

end DeskCalc
