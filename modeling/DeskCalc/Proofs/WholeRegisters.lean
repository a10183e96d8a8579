import DeskCalc.Proofs.Congruence
import DeskCalc.Registers

/-! # Registers of integers are exact up to whole rounds

What the keys without divisions do to two whole numbers is written down here on its own, key by key,
and nothing overflows there. The registers of an integer type are at any time these exact ones, brought
back into range: each register may feed the other, and what overflowed on the way is forgotten.

* **`Registers.exactStep`**, **`Registers.exactRun`** — the keys on two whole numbers.
* **`Registers.runKeys_wrap`** — a row of such keys keeps the registers wrapped.
* **`Registers.runKeys_isResidue`** — the registers of each entry, next to the exact ones. -/

namespace DeskCalc

/-! ## Exact registers -/

/-- **Whether a key works on whole numbers:** it does not divide and takes no root. -/
def Key.isWhole {α : Type} : Key α → Bool
  | set _ | add _ | subtract _ | multiply _ => true
  | clear | square => true
  | memoryStore | memoryRecall | memoryClear | memoryAdd => true
  | divide _ | reciprocal | root => false

namespace Registers

variable {f : IntFormat}

/-- **What a key does to two whole numbers**, the running value and the memory. The keys that do not
work on whole numbers change nothing. -/
def exactStep (r : Registers Int) : Key (MachineInt f) → Registers Int
  | .set value => ⟨value.val, r.memory⟩
  | .add value => ⟨r.current + value.val, r.memory⟩
  | .subtract value => ⟨r.current - value.val, r.memory⟩
  | .multiply value => ⟨r.current * value.val, r.memory⟩
  | .clear => ⟨0, r.memory⟩
  | .square => ⟨r.current * r.current, r.memory⟩
  | .memoryStore => ⟨r.current, r.current⟩
  | .memoryRecall => ⟨r.memory, r.memory⟩
  | .memoryClear => ⟨r.current, 0⟩
  | .memoryAdd => ⟨r.current, r.memory + r.current⟩
  | .divide _ | .reciprocal | @Key.root _ _ => r

/-- **The whole numbers after each key of a row.** -/
def exactRun (r : Registers Int) : List (Key (MachineInt f)) → List (Registers Int)
  | [] => []
  | key :: keys => r.exactStep key :: (r.exactStep key).exactRun keys

/-! ## Wrapped registers -/

/-- The registers of an integer type that are congruent to given exact ones. -/
def wrap (f : IntFormat) (r : Registers Int) : Registers (MachineInt f) :=
  ⟨.wrap f r.current, .wrap f r.memory⟩

/-- Registers that start with a value are wrapped. -/
theorem wrap_start (value : MachineInt f) : wrap f ⟨value.val, 0⟩ = start value :=
  congrArg₂ Registers.mk (MachineInt.wrap_val value) MachineInt.zero_eq_wrap.symm

/-- **A key without a division keeps registers wrapped**, and does not fail. -/
theorem entry_wrap {key : Key (MachineInt f)} (h : key.isWhole = true) (r : Registers Int) :
    ((wrap f r).entry key).failure = none ∧
      ((wrap f r).entry key).registers = wrap f (r.exactStep key) := by
  cases key with
  | set value => exact ⟨rfl, congrArg (Registers.mk · _) (MachineInt.wrap_val value).symm⟩
  | add value =>
    have hsum := MachineInt.wrap_add f r.current value.val
    rw [MachineInt.wrap_val] at hsum
    exact ⟨rfl, congrArg (Registers.mk · _) hsum.symm⟩
  | subtract value =>
    have hdifference := MachineInt.wrap_sub f r.current value.val
    rw [MachineInt.wrap_val] at hdifference
    exact ⟨rfl, congrArg (Registers.mk · _) hdifference.symm⟩
  | multiply value =>
    have hproduct := MachineInt.wrap_mul f r.current value.val
    rw [MachineInt.wrap_val] at hproduct
    exact ⟨rfl, congrArg (Registers.mk · _) hproduct.symm⟩
  | clear => exact ⟨rfl, congrArg (Registers.mk · _) MachineInt.zero_eq_wrap⟩
  | square =>
    have hsquare := MachineInt.wrap_mul f r.current r.current
    exact ⟨rfl, congrArg (Registers.mk · _) hsquare.symm⟩
  | memoryStore | memoryRecall => exact ⟨rfl, rfl⟩
  | memoryClear => exact ⟨rfl, congrArg (Registers.mk _) MachineInt.zero_eq_wrap⟩
  | memoryAdd =>
    have hsum := MachineInt.wrap_add f r.memory r.current
    exact ⟨rfl, congrArg (Registers.mk _) hsum.symm⟩
  | divide | reciprocal | root => cases h

/-- **A row of keys without divisions keeps registers wrapped**, and none of its keys fails. -/
theorem runKeys_wrap {keys : List (Key (MachineInt f))} (h : ∀ key ∈ keys, key.isWhole = true)
    (r : Registers Int) :
    List.Forall₂ (fun e exact => e.failure = none ∧ e.registers = wrap f exact)
      ((wrap f r).runKeys keys) (r.exactRun keys) := by
  induction keys generalizing r with
  | nil => exact .nil
  | cons key keys ih =>
    obtain ⟨hkey, hkeys⟩ := List.forall_mem_cons.mp h
    -- the exact registers after the key, wrapped, are those that the next key finds
    have hentry := entry_wrap hkey r
    refine .cons hentry ?_
    rw [hentry.2]
    exact ih hkeys (r.exactStep key)

end Registers

/-! ## Residues -/

/-- **Whether an integer stands for an exact number:** it is the only one of its type that is
congruent to it, and the number itself if that is in range. -/
structure MachineInt.IsResidue {f : IntFormat} (a : MachineInt f) (n : Int) : Prop where
  /-- It is congruent to the number. -/
  modEq : a.val ≡ n [ZMOD 2 ^ f.width.bits]
  /-- No other integer of the type is. -/
  eq_of_modEq : ∀ other : MachineInt f, other.val ≡ n [ZMOD 2 ^ f.width.bits] → other = a
  /-- A number in range stands for itself. -/
  val_eq : f.least ≤ n → n ≤ f.greatest → a.val = n

/-- A wrapped number stands for the number. -/
theorem MachineInt.isResidue_wrap (f : IntFormat) (n : Int) : (wrap f n).IsResidue n where
  modEq := val_wrap_modEq f n
  eq_of_modEq _ := eq_wrap_of_modEq
  val_eq := val_wrap_of_mem

namespace Registers

variable {f : IntFormat}

/-- **Whether an entry of integer registers stands for exact registers:** the key did not fail, and
each register stands for the exact one. -/
structure Entry.IsResidue (e : Entry (MachineInt f)) (exact : Registers Int) : Prop where
  /-- The key did not fail. -/
  failure_eq : e.failure = none
  /-- The running value stands for the exact one. -/
  current : e.registers.current.IsResidue exact.current
  /-- The memory stands for the exact one. -/
  memory : e.registers.memory.IsResidue exact.memory

/-- **Integer registers are exact modulo `2 ^ w`.** For every integer type, starting value and row of
keys without divisions: no key fails, and after each key both registers stand for the whole numbers
that the keys so far make of that value and an empty memory. A register is so exact whenever the exact
one is in range, whatever overflowed before. -/
theorem runKeys_isResidue (value : MachineInt f) {keys : List (Key (MachineInt f))}
    (h : ∀ key ∈ keys, key.isWhole = true) :
    List.Forall₂ Entry.IsResidue ((start value).runKeys keys) (exactRun ⟨value.val, 0⟩ keys) := by
  rw [← wrap_start]
  refine (runKeys_wrap h _).imp fun e exact hentry => ?_
  obtain ⟨registers, failure, log⟩ := e
  obtain ⟨rfl, rfl⟩ := hentry
  exact ⟨rfl, MachineInt.isResidue_wrap f _, MachineInt.isResidue_wrap f _⟩

/-- A row with all the keys that work on whole numbers. From 100, it takes both registers out of the
range of 8 bits and back. -/
def overflowingKeys : List (Key (MachineInt ⟨.w8, true⟩)) :=
  [.memoryAdd, .memoryAdd, .memoryRecall, .multiply (.wrap _ 3), .memoryStore, .set (.wrap _ 12),
    .square, .add (.wrap _ 100), .clear, .subtract (.wrap _ 127), .memoryAdd, .memoryAdd,
    .memoryAdd, .memoryAdd, .memoryRecall, .memoryClear]

/-- The memory becomes 200 and then 600, which is out of range. When 127 has been taken off it four
times, it is 92, and so is the running value once it is recalled. -/
theorem runKeys_isResidue_after_overflow :
    (∀ key ∈ overflowingKeys, key.isWhole = true) ∧
      List.Forall₂ Entry.IsResidue ((start (.wrap ⟨.w8, true⟩ 100)).runKeys overflowingKeys)
        [⟨100, 100⟩, ⟨100, 200⟩, ⟨200, 200⟩, ⟨600, 200⟩, ⟨600, 600⟩, ⟨12, 600⟩, ⟨144, 600⟩,
          ⟨244, 600⟩, ⟨0, 600⟩, ⟨-127, 600⟩, ⟨-127, 473⟩, ⟨-127, 346⟩, ⟨-127, 219⟩, ⟨-127, 92⟩,
          ⟨92, 92⟩, ⟨92, 0⟩] := by
  have hkeys : ∀ key ∈ overflowingKeys, key.isWhole = true := by decide
  exact ⟨hkeys, runKeys_isResidue (.wrap _ 100) hkeys⟩

end Registers

end DeskCalc
