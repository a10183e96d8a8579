import DeskCalc.Binary.Numeric
import DeskCalc.Integer

/-! # The number types

* **`NumberType`** — the types that the calculator computes in: integers of a fixed width, and
  binary floating-point numbers.
* **`NumberType.Value`** — the values of a type. -/

namespace DeskCalc

/-- **A type to calculate in.** -/
inductive NumberType where
  /-- Integers of a fixed width. -/
  | integer (f : IntFormat)
  /-- Binary floating-point numbers. -/
  | binary (f : BinaryFormat)
  deriving DecidableEq, Repr

namespace NumberType

/-- The values of a type. -/
def Value : NumberType → Type
  | integer f => MachineInt f
  | binary f => Binary f

instance : (t : NumberType) → Numeric t.Value
  | integer f => inferInstanceAs (Numeric (MachineInt f))
  | binary f => inferInstanceAs (Numeric (Binary f))

/-- Whether the type is one of integers. -/
def IsInteger : NumberType → Prop
  | integer _ => True
  | binary _ => False

/-- **Whether a value is zero.** Floating-point types have a zero of each sign. -/
def IsZero : (t : NumberType) → t.Value → Prop
  | integer _, value => value.val = 0
  | binary _, value => ∃ negative, value = Binary.ofRank negative 0

end NumberType

end DeskCalc
