import DeskCalc.Operator

/-! # Log events

What evaluations and registers log, as typed events, and how an event is put on record.

* **`EvaluationEvent`** — an operator was applied; an expression was evaluated.
* **`MemoryEvent`** — the memory register was stored to or added to.
* **`LogRecord`** — a level, a message and named fields of text. -/

namespace DeskCalc

/-! ## Records -/

/-- How important an event is. -/
inductive LogLevel where
  /-- Each single step. -/
  | trace
  /-- Each whole evaluation. -/
  | debug
  deriving DecidableEq, Repr

/-- The name of a level. -/
def LogLevel.name : LogLevel → String
  | trace => "TRACE"
  | debug => "DEBUG"

/-- **An event on record.** -/
structure LogRecord where
  /-- How important the event is. -/
  level : LogLevel
  /-- What happened. -/
  message : String
  /-- The values involved, by name. -/
  fields : List (String × String)
  deriving DecidableEq, Repr

/-! ## Events -/

/-- **What an evaluation logs.** -/
inductive EvaluationEvent (α : Type) where
  /-- An operator had a value for its operands. -/
  | applied (left : α) (op : Operator) (right value : α)
  /-- The text of an expression had a value. -/
  | evaluated (expression : String) (result : α)
  deriving DecidableEq, Repr

/-- **What the registers log.** -/
inductive MemoryEvent (α : Type) where
  /-- The memory was replaced by a value. -/
  | stored (value : α)
  /-- The memory was added to, which made it `memory`. -/
  | added (memory : α)
  deriving DecidableEq, Repr

variable {α : Type} [Numeric α]

/-- The record of an evaluation's event. -/
def EvaluationEvent.toRecord : EvaluationEvent α → LogRecord
  | applied left op right value =>
      ⟨.trace, "applied operator",
        [("left", Numeric.format left), ("op", op.text), ("right", Numeric.format right),
          ("value", Numeric.format value)]⟩
  | evaluated expression result =>
      ⟨.debug, "evaluated expression",
        [("expression", expression), ("result", Numeric.format result)]⟩

/-- The record of a memory event. -/
def MemoryEvent.toRecord : MemoryEvent α → LogRecord
  | stored value => ⟨.trace, "memory store", [("value", Numeric.format value)]⟩
  | added memory => ⟨.trace, "memory add", [("memory", Numeric.format memory)]⟩

end DeskCalc
