import DeskCalc.Event

/-! # Registers

The calculator without expressions: a running value, a memory, and the keys that work on them in
place.

* **`Registers`** — the two registers.
* **`Key`** — what can be done to them.
* **`Panel`**, **`Keystroke`** — the registers with their log, and programs that change them step by
  step. A failure ends such a program and takes nothing back.
* **`Keystroke.press`** — what one key does, step by step.
* **`Registers.runKeys`** — the entries of a row of keys, failing ones included. -/

namespace DeskCalc

/-- **The running value and the memory.** -/
structure Registers (α : Type) where
  /-- The running value. -/
  current : α
  /-- The memory. -/
  memory : α
  deriving DecidableEq, Repr

/-- **What can be done to the registers.** -/
inductive Key (α : Type) where
  /-- Replaces the running value. -/
  | set (value : α)
  /-- Adds to the running value. -/
  | add (value : α)
  /-- Subtracts from the running value. -/
  | subtract (value : α)
  /-- Multiplies the running value. -/
  | multiply (value : α)
  /-- Divides the running value. -/
  | divide (value : α)
  /-- Makes the running value zero. -/
  | clear
  /-- Multiplies the running value by itself. -/
  | square
  /-- Divides one by the running value. -/
  | reciprocal
  /-- Copies the running value to the memory. -/
  | memoryStore
  /-- Copies the memory to the running value. -/
  | memoryRecall
  /-- Makes the memory zero. -/
  | memoryClear
  /-- Adds the running value to the memory. -/
  | memoryAdd
  /-- Replaces the running value by its square root, in the types that have one. -/
  | root [SquareRoot α]

/-! ## Programs of keys -/

/-- **What keys work on:** the registers, and the log of what was done to the memory. -/
structure Panel (α : Type) where
  /-- The registers. -/
  registers : Registers α
  /-- The entries in the order in which they were logged. -/
  log : List (MemoryEvent α)

/-- **A program that works on a panel in place.** What it has changed or logged before it fails is
not taken back. -/
abbrev Keystroke (α β : Type) : Type :=
  EStateM RuntimeError (Panel α) β

namespace Keystroke

variable {α : Type}

/-- Reads the running value. -/
def current : Keystroke α α :=
  return (← get).registers.current

/-- Reads the memory. -/
def memory : Keystroke α α :=
  return (← get).registers.memory

/-- Writes the running value. -/
def setCurrent (value : α) : Keystroke α Unit :=
  modify fun panel => { panel with registers := { panel.registers with current := value } }

/-- Writes the memory. -/
def setMemory (value : α) : Keystroke α Unit :=
  modify fun panel => { panel with registers := { panel.registers with memory := value } }

/-- Logs an event. -/
def record (event : MemoryEvent α) : Keystroke α Unit :=
  modify fun panel => { panel with log := panel.log ++ [event] }

section Runs

variable {β : Type} (panel : Panel α)

@[simp] theorem run_current :
    (current : Keystroke α α).run panel = .ok panel.registers.current panel :=
  rfl

@[simp] theorem run_memory :
    (memory : Keystroke α α).run panel = .ok panel.registers.memory panel :=
  rfl

@[simp] theorem run_setCurrent (value : α) :
    (setCurrent value).run panel = .ok () ⟨⟨value, panel.registers.memory⟩, panel.log⟩ :=
  rfl

@[simp] theorem run_setMemory (value : α) :
    (setMemory value).run panel = .ok () ⟨⟨panel.registers.current, value⟩, panel.log⟩ :=
  rfl

@[simp] theorem run_record (event : MemoryEvent α) :
    (record event).run panel = .ok () ⟨panel.registers, panel.log ++ [event]⟩ :=
  rfl

@[simp] theorem run_ofExcept_ok (value : β) :
    (ofExcept (.ok value) : Keystroke α β).run panel = .ok value panel :=
  rfl

@[simp] theorem run_ofExcept_error (cause : RuntimeError) :
    (ofExcept (.error cause) : Keystroke α β).run panel = .error cause panel :=
  rfl

end Runs

/-- Why zero has no reciprocal. -/
def zeroReciprocal : RuntimeError :=
  .domainError "reciprocal of zero is undefined"

/-- **What one key does.** -/
def press [Numeric α] : Key α → Keystroke α Unit
  | .set value => setCurrent value
  | .add value => do setCurrent ((← current) + value)
  | .subtract value => do setCurrent ((← current) - value)
  | .multiply value => do setCurrent ((← current) * value)
  | .divide value => do
      let quotient ← ofExcept (Numeric.divide (← current) value)
      setCurrent quotient
  | .clear => setCurrent 0
  | .square => do setCurrent ((← current) * (← current))
  | .reciprocal => do
      if Numeric.isZero (← current) then
        throw zeroReciprocal
      let quotient ← ofExcept (Numeric.divide 1 (← current))
      setCurrent quotient
  | .memoryStore => do
      record (.stored (← current))
      setMemory (← current)
  | .memoryRecall => do setCurrent (← memory)
  | .memoryClear => setMemory 0
  | .memoryAdd => do
      setMemory ((← memory) + (← current))
      record (.added (← memory))
  | @Key.root _ method => do setCurrent (method.squareRoot (← current))

end Keystroke

/-! ## Rows of keys -/

namespace Registers

variable {α : Type} [Numeric α]

/-- The registers that start with a value and an empty memory. -/
def start (value : α) : Registers α :=
  ⟨value, 0⟩

/-- **One pressed key on record:** the registers after it, why it failed if it did, and what it
logged. -/
structure Entry (α : Type) where
  /-- The registers after the key. -/
  registers : Registers α
  /-- Why the key failed, if it did. -/
  failure : Option RuntimeError
  /-- What the key logged. -/
  log : List (MemoryEvent α)
  deriving DecidableEq, Repr

/-- The entry of one key: what it has made of the registers and logged, be it to the end or up to
its failure. -/
def entry (r : Registers α) (key : Key α) : Entry α :=
  match (Keystroke.press key).run ⟨r, []⟩ with
  | .ok _ panel => ⟨panel.registers, none, panel.log⟩
  | .error cause panel => ⟨panel.registers, some cause, panel.log⟩

/-- **The entries of a row of keys**, each pressed on the registers that the one before it left. -/
def runKeys (r : Registers α) : List (Key α) → List (Entry α)
  | [] => []
  | key :: keys =>
      let first := r.entry key
      first :: runKeys first.registers keys

end Registers

end DeskCalc
