/-! # Computations that log and may fail

A computation has an outcome, a value or an error, and the entries that it logged on the way. An
error ends the computation, and what was logged before it is kept.

* **`Logged`** — the computations, as a monad.
* **`Logged.emit`**, **`Logged.fail`** — log an entry; end with an error. -/

namespace DeskCalc

/-- **A computation that logs entries of `ω`, and gives an `α` or fails with an `ε`.** -/
structure Logged (ω ε α : Type) where
  /-- The entries in the order in which they were logged. -/
  log : List ω
  /-- The value, or the error that ended the computation. -/
  outcome : Except ε α
  deriving Repr

namespace Logged

variable {ω ε α β : Type}

/-- Gives a value and logs nothing. -/
protected def pure (value : α) : Logged ω ε α :=
  ⟨[], .ok value⟩

/-- Runs one computation after the other, unless the first one fails. -/
protected def bind (first : Logged ω ε α) (next : α → Logged ω ε β) : Logged ω ε β :=
  match first.outcome with
  | .ok value =>
      let second := next value
      ⟨first.log ++ second.log, second.outcome⟩
  | .error cause => ⟨first.log, .error cause⟩

instance : Monad (Logged ω ε) where
  pure := Logged.pure
  bind := Logged.bind

/-- Ends with an error. -/
def fail (cause : ε) : Logged ω ε α :=
  ⟨[], .error cause⟩

/-- Logs one entry. -/
def emit (entry : ω) : Logged ω ε Unit :=
  ⟨[entry], .ok ()⟩

/-- Takes over an outcome and logs nothing. -/
def ofExcept (outcome : Except ε α) : Logged ω ε α :=
  ⟨[], outcome⟩

/-! ## Equations -/

@[simp] theorem log_pure (value : α) : (pure value : Logged ω ε α).log = [] :=
  rfl

@[simp] theorem outcome_pure (value : α) : (pure value : Logged ω ε α).outcome = .ok value :=
  rfl

@[simp] theorem log_fail (cause : ε) : (fail cause : Logged ω ε α).log = [] :=
  rfl

@[simp] theorem outcome_fail (cause : ε) : (fail cause : Logged ω ε α).outcome = .error cause :=
  rfl

@[simp] theorem log_emit (entry : ω) : (emit entry : Logged ω ε Unit).log = [entry] :=
  rfl

@[simp] theorem outcome_emit (entry : ω) : (emit entry : Logged ω ε Unit).outcome = .ok () :=
  rfl

@[simp] theorem fail_bind (cause : ε) (next : α → Logged ω ε β) :
    (fail cause : Logged ω ε α) >>= next = fail cause :=
  rfl

@[simp] theorem pure_bind (value : α) (next : α → Logged ω ε β) :
    (pure value : Logged ω ε α) >>= next = next value :=
  rfl

/-- A row of two computations has the outcome of the second one, unless the first one fails. -/
theorem outcome_bind (first : Logged ω ε α) (next : α → Logged ω ε β) :
    (first >>= next).outcome = first.outcome.bind fun value => (next value).outcome := by
  change (Logged.bind first next).outcome = _
  unfold Logged.bind
  cases first.outcome <;> rfl

/-- A row of two computations gives a value if both do. -/
theorem outcome_bind_eq_ok_iff {first : Logged ω ε α} {next : α → Logged ω ε β} {result : β} :
    (first >>= next).outcome = .ok result ↔
      ∃ value, first.outcome = .ok value ∧ (next value).outcome = .ok result := by
  rw [outcome_bind]
  cases first.outcome <;> simp [Except.bind]

/-- A row of two computations fails if the first one does, or the second one after it. -/
theorem outcome_bind_eq_error_iff {first : Logged ω ε α} {next : α → Logged ω ε β} {cause : ε} :
    (first >>= next).outcome = .error cause ↔
      first.outcome = .error cause ∨
        ∃ value, first.outcome = .ok value ∧ (next value).outcome = .error cause := by
  rw [outcome_bind]
  cases first.outcome <;> simp [Except.bind]

/-- After a value, the outcome is that of what comes next. -/
theorem outcome_bind_of_ok {first : Logged ω ε α} {value : α} (h : first.outcome = .ok value)
    (next : α → Logged ω ε β) : (first >>= next).outcome = (next value).outcome := by
  rw [outcome_bind, h]
  rfl

/-- After a failure, nothing comes next. -/
theorem outcome_bind_of_error {first : Logged ω ε α} {cause : ε} (h : first.outcome = .error cause)
    (next : α → Logged ω ε β) : (first >>= next).outcome = .error cause := by
  rw [outcome_bind, h]
  rfl

/-- After a value, the log goes on with that of what comes next. -/
theorem log_bind_of_ok {first : Logged ω ε α} {value : α} (h : first.outcome = .ok value)
    (next : α → Logged ω ε β) : (first >>= next).log = first.log ++ (next value).log := by
  obtain ⟨log, outcome⟩ := first
  cases h
  rfl

/-- After a failure, nothing more is logged. -/
theorem log_bind_of_error {first : Logged ω ε α} {cause : ε} (h : first.outcome = .error cause)
    (next : α → Logged ω ε β) : (first >>= next).log = first.log := by
  obtain ⟨log, outcome⟩ := first
  cases h
  rfl

/-- What both of two computations keep to when they log, they keep to in a row. -/
theorem forall_mem_log_bind {p : ω → Prop} {first : Logged ω ε α} {next : α → Logged ω ε β}
    (hfirst : ∀ entry ∈ first.log, p entry)
    (hnext : ∀ value, ∀ entry ∈ (next value).log, p entry) :
    ∀ entry ∈ (first >>= next).log, p entry := by
  cases h : first.outcome with
  | error cause =>
    rw [log_bind_of_error h]
    exact hfirst
  | ok value =>
    rw [log_bind_of_ok h]
    exact List.forall_mem_append.mpr ⟨hfirst, hnext value⟩

instance : LawfulMonad (Logged ω ε) :=
  LawfulMonad.mk' (Logged ω ε)
    (by
      intro α first
      change Logged.bind first _ = first
      rcases first with ⟨log, _ | _⟩ <;> simp [Logged.bind, Logged.pure])
    (by
      intro α β value next
      rfl)
    (by
      intro α β γ first next last
      change Logged.bind (Logged.bind first next) last =
        Logged.bind first fun value => Logged.bind (next value) last
      rcases first with ⟨log, _ | value⟩
      · rfl
      · rcases hnext : next value with ⟨log', _ | value'⟩ <;>
          simp [Logged.bind, hnext])

end Logged

end DeskCalc
