import DeskCalc.CommandLine.Directory
import DeskCalc.CommandLine.Request
import DeskCalc.Evaluation
import DeskCalc.Integer
import DeskCalc.Text.Blank
import DeskCalc.Text.Lines

/-! # What the command does

From the arguments and the files to the exit code and the two output streams, without any effect.

* **`Outcome`** — the exit code and the texts of both streams.
* **`answer`** — the text of one expression's value, or its error.
* **`report`** — the outcome of a row of answers.
* **`runCommand`** — the outcome of a command line. All files are read before anything is
  evaluated.
* **`runCommand_version`** — nothing is read or evaluated once the version is asked for. -/

namespace DeskCalc

/-- **What a run of the command leaves behind.** -/
structure Outcome where
  /-- The exit code. -/
  code : Nat
  /-- The text of the standard output. -/
  stdout : String
  /-- The text of the error stream. -/
  stderr : String
  deriving DecidableEq, Repr

/-! ## Answers -/

/-- The text of an expression's value in a type. -/
def answerIn (α : Type) [Numeric α] (expression : String) : Except EvalError String :=
  (evaluateAs α expression).outcome.map Numeric.format

/-- **The text of an expression's value**, in 64-bit integers or in double precision. -/
def answer (integers : Bool) (expression : String) : Except EvalError String :=
  if integers then answerIn Integer64 expression else answerIn Double expression

/-- The line that an answer puts on the standard output. -/
def valueLine : Except EvalError String → String
  | .ok text => text ++ "\n"
  | .error _ => ""

/-- The line that an answer puts on the error stream. -/
def errorLine : Except EvalError String → String
  | .ok _ => ""
  | .error cause => cause.message ++ "\n"

/-- Whether an answer is an error. -/
def isFailure : Except EvalError String → Bool
  | .ok _ => false
  | .error _ => true

/-- **The outcome of a row of answers.** Values and errors keep their order on their own streams, and
one error makes the run fail. -/
def report (answers : List (Except EvalError String)) : Outcome where
  code := if answers.any isFailure then 1 else 0
  stdout := String.join (answers.map valueLine)
  stderr := String.join (answers.map errorLine)

/-- Evaluates expressions one by one. -/
def evaluateAll (integers : Bool) (expressions : List String) : Outcome :=
  report (expressions.map (answer integers))

/-! ## Files -/

/-- The expressions of a text: its lines that are not blank. -/
def expressionsOf (text : String) : List String :=
  ((linesOf text.toList).filter fun line => !isBlank line).map String.ofList

/-- The outcome when a file cannot be read. -/
def unreadable (name : String) (failure : ReadFailure) : Outcome where
  code := 1
  stdout := ""
  stderr := "Failed to read the input file '" ++ name ++ "': " ++ failure.message ++ "\n"

/-- Reads files in order, up to the first that cannot be read. -/
def readAll (read : Reader) : List String → Except (String × ReadFailure) (List String)
  | [] => .ok []
  | name :: names =>
      match read name with
      | .error failure => .error (name, failure)
      | .ok text => (readAll read names).map (text :: ·)

/-- Evaluates the expressions of files, if all of them can be read. -/
def evaluateFiles (read : Reader) (integers : Bool) (names : List String) : Outcome :=
  match readAll read names with
  | .error (name, failure) => unreadable name failure
  | .ok texts => evaluateAll integers (texts.flatMap expressionsOf)

/-! ## The command -/

/-- The name and the version of the command. -/
def versionText : String :=
  "quickcalc 0.1.0\n"

/-- **The outcome of a request.** The texts that explain the command line, on request or after a misuse,
are left out: both streams stay empty there. -/
def Request.run (read : Reader) : Request → Outcome
  | help => ⟨0, "", ""⟩
  | version => ⟨0, versionText, ""⟩
  | misuse => ⟨2, "", ""⟩
  | evaluate options contents =>
      if options.files then evaluateFiles read options.integers contents
      else evaluateAll options.integers contents

/-- **The outcome of a command line.** The error stream is that of a run without a log. A log shares the
stream and adds lines of its own, which are left out here: by default a warning, with the time, before
the message of each expression that fails. -/
def runCommand (read : Reader) (arguments : List String) : Outcome :=
  (Request.ofArguments arguments).run read

/-- **The version is named at once,** whatever stands after its switch, and no file is read for it. -/
theorem runCommand_version {arguments : List String} (h : Request.ofArguments arguments = .version)
    (read : Reader) (more : List String) :
    runCommand read (arguments ++ more) = ⟨0, versionText, ""⟩ := by
  rw [runCommand, Request.ofArguments_append (.inr h), h, Request.run]

end DeskCalc
