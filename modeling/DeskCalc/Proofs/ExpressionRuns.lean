import DeskCalc.CommandLine.Run
import DeskCalc.Proofs.LineEnds
import DeskCalc.Proofs.Messages
import DeskCalc.Proofs.Requests

/-! # What a run on expressions prints

Each expression of a command line puts one line on one of the two streams, and nothing else does.
Since neither values nor messages end a line, the lines can be counted, and each of them is that of
its own expression.

* **`unlines`**, **`linesOf_unlines`** — texts as lines of a stream, and back.
* **`NumberType.valueText?`**, **`NumberType.errorText?`** — what an expression prints.
* **`Outcome.IsRunOf`** — what a run on expressions leaves behind.
* **`runCommand_expressions`** — what a command line that asks for expressions does. -/

namespace DeskCalc

/-! ## Lines of a stream -/

/-- The texts of a stream, each on a line of its own. -/
def unlines (texts : List String) : String :=
  String.join (texts.map (· ++ "\n"))

@[simp] theorem unlines_nil : unlines [] = "" :=
  rfl

@[simp] theorem unlines_cons (text : String) (texts : List String) :
    unlines (text :: texts) = text ++ "\n" ++ unlines texts := by
  rw [unlines, List.map_cons, String.join_cons, unlines]

/-- A stream is empty if it has no lines. -/
theorem unlines_eq_empty_iff {texts : List String} : unlines texts = "" ↔ texts = [] := by
  cases texts with
  | nil => simp
  | cons text texts => simp

/-- **A line feed ends a line** that has no end before. -/
theorem linesOf_append {line : List Char} (h : IsLine line) (rest : List Char) :
    linesOf (line ++ '\n' :: rest) = line :: linesOf rest := by
  have hfeed : '\n' ∉ line := fun hmem => (h _ hmem).1 rfl
  have hreturn : '\r' ∉ line := fun hmem => (h _ hmem).2 rfl
  rw [linesOf_append_feed hfeed, dropReturn_of_notMem hreturn]

/-- **The lines of a stream are its texts** if none of them ends a line. -/
theorem linesOf_unlines {texts : List String} (h : ∀ text ∈ texts, IsLine text.toList) :
    linesOf (unlines texts).toList = texts.map String.toList := by
  induction texts with
  | nil => rfl
  | cons text texts ih =>
    obtain ⟨htext, htexts⟩ := List.forall_mem_cons.mp h
    have hchars : (unlines (text :: texts)).toList =
        text.toList ++ '\n' :: (unlines texts).toList := by
      simp
    rw [hchars, linesOf_append htext, ih htexts, List.map_cons]

/-! ## Answers -/

namespace NumberType

/-- The type that a command line calculates in. -/
def ofMode : Bool → NumberType
  | true => integer ⟨.w64, true⟩
  | false => binary .double

variable (t : NumberType)

/-- The text of an expression's value, if it has one. -/
def valueText? (expression : String) : Option String :=
  match (evaluateAs t.Value expression).outcome with
  | .ok value => some (Numeric.format value)
  | .error _ => none

/-- The message of an expression's error, if it has one. -/
def errorText? (expression : String) : Option String :=
  match (evaluateAs t.Value expression).outcome with
  | .ok _ => none
  | .error cause => some cause.message

/-- **What an expression prints stays on one line.** -/
theorem isLine_of_valueText? {t : NumberType} {expression text : String}
    (h : t.valueText? expression = some text) : IsLine text.toList := by
  unfold valueText? at h
  split at h
  · cases h
    exact isLine_format _
  · cases h

/-- **The message of an expression stays on one line.** -/
theorem isLine_of_errorText? {t : NumberType} {expression text : String}
    (h : t.errorText? expression = some text) : IsLine text.toList := by
  unfold errorText? at h
  split at h
  · cases h
  · rename_i hcause
    cases h
    exact isLine_message hcause

/-- **Each expression prints one text**, its value or its error. -/
theorem length_valueText?_add_length_errorText? (expressions : List String) :
    (expressions.filterMap t.valueText?).length + (expressions.filterMap t.errorText?).length =
      expressions.length := by
  induction expressions with
  | nil => rfl
  | cons expression expressions ih =>
    rw [List.filterMap_cons, List.filterMap_cons, valueText?, errorText?]
    cases (evaluateAs t.Value expression).outcome with
    | ok value =>
      simp only [List.length_cons]
      omega
    | error cause =>
      simp only [List.length_cons]
      omega

end NumberType

open NumberType in
/-- The answer of a run is that of the type. -/
theorem answer_eq (integers : Bool) (expression : String) :
    answer integers expression =
      (evaluateAs (ofMode integers).Value expression).outcome.map Numeric.format := by
  cases integers <;> rfl

/-! ## Runs -/

/-- **What a run on expressions leaves behind:** the values on one stream and the errors on the other,
in order and one on each line, and a code that says whether there were errors. -/
structure Outcome.IsRunOf (t : NumberType) (expressions : List String) (outcome : Outcome) :
    Prop where
  /-- The standard output shows the values. -/
  stdout_eq : outcome.stdout = unlines (expressions.filterMap t.valueText?)
  /-- The error stream shows the errors. -/
  stderr_eq : outcome.stderr = unlines (expressions.filterMap t.errorText?)
  /-- The code is 1 just if the error stream is not empty. -/
  code_eq : outcome.code = if outcome.stderr = "" then 0 else 1
  /-- No value ends a line. -/
  isLine_values : ∀ text ∈ expressions.filterMap t.valueText?, IsLine text.toList
  /-- No message ends a line. -/
  isLine_errors : ∀ text ∈ expressions.filterMap t.errorText?, IsLine text.toList
  /-- The lines of the standard output are the values. -/
  linesOf_stdout :
    linesOf outcome.stdout.toList = (expressions.filterMap t.valueText?).map String.toList
  /-- The lines of the error stream are the errors. -/
  linesOf_stderr :
    linesOf outcome.stderr.toList = (expressions.filterMap t.errorText?).map String.toList
  /-- There is one line for each expression. -/
  length_lines : (linesOf outcome.stdout.toList).length + (linesOf outcome.stderr.toList).length =
    expressions.length

section Runs

open NumberType

variable (integers : Bool) (expressions : List String)

/-- The values of a run. -/
theorem stdout_evaluateAll :
    (evaluateAll integers expressions).stdout =
      unlines (expressions.filterMap (ofMode integers).valueText?) := by
  show String.join ((expressions.map (answer integers)).map valueLine) = _
  induction expressions with
  | nil => rfl
  | cons expression expressions ih =>
    rw [List.map_cons, List.map_cons, String.join_cons, ih, List.filterMap_cons, valueText?,
      answer_eq]
    cases (evaluateAs (ofMode integers).Value expression).outcome with
    | ok value => simp [Except.map, valueLine]
    | error cause => simp [Except.map, valueLine]

/-- The errors of a run. -/
theorem stderr_evaluateAll :
    (evaluateAll integers expressions).stderr =
      unlines (expressions.filterMap (ofMode integers).errorText?) := by
  show String.join ((expressions.map (answer integers)).map errorLine) = _
  induction expressions with
  | nil => rfl
  | cons expression expressions ih =>
    rw [List.map_cons, List.map_cons, String.join_cons, ih, List.filterMap_cons, errorText?,
      answer_eq]
    cases (evaluateAs (ofMode integers).Value expression).outcome with
    | ok value => simp [Except.map, errorLine]
    | error cause => simp [Except.map, errorLine]

/-- An expression has an error if its answer is a failure. -/
theorem errorText?_eq_none_iff (expression : String) :
    (ofMode integers).errorText? expression = none ↔
      ¬isFailure (answer integers expression) = true := by
  rw [errorText?, answer_eq]
  cases (evaluateAs (ofMode integers).Value expression).outcome with
  | ok value => simp [Except.map, isFailure]
  | error cause => simp [Except.map, isFailure]

/-- The code of a run. -/
theorem code_evaluateAll :
    (evaluateAll integers expressions).code =
      if (evaluateAll integers expressions).stderr = "" then 0 else 1 := by
  -- each failure puts a line on the error stream, so that the stream tells whether there is one
  have hfailure : (expressions.map (answer integers)).any isFailure = true ↔
      (evaluateAll integers expressions).stderr ≠ "" := by
    rw [stderr_evaluateAll, Ne, unlines_eq_empty_iff, List.filterMap_eq_nil_iff, List.any_map,
      List.any_eq_true]
    simp [errorText?_eq_none_iff]
  show (if (expressions.map (answer integers)).any isFailure then 1 else 0) = _
  by_cases hempty : (evaluateAll integers expressions).stderr = ""
  · rw [if_pos hempty, if_neg fun h => hfailure.mp h hempty]
  · rw [if_neg hempty, if_pos (hfailure.mpr hempty)]

/-- **A run on expressions** prints what each of them does. -/
theorem isRunOf_evaluateAll :
    (evaluateAll integers expressions).IsRunOf (ofMode integers) expressions := by
  have hvalues : ∀ text ∈ expressions.filterMap (ofMode integers).valueText?,
      IsLine text.toList := by
    intro text htext
    obtain ⟨expression, -, hexpression⟩ := List.mem_filterMap.mp htext
    exact isLine_of_valueText? hexpression
  have herrors : ∀ text ∈ expressions.filterMap (ofMode integers).errorText?,
      IsLine text.toList := by
    intro text htext
    obtain ⟨expression, -, hexpression⟩ := List.mem_filterMap.mp htext
    exact isLine_of_errorText? hexpression
  have hstdout := linesOf_unlines hvalues
  have hstderr := linesOf_unlines herrors
  rw [← stdout_evaluateAll] at hstdout
  rw [← stderr_evaluateAll] at hstderr
  exact {
    stdout_eq := stdout_evaluateAll integers expressions
    stderr_eq := stderr_evaluateAll integers expressions
    code_eq := code_evaluateAll integers expressions
    isLine_values := hvalues
    isLine_errors := herrors
    linesOf_stdout := hstdout
    linesOf_stderr := hstderr
    length_lines := by
      rw [hstdout, hstderr, List.length_map, List.length_map,
        length_valueText?_add_length_errorText?] }

/-- **What an expression prints does not depend on the others.** -/
theorem evaluateAll_eq_join :
    (evaluateAll integers expressions).stdout =
        String.join (expressions.map fun expression => (evaluateAll integers [expression]).stdout) ∧
      (evaluateAll integers expressions).stderr =
        String.join (expressions.map fun expression => (evaluateAll integers [expression]).stderr) := by
  simp [evaluateAll, report, Function.comp_def]

end Runs

/-! ## Command lines -/

/-- A command line that asks for the value of one expression. -/
def aloneWith (integers : Bool) (expression : String) : List String :=
  if integers then ["-i", "--", expression] else ["--", expression]

/-- Such a command line has this content. -/
theorem expressionMode_aloneWith (integers : Bool) (expression : String) :
    ExpressionMode integers (aloneWith integers expression) [expression] := by
  have hcontents : AreContents ["--", expression] [expression] :=
    .delimiter (List.cons_ne_nil expression [])
  cases integers with
  | false => exact .plain hcontents
  | true => exact .integers (.inl rfl) hcontents

/-- A command line that asks for expressions evaluates its contents. -/
theorem runCommand_of_expressionMode (read : Reader) {integers : Bool}
    {arguments contents : List String} (h : ExpressionMode integers arguments contents) :
    runCommand read arguments = evaluateAll integers contents := by
  rw [runCommand, Request.ofArguments_eq_evaluate_iff.mpr h]
  rfl

/-- **What a command line does that asks for expressions.** The parser takes just the command lines
for such that have no switch before the first content but that for integers, and then all arguments
from the first content on are contents, whatever they look like. The values go to the standard output
and the errors to the error stream, in order and each on a line of its own; the code says whether
there were errors. The lines of both streams number the contents, and each content has the line that
it has alone. -/
theorem runCommand_expressions (read : Reader) (integers : Bool)
    (arguments contents : List String) :
    (Request.ofArguments arguments = .evaluate ⟨false, integers⟩ contents ↔
        ExpressionMode integers arguments contents) ∧
      (ExpressionMode integers arguments contents →
        (runCommand read arguments).IsRunOf (NumberType.ofMode integers) contents ∧
          (runCommand read arguments).stdout = String.join (contents.map fun content =>
            (runCommand read (aloneWith integers content)).stdout) ∧
          (runCommand read arguments).stderr = String.join (contents.map fun content =>
            (runCommand read (aloneWith integers content)).stderr)) := by
  refine ⟨Request.ofArguments_eq_evaluate_iff, fun h => ?_⟩
  have halone : ∀ content, runCommand read (aloneWith integers content) =
      evaluateAll integers [content] :=
    fun content => runCommand_of_expressionMode read (expressionMode_aloneWith integers content)
  simp only [runCommand_of_expressionMode read h, halone]
  exact ⟨isRunOf_evaluateAll integers contents, evaluateAll_eq_join integers contents⟩

/-- After `7/2`, a switch is an expression with a character that starts no token. -/
theorem runCommand_expressions_of_switch :
    ExpressionMode true ["-i", "7/2", "--file", "-5", "1/0"] ["7/2", "--file", "-5", "1/0"] ∧
      (runCommand (Directory.read ⟨[]⟩) ["-i", "7/2", "--file", "-5", "1/0"]).stdout =
        "3\n-5\n" ∧
      (runCommand (Directory.read ⟨[]⟩) ["-i", "7/2", "--file", "-5", "1/0"]).stderr =
        "Error at position 2: Invalid character in expression: 'f'.\nError: Division by zero.\n" ∧
      (runCommand (Directory.read ⟨[]⟩) ["-i", "7/2", "--file", "-5", "1/0"]).code = 1 := by
  have hmode : ExpressionMode true ["-i", "7/2", "--file", "-5", "1/0"]
      ["7/2", "--file", "-5", "1/0"] :=
    .integers (.inl rfl) (.content (Argument.classify_eq_content_iff.mp (by decide)))
  obtain ⟨hrun, -⟩ := (runCommand_expressions (Directory.read ⟨[]⟩) true _ _).2 hmode
  refine ⟨hmode, hrun.stdout_eq.trans ?_, hrun.stderr_eq.trans ?_, hrun.code_eq.trans ?_⟩
  · decide +kernel
  · decide +kernel
  · rw [hrun.stderr_eq]
    decide +kernel

end DeskCalc
