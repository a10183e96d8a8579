import DeskCalc.Proofs.ExpressionRuns

/-! # What a run on files prints

With files, the expressions are their lines that show something, one file after the other. So a run on
files prints what a run on these expressions prints; and it does not depend on how the lines are ended
and on how they are spread over the files, since what an expression prints does not depend on carriage
returns after its last token.

* **`readAll_eq_ok_iff`** — all files are read if each of them can be.
* **`writtenExpressions`** — the expressions that texts hold.
* **`answer_stripReturns`** — the answer to a line without the carriage returns at its end.
* **`runCommand_files`** — a run on files is a run on the expressions that they hold.
* **`runCommand_files_layout`** — and is the same for other line ends, and for one file that holds all
  the lines. -/

namespace DeskCalc

/-! ## Reading -/

section Reading

variable {read : Reader} {names texts : List String}

/-- **All files are read** if each of them can be. -/
theorem readAll_eq_ok_iff :
    readAll read names = .ok texts ↔
      List.Forall₂ (fun name text => read name = .ok text) names texts := by
  induction names generalizing texts with
  | nil =>
    rw [readAll, List.forall₂_nil_left_iff, Except.ok.injEq, eq_comm]
  | cons name names ih =>
    rw [readAll, List.forall₂_cons_left_iff]
    cases hname : read name with
    | error failure => simp
    | ok text =>
      simp only [Except.ok.injEq]
      constructor
      · intro h
        cases hnames : readAll read names with
        | error failure =>
          rw [hnames] at h
          cases h
        | ok more =>
          rw [hnames] at h
          cases h
          exact ⟨text, more, rfl, ih.mp hnames, rfl⟩
      · rintro ⟨_, more, rfl, hmore, rfl⟩
        rw [ih.mpr hmore]
        rfl

end Reading

/-! ## Expressions -/

/-- **The expressions that texts hold:** their lines that show something, one text after the other. -/
def writtenExpressions (texts : List String) : List String :=
  ((texts.flatMap fun text => feedLines text.toList).filter fun line => decide (Shows line)).map
    String.ofList

/-- The expressions of texts are those that they hold. -/
theorem flatMap_expressionsOf (texts : List String) :
    texts.flatMap expressionsOf = writtenExpressions texts := by
  have hshows : (fun line : List Char => !isBlank line) = fun line => decide (Shows line) := by
    funext line
    rw [Bool.eq_iff_iff, Bool.not_eq_true', ← Bool.not_eq_true, isBlank_eq_true_iff, not_not,
      decide_eq_true_eq]
  have htext : expressionsOf = fun text =>
      ((feedLines text.toList).filter fun line => decide (Shows line)).map String.ofList := by
    funext text
    rw [expressionsOf, linesOf_eq_feedLines, hshows]
  rw [htext, writtenExpressions, List.filter_flatMap, List.map_flatMap]

/-- The answer to an expression is that to its lexemes. -/
theorem answer_congr (integers : Bool) {expression expression' : String}
    (h : Lexeme.scan expression = Lexeme.scan expression') :
    answer integers expression = answer integers expression' := by
  rw [answer_eq, answer_eq, outcome_evaluateAs_congr h]

/-- **The answer to a line does not depend on carriage returns at its end.** -/
theorem answer_stripReturns (integers : Bool) (line : List Char) :
    answer integers (String.ofList (stripReturns line)) =
      answer integers (String.ofList line) := by
  obtain ⟨returns, hreturns, hline⟩ := exists_stripReturns_append line
  have hgap : Piece.IsGap returns := fun c hc => hreturns c hc ▸ rfl
  refine answer_congr integers ?_
  rw [congrArg String.ofList hline, Lexeme.scan_append_gap hgap]

/-- The answers to what a text shows. -/
def shownAnswers (integers : Bool) (text : String) : List (Except EvalError String) :=
  (shownLines text.toList).map fun line => answer integers (String.ofList line)

/-- **The answers to the expressions of a text** are those to what it shows. -/
theorem map_answer_expressionsOf (integers : Bool) (text : String) :
    (expressionsOf text).map (answer integers) = shownAnswers integers text := by
  rw [shownAnswers, ← map_stripReturns_linesOf, expressionsOf, List.map_map, List.map_map]
  exact List.map_congr_left fun line _ => (answer_stripReturns integers line).symm

/-- The style of line ends makes no difference to the answers. -/
theorem shownAnswers_withReturns (integers : Bool) (text : String) :
    shownAnswers integers (String.ofList (withReturns text.toList)) = shownAnswers integers text := by
  rw [shownAnswers, String.toList_ofList, shownLines_withReturns, ← shownAnswers]

/-- Texts that are joined with line feeds have the answers of each of them. -/
theorem shownAnswers_intercalate (integers : Bool) (texts : List String) :
    shownAnswers integers ("\n".intercalate texts) = texts.flatMap (shownAnswers integers) := by
  have hlines := shownLines_intercalate (texts.map String.toList)
  rw [shownAnswers, String.toList_intercalate]
  show (shownLines (['\n'].intercalate (texts.map String.toList))).map _ = _
  rw [hlines, List.flatMap_map, List.map_flatMap]
  rfl

/-! ## Command lines -/

/-- A command line does what it asks for. -/
theorem runCommand_of_asks (read : Reader) {options : Options} {arguments contents : List String}
    (h : Asks options arguments contents) :
    runCommand read arguments = (Request.evaluate options contents).run read := by
  rw [runCommand, Request.ofArguments_eq_evaluate_iff_asks.mpr h]

section Files

variable {read : Reader} {integers : Bool} {arguments names texts : List String}

/-- A run on files that can be read is a run on their expressions. -/
theorem runCommand_of_reads (hmode : Asks ⟨true, integers⟩ arguments names)
    (hread : List.Forall₂ (fun name text => read name = .ok text) names texts) :
    runCommand read arguments = evaluateAll integers (texts.flatMap expressionsOf) := by
  rw [runCommand_of_asks read hmode]
  show evaluateFiles read integers names = _
  rw [evaluateFiles, readAll_eq_ok_iff.mpr hread]

/-- A run on files that can be read reports the answers to what they show. -/
theorem runCommand_eq_report (hmode : Asks ⟨true, integers⟩ arguments names)
    (hread : List.Forall₂ (fun name text => read name = .ok text) names texts) :
    runCommand read arguments = report (texts.flatMap (shownAnswers integers)) := by
  rw [runCommand_of_reads hmode hread, evaluateAll, List.map_flatMap]
  simp only [map_answer_expressionsOf]

/-- **A run on files is a run on the expressions that they hold:** on the lines that show something, of
one file after the other. It leaves behind what the command line without the switch for files leaves
behind for these expressions; and if there are none, it prints nothing and succeeds. The switches may
be spelled in any way, and the names may follow the mark `--` or not. -/
theorem runCommand_files (hmode : Asks ⟨true, integers⟩ arguments names)
    (hread : List.Forall₂ (fun name text => read name = .ok text) names texts) :
    (writtenExpressions texts ≠ [] → runCommand read arguments =
        runCommand read (commandLine ⟨false, integers⟩ (writtenExpressions texts))) ∧
      (writtenExpressions texts = [] → runCommand read arguments = ⟨0, "", ""⟩) := by
  rw [runCommand_of_reads hmode hread, flatMap_expressionsOf]
  constructor
  · intro hsome
    rw [runCommand_of_asks read (Request.asks_commandLine ⟨false, integers⟩ hsome)]
    rfl
  · intro hnone
    rw [hnone]
    rfl

/-- Two files with three expressions. One is written in two styles of line ends and has a blank line;
the other starts with a blank line and does not end its last one. -/
def twoFiles : Directory :=
  ⟨[("one", "1/2\r\n\n-5".toUTF8), ("two", "\u3000\n7/0\r".toUTF8)]⟩

/-- Both files can be read. -/
theorem read_twoFiles : List.Forall₂ (fun name text => twoFiles.read name = .ok text)
    ["one", "two"] ["1/2\r\n\n-5", "\u3000\n7/0\r"] :=
  .cons (by decide +kernel) (.cons (by decide +kernel) .nil)

/-- What a run on both files leaves behind, in integers. -/
theorem runCommand_twoFiles :
    runCommand twoFiles.read ["-fi", "one", "two"] =
      ⟨1, "0\n-5\n", "Error: Division by zero.\n"⟩ := by
  decide +kernel

/-- The expressions are `1/2`, `-5`, which is no option, and `7/0` with a carriage return. -/
theorem runCommand_files_of_twoFiles :
    Asks ⟨true, true⟩ ["-fi", "one", "two"] ["one", "two"] ∧
      List.Forall₂ (fun name text => twoFiles.read name = .ok text)
        ["one", "two"] ["1/2\r\n\n-5", "\u3000\n7/0\r"] ∧
      runCommand twoFiles.read ["-fi", "one", "two"] =
        runCommand twoFiles.read ["-i", "--", "1/2", "-5", "7/0\r"] ∧
      runCommand twoFiles.read ["-fi", "one", "two"] =
        ⟨1, "0\n-5\n", "Error: Division by zero.\n"⟩ := by
  have hmode : Asks ⟨true, true⟩ ["-fi", "one", "two"] ["one", "two"] :=
    Request.ofArguments_eq_evaluate_iff_asks.mp (by decide +kernel)
  have hwritten : writtenExpressions ["1/2\r\n\n-5", "\u3000\n7/0\r"] = ["1/2", "-5", "7/0\r"] := by
    decide +kernel
  have hrun := (runCommand_files hmode read_twoFiles).1
  rw [hwritten] at hrun
  exact ⟨hmode, read_twoFiles, hrun (List.cons_ne_nil _ _), runCommand_twoFiles⟩

/-- **A run on files does not depend on the layout of their lines.** It leaves behind the same with a
carriage return before each line feed of any of the files, also where there was one before, and with
one file that holds the texts of all of them, joined with a line feed. -/
theorem runCommand_files_layout (hmode : Asks ⟨true, integers⟩ arguments names)
    (hread : List.Forall₂ (fun name text => read name = .ok text) names texts) :
    (∀ (read' : Reader) (texts' : List String),
        List.Forall₂ (fun name text => read' name = .ok text) names texts' →
        List.Forall₂ (fun text text' => text' = text ∨
          text' = String.ofList (withReturns text.toList)) texts texts' →
        runCommand read' arguments = runCommand read arguments) ∧
      ∀ (read' : Reader) (arguments' : List String) (name : String),
        Asks ⟨true, integers⟩ arguments' [name] →
        read' name = .ok ("\n".intercalate texts) →
        runCommand read' arguments' = runCommand read arguments := by
  constructor
  · intro read' texts' hread' hends
    have hanswers : texts'.flatMap (shownAnswers integers) =
        texts.flatMap (shownAnswers integers) := by
      clear hread hread'
      induction hends with
      | nil => rfl
      | cons htext _ ih =>
        rw [List.flatMap_cons, List.flatMap_cons, ih]
        rcases htext with rfl | rfl
        · rfl
        · rw [shownAnswers_withReturns]
    rw [runCommand_eq_report hmode hread', runCommand_eq_report hmode hread, hanswers]
  · intro read' arguments' name hmode' hname
    have hread' : List.Forall₂ (fun name text => read' name = .ok text) [name]
        ["\n".intercalate texts] := .cons hname .nil
    rw [runCommand_eq_report hmode' hread', runCommand_eq_report hmode hread,
      List.flatMap_singleton, shownAnswers_intercalate]

/-- Carriage returns come and go, and one file may hold all the lines. -/
theorem runCommand_files_layout_of_twoFiles :
    Asks ⟨true, true⟩ ["-fi", "one", "two"] ["one", "two"] ∧
      List.Forall₂ (fun name text => twoFiles.read name = .ok text)
        ["one", "two"] ["1/2\r\n\n-5", "\u3000\n7/0\r"] ∧
      runCommand (Directory.read
          ⟨[("one", "1/2\r\r\n\r\n-5".toUTF8), ("two", "\u3000\n7/0\r".toUTF8)]⟩)
          ["-fi", "one", "two"] =
        runCommand twoFiles.read ["-fi", "one", "two"] ∧
      runCommand (Directory.read ⟨[("all", "1/2\r\n\n-5\n\u3000\n7/0\r".toUTF8)]⟩)
          ["-i", "--file", "all"] =
        runCommand twoFiles.read ["-fi", "one", "two"] ∧
      runCommand twoFiles.read ["-fi", "one", "two"] =
        ⟨1, "0\n-5\n", "Error: Division by zero.\n"⟩ := by
  have hmode : Asks ⟨true, true⟩ ["-fi", "one", "two"] ["one", "two"] :=
    Request.ofArguments_eq_evaluate_iff_asks.mp (by decide +kernel)
  obtain ⟨hends, hjoined⟩ := runCommand_files_layout hmode read_twoFiles
  refine ⟨hmode, read_twoFiles, hends _ ["1/2\r\r\n\r\n-5", "\u3000\n7/0\r"] ?_ ?_,
    hjoined _ _ "all" ?_ ?_, runCommand_twoFiles⟩
  · exact .cons (by decide +kernel) (.cons (by decide +kernel) .nil)
  · exact .cons (.inr (by decide +kernel)) (.cons (.inl rfl) .nil)
  · exact Request.ofArguments_eq_evaluate_iff_asks.mp (by decide +kernel)
  · decide +kernel

end Files

end DeskCalc
