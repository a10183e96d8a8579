import DeskCalc.Proofs.FileNames
import DeskCalc.Proofs.FileRuns

/-! # Files that cannot be read

All files are read before anything is evaluated. So if one of them cannot be read, nothing is
evaluated at all: what the run leaves behind tells the first such name and why it cannot be read, and
nothing of the files before it or of the names after it.

* **`FailsFirst`** — the first name that cannot be read, after names that can.
* **`readAll_eq_error_iff`** — it ends the reading of all files.
* **`runCommand_of_failsFirst`** — it decides what the run leaves behind.
* **`runCommand_unreadable`** — so that nothing else makes a difference. -/

namespace DeskCalc

/-- **Whether a name is the first that cannot be read,** after names that can. -/
structure FailsFirst (read : Reader) (before : List String) (name : String) (failure : ReadFailure) :
    Prop where
  /-- The names before it can be read. -/
  readable : ∀ earlier ∈ before, ∃ text, read earlier = .ok text
  /-- It cannot. -/
  read_eq : read name = .error failure

section Unreadable

variable {read : Reader} {integers : Bool} {arguments names : List String}

@[simp] theorem failsFirst_nil {name : String} {failure : ReadFailure} :
    FailsFirst read [] name failure ↔ read name = .error failure :=
  ⟨FailsFirst.read_eq, fun h => ⟨List.forall_mem_nil _, h⟩⟩

@[simp] theorem failsFirst_cons {earlier name : String} {before : List String}
    {failure : ReadFailure} :
    FailsFirst read (earlier :: before) name failure ↔
      (∃ text, read earlier = .ok text) ∧ FailsFirst read before name failure := by
  constructor
  · rintro ⟨hreadable, hname⟩
    obtain ⟨hearlier, hbefore⟩ := List.forall_mem_cons.mp hreadable
    exact ⟨hearlier, hbefore, hname⟩
  · rintro ⟨hearlier, hbefore, hname⟩
    exact ⟨List.forall_mem_cons.mpr ⟨hearlier, hbefore⟩, hname⟩

/-- **The first name that cannot be read is reported** when all files are to be read. -/
theorem readAll_eq_error_iff {name : String} {failure : ReadFailure} :
    readAll read names = .error (name, failure) ↔
      ∃ before after, names = before ++ name :: after ∧ FailsFirst read before name failure := by
  induction names with
  | nil => simp [readAll]
  | cons first names ih =>
    rw [readAll]
    cases hfirst : read first with
    | error why =>
      constructor
      · intro h
        cases h
        exact ⟨[], names, rfl, failsFirst_nil.mpr hfirst⟩
      · rintro ⟨before, after, hnames, hfails⟩
        cases before with
        | nil =>
          cases hnames
          cases hfirst.symm.trans hfails.read_eq
          rfl
        | cons earlier before =>
          cases hnames
          obtain ⟨⟨text, htext⟩, -⟩ := failsFirst_cons.mp hfails
          cases hfirst.symm.trans htext
    | ok text =>
      have hmap : (readAll read names).map (text :: ·) = .error (name, failure) ↔
          readAll read names = .error (name, failure) := by
        cases readAll read names <;> simp [Except.map]
      refine hmap.trans (ih.trans ⟨?_, ?_⟩)
      · rintro ⟨before, after, rfl, hfails⟩
        exact ⟨first :: before, after, rfl, failsFirst_cons.mpr ⟨⟨text, hfirst⟩, hfails⟩⟩
      · rintro ⟨before, after, hnames, hfails⟩
        cases before with
        | nil =>
          cases hnames
          cases hfirst.symm.trans hfails.read_eq
        | cons earlier before =>
          cases hnames
          exact ⟨before, after, rfl, (failsFirst_cons.mp hfails).2⟩

/-- Where some name cannot be read, there is a first one. -/
theorem exists_failsFirst (h : ∃ name ∈ names, ∃ failure, read name = .error failure) :
    ∃ before name after failure,
      names = before ++ name :: after ∧ FailsFirst read before name failure := by
  obtain ⟨name, hmem, failure, hname⟩ := h
  cases hread : readAll read names with
  | ok texts =>
    -- then the name at its place in the list could be read
    have hall := readAll_eq_ok_iff.mp hread
    obtain ⟨place, rfl⟩ := List.mem_iff_get.mp hmem
    have htext := hall.get place.isLt (hall.length_eq ▸ place.isLt)
    cases htext.symm.trans hname
  | error why =>
    obtain ⟨before, after, hnames, hfirst⟩ := readAll_eq_error_iff.mp hread
    exact ⟨before, why.1, after, why.2, hnames, hfirst⟩

/-- **The first name that cannot be read** decides what a run on files leaves behind. -/
theorem runCommand_of_failsFirst {before after : List String} {name : String}
    {failure : ReadFailure} (hmode : Asks ⟨true, integers⟩ arguments (before ++ name :: after))
    (hfirst : FailsFirst read before name failure) :
    runCommand read arguments =
      ⟨1, "", "Failed to read the input file '" ++ name ++ "': " ++ failure.message ++ "\n"⟩ := by
  have hread : readAll read (before ++ name :: after) = .error (name, failure) :=
    readAll_eq_error_iff.mpr ⟨before, after, rfl, hfirst⟩
  rw [runCommand_of_asks read hmode]
  show evaluateFiles read integers (before ++ name :: after) = _
  rw [evaluateFiles, hread]
  rfl

/-- **A name that cannot be read ends a run on files before anything is evaluated.** The code is 1,
nothing goes to the standard output, and the error stream tells the first such name in the order of the
arguments, and why it cannot be read. This is the same whatever the names before it are read as,
whatever names come after it, and in integers or not.

In a directory, a name cannot be read since there is no such file, since the name is empty or too long,
since it leads to a directory or through a file, or since the bytes of the file are not UTF-8. -/
theorem runCommand_unreadable (hmode : Asks ⟨true, integers⟩ arguments names)
    (hsome : ∃ name ∈ names, ∃ failure, read name = .error failure) :
    (∃ before name after failure,
      names = before ++ name :: after ∧ FailsFirst read before name failure ∧
        runCommand read arguments =
          ⟨1, "", "Failed to read the input file '" ++ name ++ "': " ++ failure.message ++ "\n"⟩ ∧
        ∀ (read' : Reader) (integers' : Bool) (arguments' after' : List String),
          Asks ⟨true, integers'⟩ arguments' (before ++ name :: after') →
          FailsFirst read' before name failure →
          runCommand read' arguments' = runCommand read arguments) ∧
      ∀ (d : Directory) (name : String) (failure : ReadFailure),
        d.read name = .error failure ↔ d.Reads name (.error failure) := by
  refine ⟨?_, fun d name failure => Directory.read_eq_iff⟩
  obtain ⟨before, name, after, failure, rfl, hfirst⟩ := exists_failsFirst hsome
  have hrun := runCommand_of_failsFirst hmode hfirst
  refine ⟨before, name, after, failure, rfl, hfirst, hrun, ?_⟩
  intro read' integers' arguments' after' hmode' hfirst'
  rw [hrun, runCommand_of_failsFirst hmode' hfirst']

/-- A file that divides by zero, and one whose last character is cut short. -/
def cutFiles : Directory :=
  ⟨[("one", "1/0".toUTF8), ("cut", ⟨#[0x31, 0x0a, 0xe2, 0x82]⟩)]⟩

/-- Neither the division by zero nor the name that no file has is reported. -/
theorem runCommand_unreadable_of_cutFiles :
    Asks ⟨true, false⟩ ["-f", "one", "cut", "none"] ["one", "cut", "none"] ∧
      (∃ name ∈ ["one", "cut", "none"], ∃ failure, cutFiles.read name = .error failure) ∧
      runCommand cutFiles.read ["-f", "one", "cut", "none"] =
        ⟨1, "", "Failed to read the input file 'cut': stream did not contain valid UTF-8\n"⟩ := by
  have hmode : Asks ⟨true, false⟩ ["-f", "one", "cut", "none"] ["one", "cut", "none"] :=
    Request.ofArguments_eq_evaluate_iff_asks.mp (by decide +kernel)
  have hsome : ∃ name ∈ ["one", "cut", "none"], ∃ failure, cutFiles.read name = .error failure :=
    ⟨"cut", by decide, .notText, by decide +kernel⟩
  refine ⟨hmode, hsome, ?_⟩
  obtain ⟨⟨before, name, after, failure, hnames, hfirst, hrun, -⟩, -⟩ :=
    runCommand_unreadable hmode hsome
  -- the name that is reported is the one that ends the reading of all files
  have hread : readAll cutFiles.read ["one", "cut", "none"] = .error (name, failure) :=
    readAll_eq_error_iff.mpr ⟨before, after, hnames, hfirst⟩
  have hcut : readAll cutFiles.read ["one", "cut", "none"] = .error ("cut", .notText) := by
    decide +kernel
  cases hread.symm.trans hcut
  exact hrun

end Unreadable

end DeskCalc
