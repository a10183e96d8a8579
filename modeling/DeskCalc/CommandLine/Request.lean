/-! # Command-line arguments

Switches come first and contents after them: from the first argument on that is no switch, every
argument is content, whatever it looks like.

* **`Switch`** — what a switch asks for, with its letter and its long name.
* **`Argument.classify`** — what an argument is, before the first content.
* **`Request.ofArguments`** — what a whole command line asks for.
* **`Request.ofArguments_append`** — what is asked for before all else stays asked for. -/

namespace DeskCalc

/-! ## Switches -/

/-- **What a switch asks for.** -/
inductive Switch where
  /-- The contents name files that hold the expressions. -/
  | file
  /-- Calculate in integers. -/
  | integer
  /-- Explain the command line. -/
  | help
  /-- Name the version. -/
  | version
  deriving DecidableEq, Repr

namespace Switch

/-- The switch of a letter after a single hyphen. -/
def ofLetter? : Char → Option Switch
  | 'f' => some file
  | 'i' => some integer
  | 'h' => some help
  | 'V' => some version
  | _ => none

/-- The name of a switch after two hyphens. -/
def longName : Switch → List Char
  | file => "file".toList
  | integer => "integer".toList
  | help => "help".toList
  | version => "version".toList

/-- The switch of a long name. -/
def ofLongName? (name : List Char) : Option Switch :=
  [file, integer, help, version].find? fun switch => switch.longName == name

end Switch

/-! ## Single arguments -/

/-- **What an argument is** while no content has come. -/
inductive Argument where
  /-- One switch or more, in order. -/
  | switches (switches : List Switch)
  /-- A switch that is given a value, though none takes one. -/
  | valuedSwitch
  /-- The mark `--`, after which all is content. -/
  | delimiter
  /-- Content. -/
  | content
  deriving DecidableEq, Repr

namespace Argument

/-- What an argument with two leading hyphens is. Only whole names of switches count; a name may be
followed by an equals sign and a value. -/
def classifyLong (name : List Char) : Argument :=
  match Switch.ofLongName? name with
  | some switch => switches [switch]
  | none =>
      if name.contains '=' && (Switch.ofLongName? (name.takeWhile (· != '='))).isSome then
        valuedSwitch
      else content

/-- What an argument with one leading hyphen is. It is content unless all its letters are known. -/
def classifyShort (letters : List Char) : Argument :=
  match letters.mapM Switch.ofLetter? with
  | some (first :: more) => switches (first :: more)
  | _ => content

/-- **What an argument is.** -/
def classify : List Char → Argument
  | ['-', '-'] => delimiter
  | '-' :: '-' :: name => classifyLong name
  | '-' :: letters => classifyShort letters
  | _ => content

end Argument

/-! ## Whole command lines -/

/-- What the switches before the contents choose. -/
structure Options where
  /-- Whether the contents name files. -/
  files : Bool
  /-- Whether to calculate in integers. -/
  integers : Bool
  deriving DecidableEq, Repr

/-- **What a command line asks for.** -/
inductive Request where
  /-- To explain the command line. -/
  | help
  /-- To name the version. -/
  | version
  /-- Nothing: the command line is misused. -/
  | misuse
  /-- To evaluate the contents. -/
  | evaluate (options : Options) (contents : List String)
  deriving DecidableEq, Repr

namespace Request

/-- Turns switches on, one after the other. Some of them settle the request at once; a switch must
not be turned on twice. -/
def turnOn : Options → List Switch → Except Request Options
  | options, [] => .ok options
  | options, .file :: more =>
      if options.files then .error misuse else turnOn { options with files := true } more
  | options, .integer :: more =>
      if options.integers then .error misuse else turnOn { options with integers := true } more
  | _, .help :: _ => .error help
  | _, .version :: _ => .error version

/-- The request to evaluate contents. There must be some. -/
def ofContents (options : Options) (contents : List String) : Request :=
  if contents.isEmpty then misuse else evaluate options contents

/-- What the arguments ask for after some switches. -/
def ofArgumentsFrom (options : Options) : List String → Request
  | [] => misuse
  | argument :: rest =>
      match Argument.classify argument.toList with
      | .switches switches =>
          match turnOn options switches with
          | .ok options => ofArgumentsFrom options rest
          | .error request => request
      | .valuedSwitch => misuse
      | .delimiter => ofContents options rest
      | .content => evaluate options (argument :: rest)

/-- **What a command line asks for.** -/
def ofArguments (arguments : List String) : Request :=
  ofArgumentsFrom ⟨false, false⟩ arguments

/-! ## Settled requests -/

/-- Arguments that ask for an explanation or for the version do so after any switches, and whatever
comes after them. -/
theorem ofArgumentsFrom_append {options : Options} {arguments : List String}
    (h : ofArgumentsFrom options arguments = help ∨ ofArgumentsFrom options arguments = version)
    (more : List String) :
    ofArgumentsFrom options (arguments ++ more) = ofArgumentsFrom options arguments := by
  induction arguments generalizing options with
  | nil => simp [ofArgumentsFrom] at h
  | cons argument rest ih =>
    rw [List.cons_append]
    unfold ofArgumentsFrom at h ⊢
    cases hkind : Argument.classify argument.toList with
    | switches switches =>
      cases hswitches : turnOn options switches with
      | ok next =>
        simp only [hkind, hswitches] at h ⊢
        exact ih h
      | error request => simp only [hswitches]
    | valuedSwitch => rfl
    | delimiter =>
      -- what follows the mark is evaluated, or missing
      simp only [hkind, ofContents] at h
      split at h <;> simp at h
    | content => simp [hkind] at h

/-- **What asks for an explanation or for the version** asks for it whatever comes after. -/
theorem ofArguments_append {arguments : List String}
    (h : ofArguments arguments = help ∨ ofArguments arguments = version) (more : List String) :
    ofArguments (arguments ++ more) = ofArguments arguments :=
  ofArgumentsFrom_append h more

end Request

end DeskCalc
