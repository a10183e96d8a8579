import DeskCalc.CommandLine.Directory
import Mathlib.Data.List.TakeWhile

/-! # What reading a name comes to

A name is followed component by component. Some components are mere steps: they stay where they are or
lead upwards. The first one that is no step has to be a file of the directory, and nothing may come
after it.

* **`decodeText_eq_ok_iff`**, **`decodeText_eq_error_iff`** — bytes are read as the text that they
  encode.
* **`components`**, **`pathComponents_eq_splitOn`** — what stands between the slashes of a name.
* **`Directory.Reads`** — what reading a name comes to, without following it.
* **`Directory.read_eq_iff`** — following a name comes to just that. -/

namespace DeskCalc

/-! ## Bytes -/

/-- **Bytes are read as the text that they encode.** -/
theorem decodeText_eq_ok_iff {bytes : ByteArray} {text : String} :
    decodeText bytes = .ok text ↔ text.toUTF8 = bytes := by
  unfold decodeText String.fromUTF8?
  by_cases h : bytes.IsValidUTF8
  · rw [dif_pos h]
    constructor
    · intro htext
      cases htext
      rfl
    · rintro rfl
      rfl
  · rw [dif_neg h]
    constructor
    · exact nofun
    · rintro rfl
      exact absurd text.isValidUTF8 h

/-- **Bytes that encode no text** cannot be read. -/
theorem decodeText_eq_error_iff {bytes : ByteArray} {failure : ReadFailure} :
    decodeText bytes = .error failure ↔ ¬bytes.IsValidUTF8 ∧ failure = .notText := by
  unfold decodeText String.fromUTF8?
  by_cases h : bytes.IsValidUTF8
  · simp [h]
  · simp [h, eq_comm]

/-! ## Components -/

/-- The components of a name: what stands between its slashes. -/
def components (name : String) : List String :=
  (name.toList.splitOn '/').map String.ofList

/-- **The components of a path stand between its slashes.** -/
theorem pathComponents_eq_splitOn (path : List Char) : pathComponents path = path.splitOn '/' := by
  induction path with
  | nil => rfl
  | cons c path ih =>
    obtain ⟨first, more, hsplit⟩ := List.exists_cons_of_ne_nil (List.splitOn_ne_nil '/' path)
    rw [pathComponents, ih, hsplit, List.splitOn_cons_eq_if_modifyHead, hsplit]
    by_cases hc : c = '/'
    · rw [if_pos hc, if_pos (beq_iff_eq.mpr hc)]
    · rw [if_neg hc, if_neg fun h => hc (beq_iff_eq.mp h)]
      rfl

/-- **Whether a component is a mere step:** the empty one and a dot stay where they are, two dots lead
upwards. -/
def IsStep (component : String) : Prop :=
  component = "" ∨ component = "." ∨ component = ".."

instance : DecidablePred IsStep :=
  fun component => inferInstanceAs (Decidable (component = "" ∨ component = "." ∨ component = ".."))

/-- A row of components holds steps only, or there is a first one that is no step. -/
theorem isStep_or_exists (row : List String) :
    (∀ step ∈ row, IsStep step) ∨ ∃ steps component rest, row = steps ++ component :: rest ∧
      (∀ step ∈ steps, IsStep step) ∧ ¬IsStep component := by
  let isStep : String → Bool := fun component => decide (IsStep component)
  have hrow : row.takeWhile isStep ++ row.dropWhile isStep = row :=
    List.takeWhile_append_dropWhile
  have hsteps : ∀ step ∈ row.takeWhile isStep, IsStep step := by
    intro step hstep
    have hdecide : isStep step = true := List.mem_takeWhile_imp hstep
    exact of_decide_eq_true hdecide
  cases hdrop : row.dropWhile isStep with
  | nil =>
    rw [hdrop, List.append_nil] at hrow
    exact .inl (hrow ▸ hsteps)
  | cons component rest =>
    have hhead := List.head?_dropWhile_not isStep row
    rw [hdrop] at hhead
    exact .inr ⟨_, component, rest, hdrop ▸ hrow.symm, hsteps, of_decide_eq_false hhead⟩

/-! ## Names -/

/-- **Whether a name leads through steps to a component** that is none, with a rest after it. -/
structure LeadsTo (name : String) (steps : List String) (component : String) (rest : List String) :
    Prop where
  /-- The name is not empty. -/
  ne_empty : name ≠ ""
  /-- The name is not too long. -/
  short : name.utf8ByteSize < pathLimit
  /-- These are its components. -/
  components_eq : components name = steps ++ component :: rest
  /-- The first ones are steps. -/
  isStep : ∀ step ∈ steps, IsStep step
  /-- The next one is not. -/
  not_isStep : ¬IsStep component

/-- **Whether a name stays in the directory** along its steps: it does not start at the root, and no
step leads upwards. -/
def StaysInside (name : String) (steps : List String) : Prop :=
  name.toList.head? ≠ some '/' ∧ ".." ∉ steps

instance (name : String) (steps : List String) : Decidable (StaysInside name steps) :=
  inferInstanceAs (Decidable (_ ∧ _))

namespace Directory

/-- **What reading a name comes to** in a directory. -/
inductive Reads (d : Directory) (name : String) : Except ReadFailure String → Prop
  /-- The empty name is no file's. -/
  | empty : name = "" → Reads d name (.error .notFound)
  /-- A name must not be too long. -/
  | longName : pathLimit ≤ name.utf8ByteSize → Reads d name (.error .nameTooLong)
  /-- Steps alone lead to a directory. -/
  | directory : name ≠ "" → name.utf8ByteSize < pathLimit → (∀ step ∈ components name, IsStep step) →
      Reads d name (.error .isDirectory)
  /-- A component must not be too long either. -/
  | longComponent {steps : List String} {component : String} {rest : List String} :
      LeadsTo name steps component rest → componentLimit < component.utf8ByteSize →
      Reads d name (.error .nameTooLong)
  /-- Nothing is known outside of the directory. -/
  | outside {steps : List String} {component : String} {rest : List String} :
      LeadsTo name steps component rest → component.utf8ByteSize ≤ componentLimit →
      ¬StaysInside name steps → Reads d name (.error .notFound)
  /-- The directory has no such file. -/
  | missing {steps : List String} {component : String} {rest : List String} :
      LeadsTo name steps component rest → component.utf8ByteSize ≤ componentLimit →
      StaysInside name steps → d.files.lookup component = none → Reads d name (.error .notFound)
  /-- A file has nothing in it that a name could lead to. -/
  | throughFile {steps : List String} {component : String} {rest : List String} {bytes : ByteArray} :
      LeadsTo name steps component rest → component.utf8ByteSize ≤ componentLimit →
      StaysInside name steps → d.files.lookup component = some bytes → rest ≠ [] →
      Reads d name (.error .notDirectory)
  /-- The bytes of the file are not UTF-8. -/
  | notText {steps : List String} {component : String} {bytes : ByteArray} :
      LeadsTo name steps component [] → component.utf8ByteSize ≤ componentLimit →
      StaysInside name steps → d.files.lookup component = some bytes → ¬bytes.IsValidUTF8 →
      Reads d name (.error .notText)
  /-- The bytes of the file encode a text. -/
  | text {steps : List String} {component text : String} :
      LeadsTo name steps component [] → component.utf8ByteSize ≤ componentLimit →
      StaysInside name steps → d.files.lookup component = some text.toUTF8 →
      Reads d name (.ok text)

variable {d : Directory} {name : String}

/-! ## Following a name -/

/-- The place that a path is at as long as it has met no file. -/
def placeOf (inside : Prop) [Decidable inside] : Place :=
  if inside then .here else .outside

/-- A step leads out of the directory, or stays. -/
theorem enter_of_isStep {inside : Prop} [Decidable inside] {step : String} (h : IsStep step) :
    d.enter step (placeOf inside) = .ok (placeOf (inside ∧ step ≠ "..")) := by
  by_cases hinside : inside
  · rcases h with rfl | rfl | rfl <;> simp [placeOf, hinside, enter]
  · rcases h with rfl | rfl | rfl <;> simp [placeOf, hinside, enter]

/-- Any other component is looked up, if it is not too long. -/
theorem enter_of_not_isStep {inside : Prop} [Decidable inside] {component : String}
    (h : ¬IsStep component) :
    d.enter component (placeOf inside) =
      if componentLimit < component.utf8ByteSize then .error .nameTooLong
      else d.lookup component (placeOf inside) := by
  obtain ⟨hempty, hdot, hdots⟩ : component ≠ "" ∧ component ≠ "." ∧ component ≠ ".." := by
    simpa [IsStep] using h
  by_cases hinside : inside <;> simp [placeOf, hinside, enter, hempty, hdot, hdots]

/-- **Steps are followed** up to what comes after them. -/
theorem walk_steps {inside : Prop} [Decidable inside] {steps : List String}
    (h : ∀ step ∈ steps, IsStep step) (rest : List String) :
    d.walk (steps ++ rest) (placeOf inside) = d.walk rest (placeOf (inside ∧ ".." ∉ steps)) := by
  induction steps generalizing inside with
  | nil => simp [placeOf]
  | cons step steps ih =>
    obtain ⟨hstep, hsteps⟩ := List.forall_mem_cons.mp h
    rw [List.cons_append, walk, enter_of_isStep hstep]
    dsimp only
    rw [ih hsteps]
    simp [placeOf, and_assoc, eq_comm]

/-- A name that is not too long is followed through its components. -/
theorem read_of_short (hne : name ≠ "") (hshort : name.utf8ByteSize < pathLimit) :
    d.read name =
      (d.walk (components name) (placeOf (name.toList.head? ≠ some '/'))).bind Place.read := by
  have hstart : Place.start name.toList = placeOf (name.toList.head? ≠ some '/') := by
    unfold Place.start placeOf
    by_cases h : name.toList.head? = some '/' <;> simp [h]
  rw [read, if_neg hne, if_neg (Nat.not_le.mpr hshort), pathComponents_eq_splitOn, hstart, components]
  cases d.walk ((name.toList.splitOn '/').map String.ofList)
    (placeOf (name.toList.head? ≠ some '/')) <;> rfl

/-- **A name is followed from the first component on that is no step.** -/
theorem read_of_leadsTo {steps rest : List String} {component : String}
    (h : LeadsTo name steps component rest) :
    d.read name =
      (d.walk (component :: rest) (placeOf (StaysInside name steps))).bind Place.read := by
  rw [read_of_short h.ne_empty h.short, h.components_eq, walk_steps h.isStep]
  rfl

/-- **A component that is not too long is looked up**, and the rest of the name is followed from
there. -/
theorem read_of_leadsTo_of_le {steps rest : List String} {component : String}
    (h : LeadsTo name steps component rest) (hle : component.utf8ByteSize ≤ componentLimit) :
    d.read name =
      ((d.lookup component (placeOf (StaysInside name steps))).bind (d.walk rest)).bind
        Place.read := by
  rw [read_of_leadsTo h, walk, enter_of_not_isStep h.not_isStep, if_neg (Nat.not_lt.mpr hle)]
  cases d.lookup component (placeOf (StaysInside name steps)) <;> rfl

/-- **Reading a name comes to what is said of it.** -/
theorem Reads.read_eq {outcome : Except ReadFailure String} (h : d.Reads name outcome) :
    d.read name = outcome := by
  cases h with
  | empty hempty => rw [read, if_pos hempty]
  | longName hlong =>
    have hne : name ≠ "" := by
      rintro rfl
      exact absurd hlong (by decide)
    rw [read, if_neg hne, if_pos hlong]
  | directory hne hshort hsteps =>
    rw [read_of_short hne hshort, ← List.append_nil (components name), walk_steps hsteps [], walk]
    unfold placeOf
    split <;> rfl
  | longComponent hleads hlong =>
    rw [read_of_leadsTo hleads, walk, enter_of_not_isStep hleads.not_isStep, if_pos hlong]
    rfl
  | outside hleads hle houtside =>
    rw [read_of_leadsTo_of_le hleads hle, placeOf, if_neg houtside]
    rfl
  | missing hleads hle hinside hlookup =>
    rw [read_of_leadsTo_of_le hleads hle, placeOf, if_pos hinside, lookup, hlookup]
    rfl
  | throughFile hleads hle hinside hlookup hrest =>
    obtain ⟨next, rest, rfl⟩ := List.exists_cons_of_ne_nil hrest
    rw [read_of_leadsTo_of_le hleads hle, placeOf, if_pos hinside, lookup, hlookup]
    rfl
  | notText hleads hle hinside hlookup hinvalid =>
    rw [read_of_leadsTo_of_le hleads hle, placeOf, if_pos hinside, lookup, hlookup]
    exact decodeText_eq_error_iff.mpr ⟨hinvalid, rfl⟩
  | text hleads hle hinside hlookup =>
    rw [read_of_leadsTo_of_le hleads hle, placeOf, if_pos hinside, lookup, hlookup]
    exact decodeText_eq_ok_iff.mpr rfl

/-- **Something is said of each name.** -/
theorem exists_reads (d : Directory) (name : String) : ∃ outcome, d.Reads name outcome := by
  by_cases hne : name = ""
  · exact ⟨_, .empty hne⟩
  rcases Nat.lt_or_ge name.utf8ByteSize pathLimit with hshort | hlong
  · rcases isStep_or_exists (components name) with
      hsteps | ⟨steps, component, rest, hcomponents, hsteps, hcomponent⟩
    · exact ⟨_, .directory hne hshort hsteps⟩
    · have hleads : LeadsTo name steps component rest :=
        ⟨hne, hshort, hcomponents, hsteps, hcomponent⟩
      rcases Nat.lt_or_ge componentLimit component.utf8ByteSize with hlong | hle
      · exact ⟨_, .longComponent hleads hlong⟩
      by_cases hinside : StaysInside name steps
      · cases hlookup : d.files.lookup component with
        | none => exact ⟨_, .missing hleads hle hinside hlookup⟩
        | some bytes =>
          cases rest with
          | cons next rest =>
            exact ⟨_, .throughFile hleads hle hinside hlookup (List.cons_ne_nil next rest)⟩
          | nil =>
            by_cases hvalid : bytes.IsValidUTF8
            · exact ⟨.ok ⟨bytes, hvalid⟩, .text hleads hle hinside hlookup⟩
            · exact ⟨_, .notText hleads hle hinside hlookup hvalid⟩
      · exact ⟨_, .outside hleads hle hinside⟩
  · exact ⟨_, .longName hlong⟩

/-- **What reading a name comes to**, by following it or by what is said of it. -/
theorem read_eq_iff {outcome : Except ReadFailure String} :
    d.read name = outcome ↔ d.Reads name outcome := by
  refine ⟨fun h => ?_, Reads.read_eq⟩
  obtain ⟨said, hsaid⟩ := d.exists_reads name
  rw [← h, hsaid.read_eq]
  exact hsaid

end Directory

end DeskCalc
