import DeskCalc.CommandLine.Request
import Mathlib.Data.List.TakeWhile

/-! # Single arguments

What the parser takes an argument for, said by the form of the argument: switches are letters after
one hyphen or a name after two, and whatever has neither form is content.

* **`Argument.IsSwitch`** — the arguments that are no content while none has come.
* **`Switch.mapM_ofLetter?_eq_some_iff`** — letters are read as the switches that they belong to.
* **`Argument.classified_classify`** — what the parser takes an argument for, by its form.
* **`Argument.classify_eq_content_iff`** — for content just if it is no switch. -/

namespace DeskCalc

/-! ## Switches -/

/-- **Whether an argument is no content** while none has come. -/
inductive Argument.IsSwitch : List Char → Prop
  /-- The mark `--`. -/
  | delimiter : IsSwitch ['-', '-']
  /-- Letters after a hyphen, all of them those of switches. -/
  | letters {letters : List Char} :
      letters ≠ [] → (∀ c ∈ letters, c ∈ ['f', 'i', 'h', 'V']) → IsSwitch ('-' :: letters)
  /-- The name of a switch after two hyphens. -/
  | name (switch : Switch) : IsSwitch ('-' :: '-' :: switch.longName)
  /-- The name of a switch with a value. -/
  | valued (switch : Switch) (value : List Char) :
      IsSwitch ('-' :: '-' :: (switch.longName ++ '=' :: value))

namespace Switch

variable {c : Char} {switch : Switch}

/-- The letter of a switch after a single hyphen. -/
def letter : Switch → Char
  | file => 'f'
  | integer => 'i'
  | help => 'h'
  | version => 'V'

/-- Each switch has one letter. -/
theorem ofLetter?_eq_some_iff : ofLetter? c = some switch ↔ c = switch.letter := by
  constructor
  · intro h
    unfold ofLetter? at h
    split at h <;> cases h <;> rfl
  · rintro rfl
    cases switch <;> rfl

/-- The letters of switches. -/
theorem isSome_ofLetter?_iff : (ofLetter? c).isSome = true ↔ c ∈ ['f', 'i', 'h', 'V'] := by
  unfold ofLetter?
  split <;> simp_all

/-- Letters are read as switches if all of them are those of switches. -/
theorem exists_mapM_ofLetter?_iff {letters : List Char} :
    (∃ switches, letters.mapM ofLetter? = some switches) ↔
      ∀ c ∈ letters, c ∈ ['f', 'i', 'h', 'V'] := by
  induction letters with
  | nil => simp
  | cons c letters ih =>
    rw [List.forall_mem_cons, ← isSome_ofLetter?_iff, ← ih, List.mapM_cons]
    cases ofLetter? c with
    | none => simp
    | some switch => cases letters.mapM ofLetter? <;> simp

/-- **Letters are read as the switches that they are the letters of.** -/
theorem mapM_ofLetter?_eq_some_iff {letters : List Char} {switches : List Switch} :
    letters.mapM ofLetter? = some switches ↔ letters = switches.map letter := by
  induction letters generalizing switches with
  | nil => cases switches <;> simp
  | cons c letters ih =>
    rw [List.mapM_cons]
    constructor
    · intro h
      obtain ⟨switch, hswitch, h⟩ := Option.bind_eq_some_iff.mp h
      obtain ⟨more, hmore, h⟩ := Option.bind_eq_some_iff.mp h
      cases h
      rw [List.map_cons, ofLetter?_eq_some_iff.mp hswitch, ih.mp hmore]
    · intro h
      obtain ⟨switch, more, rfl, hswitch, hmore⟩ := List.map_eq_cons_iff.mp h.symm
      rw [ofLetter?_eq_some_iff.mpr hswitch.symm, ih.mpr hmore.symm]
      rfl

/-- The names of switches. -/
theorem ofLongName?_eq_some_iff {name : List Char} :
    ofLongName? name = some switch ↔ name = switch.longName := by
  constructor
  · intro h
    have hfound := List.find?_some h
    exact (beq_iff_eq.mp hfound).symm
  · rintro rfl
    cases switch <;> rfl

/-- No name of a switch has an equals sign. -/
theorem ne_equals_of_mem_longName : ∀ c ∈ switch.longName, (c != '=') = true :=
  List.all_eq_true.mp (by cases switch <;> rfl)

end Switch

namespace Argument

/-! ## Single arguments -/

/-- **What an argument is taken for**, by its form. -/
inductive Classified : List Char → Argument → Prop
  /-- Two hyphens alone are the mark. -/
  | delimiter : Classified ['-', '-'] .delimiter
  /-- The name of a switch is that switch. -/
  | name (switch : Switch) : Classified ('-' :: '-' :: switch.longName) (.switches [switch])
  /-- The name of a switch with a value is misused. -/
  | valued (switch : Switch) (value : List Char) :
      Classified ('-' :: '-' :: (switch.longName ++ '=' :: value)) .valuedSwitch
  /-- Letters of switches are these switches. -/
  | letters {letters : List Char} {first : Switch} {more : List Switch} :
      letters.mapM Switch.ofLetter? = some (first :: more) →
      Classified ('-' :: letters) (.switches (first :: more))
  /-- All else is content. -/
  | content {argument : List Char} : ¬IsSwitch argument → Classified argument .content

variable {letters name argument : List Char}

/-- An argument with one hyphen has letters of switches only, or is content. -/
theorem classified_classifyShort (h : ∀ name, letters ≠ '-' :: name) :
    Classified ('-' :: letters) (classifyShort letters) := by
  unfold classifyShort
  split
  · rename_i hletters
    exact .letters hletters
  · rename_i hletters
    refine .content fun hswitch => ?_
    cases hswitch with
    | delimiter => exact h _ rfl
    | letters hne hknown =>
      obtain ⟨switches, hswitches⟩ := Switch.exists_mapM_ofLetter?_iff.mpr hknown
      cases switches with
      | nil => exact hne (Switch.mapM_ofLetter?_eq_some_iff.mp hswitches)
      | cons first more => exact hletters first more hswitches
    | name switch => exact h _ rfl
    | valued switch value => exact h _ rfl

/-- What stands before an equals sign is the first part of the name. -/
theorem takeWhile_ne_equals {before value : List Char} (h : ∀ c ∈ before, (c != '=') = true) :
    (before ++ '=' :: value).takeWhile (· != '=') = before := by
  rw [List.takeWhile_append_of_pos h, List.takeWhile_cons_of_neg (by decide), List.append_nil]

/-- An argument gives a switch a value if the name of the switch stands before its first equals
sign. -/
theorem contains_and_isSome_iff :
    (name.contains '=' && (Switch.ofLongName? (name.takeWhile (· != '='))).isSome) = true ↔
      ∃ (switch : Switch) (value : List Char), name = switch.longName ++ '=' :: value := by
  rw [Bool.and_eq_true, List.contains_iff_mem, Option.isSome_iff_exists]
  constructor
  · rintro ⟨hequals, switch, hswitch⟩
    obtain ⟨before, value, rfl, hbefore⟩ := List.eq_append_cons_of_mem hequals
    have hne : ∀ c ∈ before, (c != '=') = true :=
      fun c hc => bne_iff_ne.mpr fun heq => hbefore (heq ▸ hc)
    rw [takeWhile_ne_equals hne] at hswitch
    exact ⟨switch, value, by rw [← Switch.ofLongName?_eq_some_iff.mp hswitch]⟩
  · rintro ⟨switch, value, rfl⟩
    rw [takeWhile_ne_equals Switch.ne_equals_of_mem_longName]
    exact ⟨by simp, switch, Switch.ofLongName?_eq_some_iff.mpr rfl⟩

/-- An argument with two hyphens is the name of a switch, with a value or without, or is content. -/
theorem classified_classifyLong (h : name ≠ []) :
    Classified ('-' :: '-' :: name) (classifyLong name) := by
  unfold classifyLong
  split
  · rename_i switch hswitch
    obtain rfl := Switch.ofLongName?_eq_some_iff.mp hswitch
    exact .name switch
  · rename_i hnone
    split
    · rename_i hvalued
      obtain ⟨switch, value, rfl⟩ := contains_and_isSome_iff.mp hvalued
      exact .valued switch value
    · rename_i hvalued
      refine .content fun hswitch => ?_
      cases hswitch with
      | delimiter => exact h rfl
      | letters _ hknown => exact absurd (hknown '-' List.mem_cons_self) (by decide)
      | name switch =>
        rw [Switch.ofLongName?_eq_some_iff.mpr rfl] at hnone
        cases hnone
      | valued switch value => exact hvalued (contains_and_isSome_iff.mpr ⟨switch, value, rfl⟩)

/-- **The parser takes each argument for what its form says.** -/
theorem classified_classify (argument : List Char) : Classified argument (classify argument) := by
  unfold classify
  split
  · exact .delimiter
  · rename_i name hne
    exact classified_classifyLong fun hnil => hne (hnil ▸ rfl)
  · rename_i letters _ hlong
    exact classified_classifyShort hlong
  · rename_i hhyphen
    refine .content fun hswitch => ?_
    cases hswitch with
    | delimiter => exact hhyphen _ rfl
    | letters _ _ => exact hhyphen _ rfl
    | name switch => exact hhyphen _ rfl
    | valued switch value => exact hhyphen _ rfl

/-- **The parser takes an argument for content** just if it is no switch. -/
theorem classify_eq_content_iff : classify argument = content ↔ ¬IsSwitch argument := by
  have hclassified := classified_classify argument
  constructor
  · intro h
    rw [h] at hclassified
    cases hclassified with
    | content hargument => exact hargument
  · intro h
    generalize classify argument = kind at hclassified
    cases hclassified with
    | delimiter => exact absurd .delimiter h
    | name switch => exact absurd (.name switch) h
    | valued switch value => exact absurd (.valued switch value) h
    | letters hletters =>
      refine absurd (.letters ?_ (Switch.exists_mapM_ofLetter?_iff.mp ⟨_, hletters⟩)) h
      rintro rfl
      cases hletters
    | content _ => rfl

end Argument

end DeskCalc
