import DeskCalc.Proofs.Arguments
import Mathlib.Data.List.Perm.Basic

/-! # What command lines ask for

Which command lines evaluate their contents, and what the contents are, said without the parser:
switches come first, in any order and in any spelling, and each of them is given once. The first
content may look like anything but a switch, unless the mark `--` stands before it.

* **`Asks`** — the command lines that ask to evaluate contents under given options.
* **`Request.turnOn_eq_ok_iff`** — which switches lead from options to others.
* **`Request.ofArguments_eq_evaluate_iff_asks`** — the parser takes just these for such.
* **`Request.asks_commandLine`** — one that asks for given contents under given options.
* **`ExpressionMode`**, **`Request.ofArguments_eq_evaluate_iff`** — those that ask for the values of
  expressions, one by one. -/

namespace DeskCalc

/-! ## Command lines -/

/-- **Whether arguments are contents,** once the switches are through: the first of them is no switch,
or the mark comes before them and is dropped. -/
inductive AreContents : List String → List String → Prop
  /-- The first content is no switch; what comes after it may look like anything. -/
  | content {first : String} {rest : List String} :
      ¬Argument.IsSwitch first.toList → AreContents (first :: rest) (first :: rest)
  /-- All after the mark is content. -/
  | delimiter {contents : List String} : contents ≠ [] → AreContents ("--" :: contents) contents

/-- **How an argument gives switches:** by their letters after one hyphen, or by the name of one after
two. -/
inductive Switch.Spell : List Switch → List Char → Prop
  /-- Letters after a hyphen. -/
  | letters {switches : List Switch} :
      switches ≠ [] → Spell switches ('-' :: switches.map letter)
  /-- A name after two hyphens. -/
  | name (switch : Switch) : Spell [switch] ('-' :: '-' :: switch.longName)

/-- **Whether a command line asks for the values of expressions,** in integers or not: there may be
one switch, which asks for integers, and then there are contents. -/
inductive ExpressionMode : Bool → List String → List String → Prop
  /-- There is no switch. -/
  | plain {arguments contents : List String} :
      AreContents arguments contents → ExpressionMode false arguments contents
  /-- There is the switch for integers. -/
  | integers {switch : String} {arguments contents : List String} :
      switch = "-i" ∨ switch = "--integer" → AreContents arguments contents →
      ExpressionMode true (switch :: arguments) contents

/-- **What a command line is made of:** arguments that give switches, one after the other, and then
contents. -/
inductive ConsistsOf : List String → List Switch → List String → Prop
  /-- The contents, after all switches. -/
  | contents {arguments contents : List String} :
      AreContents arguments contents → ConsistsOf arguments [] contents
  /-- An argument that gives switches, before all else. -/
  | switches {argument : String} {arguments contents : List String} {first more : List Switch} :
      Switch.Spell first argument.toList → ConsistsOf arguments more contents →
      ConsistsOf (argument :: arguments) (first ++ more) contents

/-- The switches that options are chosen by. -/
def Options.switches (options : Options) : List Switch :=
  (if options.files then [.file] else []) ++ if options.integers then [.integer] else []

/-- **Whether a command line asks to evaluate contents under options:** its switches are those of the
options, each given once and in any order. -/
def Asks (options : Options) (arguments contents : List String) : Prop :=
  ∃ switches, ConsistsOf arguments switches contents ∧ switches.Perm options.switches

/-- **A command line that asks to evaluate contents under options:** the switches one by one, the mark,
and the contents. -/
def commandLine (options : Options) (contents : List String) : List String :=
  (options.switches.map fun switch => String.ofList ['-', switch.letter]) ++ "--" :: contents

/-! ## Switches and contents -/

/-- Switches are given by one argument at least, which is not empty. -/
theorem Switch.Spell.ne_nil {switches : List Switch} {argument : List Char}
    (h : Spell switches argument) : switches ≠ [] := by
  cases h with
  | letters hne => exact hne
  | name switch => exact List.cons_ne_nil switch []

/-- Two arguments ask for integers and for nothing else. -/
theorem Switch.spell_integer_iff {argument : String} :
    Spell [integer] argument.toList ↔ argument = "-i" ∨ argument = "--integer" := by
  constructor
  · intro h
    generalize hchars : argument.toList = chars at h
    cases h with
    | letters hne => exact .inl (String.toList_inj.mp hchars)
    | name switch => exact .inr (String.toList_inj.mp hchars)
  · rintro (rfl | rfl)
    · exact .letters (List.cons_ne_nil integer [])
    · exact .name integer

/-- The parser takes an argument for the switches that it gives. -/
theorem Argument.classify_of_spell {switches : List Switch} {argument : List Char}
    (h : Switch.Spell switches argument) : classify argument = .switches switches := by
  cases h with
  | name switch => cases switch <;> rfl
  | @letters switches hne =>
    obtain ⟨first, more, rfl⟩ := List.exists_cons_of_ne_nil hne
    have hletters : ((first :: more).map Switch.letter).mapM Switch.ofLetter? =
        some (first :: more) := Switch.mapM_ofLetter?_eq_some_iff.mpr rfl
    -- no letter of a switch is a hyphen, so that the argument has one hyphen only
    have hshort : classify ('-' :: (first :: more).map Switch.letter) =
        classifyShort ((first :: more).map Switch.letter) := by
      cases first <;> rfl
    rw [hshort, classifyShort, hletters]

namespace Request

variable {options result : Options} {arguments contents : List String}

/-- Switches are turned on piece by piece. -/
theorem turnOn_append (options : Options) (first more : List Switch) :
    turnOn options (first ++ more) = turnOn options first >>= fun next => turnOn next more := by
  induction first generalizing options with
  | nil => rfl
  | cons switch first ih =>
    cases switch with
    | file | integer =>
      rw [List.cons_append, turnOn, turnOn]
      split
      · rfl
      · exact ih _
    | help | version => rfl

/-- Options are chosen by each switch once at most. -/
theorem nodup_switches (options : Options) : options.switches.Nodup := by
  obtain ⟨files, integers⟩ := options
  cases files <;> cases integers <;> decide

/-- Options are chosen by two switches only. -/
theorem eq_of_mem_switches {switch : Switch} (h : switch ∈ options.switches) :
    switch = .file ∨ switch = .integer := by
  obtain ⟨files, integers⟩ := options
  cases files <;> cases integers <;> simp_all [Options.switches]

/-- A switch that is turned on already cannot be turned on again. -/
theorem not_perm_of_mem {switch : Switch} {switches : List Switch}
    (h : switch ∈ options.switches) :
    ¬(switch :: switches ++ options.switches).Perm result.switches := by
  intro hperm
  have hnodup := hperm.nodup_iff.mpr (nodup_switches result)
  exact (List.nodup_cons.mp hnodup).1 (List.mem_append_right switches h)

/-- **Switches can be turned on to reach options** if they are those that are missing, in any order. -/
theorem turnOn_eq_ok_iff {switches : List Switch} :
    turnOn options switches = .ok result ↔
      (switches ++ options.switches).Perm result.switches := by
  induction switches generalizing options with
  | nil =>
    obtain ⟨files, integers⟩ := options
    obtain ⟨files', integers'⟩ := result
    cases files <;> cases integers <;> cases files' <;> cases integers' <;>
      simp [turnOn, Options.switches]
  | cons switch switches ih =>
    have hperm : ∀ next : Options, (switches ++ next.switches).Perm
        (switch :: switches ++ options.switches) →
          (turnOn next switches = .ok result ↔
            (switch :: switches ++ options.switches).Perm result.switches) :=
      fun next hnext => ih.trans (hnext.congr_left result.switches)
    obtain ⟨files, integers⟩ := options
    cases switch with
    | file =>
      cases files with
      | false => exact hperm ⟨true, integers⟩ List.perm_middle
      | true =>
        refine iff_of_false nofun (not_perm_of_mem ?_)
        exact List.mem_append_left _ List.mem_cons_self
    | integer =>
      cases integers with
      | false =>
        refine hperm ⟨files, true⟩ ?_
        rw [Options.switches, ← List.append_assoc]
        refine (List.perm_append_singleton _ _).trans ?_
        simp [Options.switches]
      | true =>
        refine iff_of_false nofun (not_perm_of_mem ?_)
        exact List.mem_append_right _ List.mem_cons_self
    | help | version =>
      refine iff_of_false nofun fun h => ?_
      have hmem := eq_of_mem_switches (h.mem_iff.mp List.mem_cons_self)
      simp at hmem

/-- No switch asks for an evaluation by itself. -/
theorem turnOn_ne_evaluate {switches : List Switch} :
    turnOn options switches ≠ .error (.evaluate result contents) := by
  induction switches generalizing options with
  | nil => exact nofun
  | cons switch switches ih =>
    cases switch with
    | file | integer =>
      rw [turnOn]
      split
      · exact nofun
      · exact ih
    | help | version => exact nofun

/-- **Contents are evaluated as they are.** -/
theorem ofArgumentsFrom_of_areContents (h : AreContents arguments contents) :
    ofArgumentsFrom options arguments = .evaluate options contents := by
  cases h with
  | content hfirst =>
    rw [ofArgumentsFrom, Argument.classify_eq_content_iff.mpr hfirst]
  | delimiter hcontents =>
    rw [ofArgumentsFrom]
    show ofContents options contents = _
    rw [ofContents, if_neg (by simpa using hcontents)]

/-- **Switches are turned on before contents are evaluated.** -/
theorem ofArgumentsFrom_of_consistsOf {switches : List Switch}
    (h : ConsistsOf arguments switches contents) (hresult : turnOn options switches = .ok result) :
    ofArgumentsFrom options arguments = .evaluate result contents := by
  induction h generalizing options with
  | contents hcontents =>
    cases hresult
    exact ofArgumentsFrom_of_areContents hcontents
  | @switches argument _ _ first more hspell _ ih =>
    rw [turnOn_append] at hresult
    cases hfirst : turnOn options first with
    | error request =>
      rw [hfirst] at hresult
      cases hresult
    | ok next =>
      rw [hfirst] at hresult
      rw [ofArgumentsFrom, Argument.classify_of_spell hspell]
      simp only [hfirst]
      exact ih hresult

/-- **Switches are turned on before what comes after them is evaluated.** -/
theorem exists_turnOn_of_switches {argument : String} {rest : List String} {first : List Switch}
    (hkind : Argument.classify argument.toList = .switches first)
    (h : ofArgumentsFrom options (argument :: rest) = .evaluate result contents) :
    ∃ next, turnOn options first = .ok next ∧
      ofArgumentsFrom next rest = .evaluate result contents := by
  rw [ofArgumentsFrom, hkind] at h
  dsimp only at h
  cases hfirst : turnOn options first with
  | error request =>
    rw [hfirst] at h
    exact absurd (hfirst.trans (congrArg _ h)) turnOn_ne_evaluate
  | ok next =>
    rw [hfirst] at h
    exact ⟨next, rfl, h⟩

/-- **What is evaluated is made of switches and contents.** -/
theorem exists_consistsOf (h : ofArgumentsFrom options arguments = .evaluate result contents) :
    ∃ switches, ConsistsOf arguments switches contents ∧ turnOn options switches = .ok result := by
  induction arguments generalizing options with
  | nil => cases h
  | cons argument rest ih =>
    have hswitches : ∀ {first : List Switch}, Switch.Spell first argument.toList →
        ∃ switches, ConsistsOf (argument :: rest) switches contents ∧
          turnOn options switches = .ok result := by
      intro first hspell
      obtain ⟨next, hfirst, hnext⟩ :=
        exists_turnOn_of_switches (Argument.classify_of_spell hspell) h
      obtain ⟨more, hmore, hresult⟩ := ih hnext
      refine ⟨first ++ more, .switches hspell hmore, ?_⟩
      rw [turnOn_append, hfirst]
      exact hresult
    rw [ofArgumentsFrom] at h
    have hclassified := Argument.classified_classify argument.toList
    generalize hchars : argument.toList = chars at h hclassified hswitches
    generalize Argument.classify chars = kind at h hclassified
    cases hclassified with
    | delimiter =>
      -- what follows the mark is taken as it is, and must not be empty
      obtain rfl : argument = "--" := String.toList_inj.mp hchars
      change ofContents options rest = _ at h
      unfold ofContents at h
      split at h
      · cases h
      · rename_i hsome
        cases h
        exact ⟨[], .contents (.delimiter fun hnil => hsome (List.isEmpty_iff.mpr hnil)), rfl⟩
    | name switch => exact hswitches (.name switch)
    | valued switch value => cases h
    | @letters letters first more hletters =>
      obtain rfl := Switch.mapM_ofLetter?_eq_some_iff.mp hletters
      exact hswitches (.letters (List.cons_ne_nil first more))
    | content hargument =>
      cases h
      exact ⟨[], .contents (.content (hchars ▸ hargument)), rfl⟩

/-- **The command lines that ask to evaluate contents** are just those that are made of the switches of
the options, each given once, and the contents. -/
theorem ofArguments_eq_evaluate_iff_asks :
    ofArguments arguments = .evaluate options contents ↔ Asks options arguments contents := by
  have hnone : ∀ {switches : List Switch}, turnOn ⟨false, false⟩ switches = .ok options ↔
      switches.Perm options.switches := by
    intro switches
    rw [turnOn_eq_ok_iff]
    show (switches ++ []).Perm _ ↔ _
    rw [List.append_nil]
  constructor
  · intro h
    obtain ⟨switches, hconsists, hresult⟩ := exists_consistsOf h
    exact ⟨switches, hconsists, hnone.mp hresult⟩
  · rintro ⟨switches, hconsists, hperm⟩
    exact ofArgumentsFrom_of_consistsOf hconsists (hnone.mpr hperm)

/-- Without switches, a command line is made of its contents. -/
theorem areContents_of_consistsOf (h : ConsistsOf arguments [] contents) :
    AreContents arguments contents := by
  generalize hnil : [] = switches at h
  cases h with
  | contents hcontents => exact hcontents
  | switches hspell _ => exact absurd (List.append_eq_nil_iff.mp hnil.symm).1 hspell.ne_nil

/-- One switch is given by one argument, and the contents follow. -/
theorem exists_spell_of_consistsOf {switch : Switch} (h : ConsistsOf arguments [switch] contents) :
    ∃ argument rest, arguments = argument :: rest ∧ Switch.Spell [switch] argument.toList ∧
      AreContents rest contents := by
  generalize hone : [switch] = switches at h
  cases h with
  | contents _ => cases hone
  | switches hspell hmore =>
    rcases List.append_eq_singleton_iff.mp hone.symm with ⟨rfl, -⟩ | ⟨rfl, rfl⟩
    · exact absurd rfl hspell.ne_nil
    · exact ⟨_, _, rfl, hspell, areContents_of_consistsOf hmore⟩

/-- The command line that gives the switches one by one asks for what it shows. -/
theorem asks_commandLine (options : Options) (h : contents ≠ []) :
    Asks options (commandLine options contents) contents := by
  refine ⟨options.switches, ?_, .refl _⟩
  unfold commandLine
  induction options.switches with
  | nil => exact .contents (.delimiter h)
  | cons switch switches ih =>
    have hspell : Switch.Spell [switch] (String.ofList ['-', switch.letter]).toList := by
      rw [String.toList_ofList]
      exact .letters (List.cons_ne_nil switch [])
    exact .switches hspell ih

/-- To evaluate expressions, there is no switch, or one for integers. -/
theorem asks_iff_expressionMode {integers : Bool} :
    Asks ⟨false, integers⟩ arguments contents ↔ ExpressionMode integers arguments contents := by
  constructor
  · rintro ⟨switches, hconsists, hperm⟩
    cases integers with
    | false =>
      obtain rfl := hperm.eq_nil
      exact .plain (areContents_of_consistsOf hconsists)
    | true =>
      obtain rfl := List.perm_singleton.mp hperm
      obtain ⟨switch, rest, rfl, hspell, hcontents⟩ := exists_spell_of_consistsOf hconsists
      exact .integers (Switch.spell_integer_iff.mp hspell) hcontents
  · intro h
    cases h with
    | plain hcontents => exact ⟨[], .contents hcontents, .nil⟩
    | integers hswitch hcontents =>
      exact ⟨_, .switches (Switch.spell_integer_iff.mpr hswitch) (.contents hcontents), .refl _⟩

/-- **The command lines that ask for the values of expressions** are just those with no other switch
than that for integers, once at most, before the first content. -/
theorem ofArguments_eq_evaluate_iff {integers : Bool} :
    ofArguments arguments = .evaluate ⟨false, integers⟩ contents ↔
      ExpressionMode integers arguments contents :=
  ofArguments_eq_evaluate_iff_asks.trans asks_iff_expressionMode

end Request

end DeskCalc
