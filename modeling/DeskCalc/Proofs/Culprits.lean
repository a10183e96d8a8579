import DeskCalc.Proofs.DivisionByZero
import DeskCalc.Proofs.Literals

/-! # What an error points at

An operator or a parenthesis may wait for long before it is found at fault. Its entry on the stack
still names its own lexeme then, and what may come next is told by the last lexemes alone, whether
the text is an expression or not. So every error points at the lexeme that is to blame for it.

* **`Workspace.Tracks`**, **`Workspace.tracks_of_run`** — what a state says about the lexemes before
  it.
* **`Breaks`** — the lexemes that break the alternation of operands and operators.
* **`LiteralIn`** — the literals of a text, with the signs that belong to them.
* **`IsCulprit`**, **`isCulprit_of_evaluateLexemes`** — the lexemes that are to blame, for each kind
  of error.
* **`evaluateAs_blames`** — all of it, for whole texts. -/

namespace DeskCalc

/-! ## Lexemes to blame -/

/-- **Whether lexemes end with the sign of a literal** that is still to come: with a minus where an
operand may start. -/
def EndsWithSign (lexemes : List Lexeme) (minus : Nat) : Prop :=
  ∃ before, lexemes = before ++ [⟨.operator .sub, minus⟩] ∧ ¬Completed before

/-- Only a minus can be a sign. -/
theorem not_endsWithSign_concat {lexemes : List Lexeme} {lexeme : Lexeme}
    (h : lexeme.token ≠ .operator .sub) (minus : Nat) :
    ¬EndsWithSign (lexemes ++ [lexeme]) minus := by
  rintro ⟨before, htext, -⟩
  have hlast := List.append_inj_right' htext rfl
  rw [List.singleton_inj] at hlast
  exact h (congrArg Lexeme.token hlast)

/-- After an operand, no minus is a sign. -/
theorem Completed.not_endsWithSign_concat {lexemes : List Lexeme} (h : Completed lexemes)
    (lexeme : Lexeme) (minus : Nat) : ¬EndsWithSign (lexemes ++ [lexeme]) minus := by
  rintro ⟨before, htext, hcompleted⟩
  exact hcompleted (List.append_inj_left' htext rfl ▸ h)

/-- **Whether a lexeme breaks the alternation of operands and operators**, between those before it
and those after it, and the error that reports this. -/
inductive Breaks (before : List Lexeme) : Lexeme → List Lexeme → ParseError → Prop
  /-- An operand starts directly after an operand. -/
  | missingOperator {token : Token} {position : Nat} {after : List Lexeme} :
      Completed before → token.isNumber = true ∨ token = .leftParen →
      Breaks before ⟨token, position⟩ after (.missingOperator position)
  /-- A minus stands where an operand may start, and no literal follows it. -/
  | danglingMinus {position : Nat} {after : List Lexeme} :
      ¬Completed before → (∀ next ∈ after.head?, next.token.isNumber = false) →
      Breaks before ⟨.operator .sub, position⟩ after (.danglingMinus position)
  /-- Another operator stands where an operand may start. -/
  | missingOperand {op : Operator} {position : Nat} {after : List Lexeme} :
      ¬Completed before → op ≠ .sub →
      Breaks before ⟨.operator op, position⟩ after (.missingOperand op.symbol position)

/-- **The literals of a row of lexemes, as they are read:** each one with the sign that belongs to
it, at the place where it starts. -/
inductive LiteralIn (lexemes : List Lexeme) : String → Nat → Prop
  /-- A literal without a sign. -/
  | unsigned {before after : List Lexeme} {text : String} {position : Nat} :
      lexemes = before ++ ⟨.number text, position⟩ :: after →
      (∀ minus, ¬EndsWithSign before minus) → LiteralIn lexemes text position
  /-- A literal directly after its sign, which stands where an operand may start. -/
  | signed {before after : List Lexeme} {text : String} {minus position : Nat} :
      lexemes = before ++ ⟨.operator .sub, minus⟩ :: ⟨.number text, position⟩ :: after →
      ¬Completed before → LiteralIn lexemes ("-" ++ text) minus

variable (α : Type) [Numeric α]

/-- **Whether the lexeme that an error points at is to blame for it.** -/
def IsCulprit (lexemes : List Lexeme) : ParseError → Prop
  | .invalidNumber literal position =>
      LiteralIn lexemes literal position ∧
        (readNumber literal 0 : Except ParseError α) = .error (.invalidNumber literal 0)
  | .invalidCharacter _ _ => False
  | .mismatchedParenthesis position =>
      ⟨.leftParen, position⟩ ∈ lexemes ∨ ⟨.rightParen, position⟩ ∈ lexemes
  | .emptyExpression => True
  | .danglingMinus position =>
      ∃ before lexeme after, lexemes = before ++ lexeme :: after ∧
        Breaks before lexeme after (.danglingMinus position)
  | .missingOperand symbol position =>
      ∃ op : Operator, op.symbol = symbol ∧ ⟨.operator op, position⟩ ∈ lexemes
  | .missingOperator position =>
      ∃ before lexeme after, lexemes = before ++ lexeme :: after ∧
        Breaks before lexeme after (.missingOperator position)

variable {α}

/-- What breaks the alternation is to blame for it. -/
theorem Breaks.isCulprit {before after : List Lexeme} {lexeme : Lexeme} {cause : ParseError}
    (h : Breaks before lexeme after cause) :
    IsCulprit α (before ++ lexeme :: after) cause := by
  cases h with
  | missingOperator hcompleted hoperand =>
    exact ⟨_, _, _, rfl, .missingOperator hcompleted hoperand⟩
  | danglingMinus hdue hnext => exact ⟨_, _, _, rfl, .danglingMinus hdue hnext⟩
  | missingOperand _ _ => exact ⟨_, rfl, List.mem_append_right _ List.mem_cons_self⟩

/-- A literal without a value is to blame for that. -/
theorem LiteralIn.isCulprit {lexemes : List Lexeme} {literal : String} {position : Nat}
    {cause : ParseError} (h : LiteralIn lexemes literal position)
    (hvalue : (readNumber literal position : Except ParseError α) = .error cause) :
    IsCulprit α lexemes cause := by
  obtain rfl := eq_invalidNumber_of_readNumber hvalue
  refine ⟨h, ?_⟩
  -- where the literal stands makes no difference to its value
  cases hzero : (readNumber literal 0 : Except ParseError α) with
  | error why => rw [eq_invalidNumber_of_readNumber hzero]
  | ok value =>
    obtain ⟨n, hn⟩ := readNumber_ok_iff.mp hzero
    rw [readNumber_ok_iff.mpr ⟨n, hn⟩] at hvalue
    cases hvalue

/-- What breaks the alternation is what the error points at. -/
theorem Breaks.position?_eq {before after : List Lexeme} {lexeme : Lexeme} {cause : ParseError}
    (h : Breaks before lexeme after cause) : cause.position? = some lexeme.position := by
  cases h <;> rfl

/-- A literal starts at one of the lexemes. -/
theorem LiteralIn.exists_lexeme {lexemes : List Lexeme} {literal : String} {position : Nat}
    (h : LiteralIn lexemes literal position) : ∃ lexeme ∈ lexemes, lexeme.position = position := by
  cases h with
  | unsigned htext _ =>
    rw [htext]
    exact ⟨_, List.mem_append_right _ List.mem_cons_self, rfl⟩
  | signed htext _ =>
    rw [htext]
    exact ⟨_, List.mem_append_right _ List.mem_cons_self, rfl⟩

/-- **An error that points anywhere points at one of the lexemes.** -/
theorem IsCulprit.exists_lexeme {lexemes : List Lexeme} {cause : ParseError}
    (h : IsCulprit α lexemes cause) :
    ∀ position ∈ cause.position?, ∃ lexeme ∈ lexemes, lexeme.position = position := by
  have hbroken : ∀ {why : ParseError}, (∃ before lexeme after, lexemes = before ++ lexeme :: after ∧
      Breaks before lexeme after why) →
        ∀ position ∈ why.position?, ∃ lexeme ∈ lexemes, lexeme.position = position := by
    rintro why ⟨before, lexeme, after, rfl, hbreaks⟩ position hposition
    rw [hbreaks.position?_eq] at hposition
    cases hposition
    exact ⟨lexeme, List.mem_append_right _ List.mem_cons_self, rfl⟩
  intro position hposition
  match cause, h with
  | .emptyExpression, _ => cases hposition
  | .invalidNumber _ _, ⟨hliteral, _⟩ =>
    cases hposition
    exact hliteral.exists_lexeme
  | .mismatchedParenthesis _, h =>
    cases hposition
    rcases h with hmem | hmem
    · exact ⟨_, hmem, rfl⟩
    · exact ⟨_, hmem, rfl⟩
  | .missingOperand _ _, ⟨_, _, hmem⟩ =>
    cases hposition
    exact ⟨_, hmem, rfl⟩
  | .danglingMinus _, h => exact hbroken h position hposition
  | .missingOperator _, h => exact hbroken h position hposition

/-! ## States and the lexemes before them -/

/-- The lexeme that waits. -/
def Held.lexeme : Held → Lexeme
  | operator op position => ⟨.operator op, position⟩
  | paren position => ⟨.leftParen, position⟩

/-- **Whether the last lexemes tell what may come next.** -/
def Expecting.Follows (lexemes : List Lexeme) : Expecting → Prop
  | .operand => ¬Completed lexemes ∧ ∀ minus, ¬EndsWithSign lexemes minus
  | .literal minus => EndsWithSign lexemes minus
  | .operator => Completed lexemes

namespace Workspace

/-- **What a state says about the lexemes before it:** their last ones tell what may come next, and
what waits are some of them, the latest on top. -/
structure Tracks (lexemes : List Lexeme) (w : Workspace α) : Prop where
  /-- The last lexemes tell what may come next. -/
  follows : w.expecting.Follows lexemes
  /-- What waits are some of the lexemes, in the order of the text. -/
  sublist : (w.held.map Held.lexeme).reverse.Sublist lexemes

namespace Tracks

variable {before after : List Lexeme} {lexeme : Lexeme} {w : Workspace α}

omit [Numeric α] in
/-- Before the first lexeme, an operand may start, and nothing waits. -/
theorem empty : Tracks [] (Workspace.empty : Workspace α) where
  follows := by
    refine ⟨?_, fun minus => ?_⟩
    · rintro ⟨_, hlast, -⟩
      cases hlast
    · rintro ⟨before, htext, -⟩
      cases before <;> cases htext
  sublist := .slnil

omit [Numeric α] in
/-- What waits has been read. -/
theorem mem (h : Tracks before w) {entry : Held} (hentry : entry ∈ w.held) :
    entry.lexeme ∈ before :=
  h.sublist.subset (List.mem_reverse.mpr (List.mem_map_of_mem hentry))

omit [Numeric α] in
/-- Fewer entries are in the order of the text as well. -/
theorem sublist_of_suffix (h : Tracks before w) {held : List Held} (hheld : held <:+ w.held) :
    (held.map Held.lexeme).reverse.Sublist before :=
  (hheld.map Held.lexeme).sublist.reverse.trans h.sublist

/-- **Every step keeps track of the text.** -/
theorem step {w' : Workspace α} (h : Tracks before w) (hstep : Steps w lexeme w') :
    Tracks (before ++ [lexeme]) w' := by
  have hkept : ∀ {held : List Held}, held <:+ w.held →
      (held.map Held.lexeme).reverse.Sublist (before ++ [lexeme]) := fun hheld =>
    (h.sublist_of_suffix hheld).trans (List.sublist_append_left before [lexeme])
  -- an entry that is added is the last lexeme
  have hadded : ∀ {held : List Held} {entry : Held}, held <:+ w.held → entry.lexeme = lexeme →
      ((entry :: held).map Held.lexeme).reverse.Sublist (before ++ [lexeme]) := by
    intro held entry hheld hentry
    rw [List.map_cons, List.reverse_cons, hentry]
    exact (h.sublist_of_suffix hheld).append (.refl _)
  cases hstep with
  | literal _ => exact ⟨completed_concat.mpr rfl, hkept List.suffix_rfl⟩
  | sign => exact ⟨⟨before, rfl, h.follows.1⟩, hkept List.suffix_rfl⟩
  | negative _ => exact ⟨completed_concat.mpr rfl, hkept List.suffix_rfl⟩
  | opening =>
    refine ⟨⟨fun hcompleted => ?_, not_endsWithSign_concat Token.noConfusion⟩,
      hadded List.suffix_rfl rfl⟩
    cases completed_concat.mp hcompleted
  | operator hunwinds =>
    refine ⟨⟨fun hcompleted => ?_, Completed.not_endsWithSign_concat h.follows _⟩,
      hadded hunwinds.suffix rfl⟩
    cases completed_concat.mp hcompleted
  | closing _ hunwinds =>
    exact ⟨completed_concat.mpr rfl, hkept ((List.suffix_cons _ _).trans hunwinds.suffix)⟩

end Tracks

/-- **Every state that is reached keeps track of the text.** -/
theorem tracks_of_run {lexemes : List Lexeme} {w : Workspace α}
    (hrun : (Workspace.empty.run lexemes).outcome = .ok w) : Tracks lexemes w :=
  run_induction Tracks.empty (fun _ _ _ _ htracks hstep => htracks.step hstep) hrun

/-! ## Errors and the lexemes that they point at -/

variable {lexemes before after : List Lexeme} {lexeme : Lexeme} {w : Workspace α}
  {cause : ParseError}

/-- What unwinding reports for the text is an operator that has waited. -/
theorem UnwindFails.exists_operator {strength : Nat} {held : List Held} {values : List α}
    (h : UnwindFails strength held values (.parse cause)) :
    ∃ op position, .operator op position ∈ held ∧ cause = .missingOperand op.symbol position := by
  generalize hwhy : EvalError.parse cause = why at h
  induction h with
  | here _ happly =>
    subst hwhy
    rcases applyOperator_error_iff.mp happly with ⟨_, _, _, _, -, -, hruntime⟩ | ⟨-, hparse⟩
    · cases hruntime
    · cases hparse
      exact ⟨_, _, List.mem_cons_self, rfl⟩
  | later _ _ _ ih =>
    obtain ⟨op, position, hmem, hcause⟩ := ih hwhy
    exact ⟨op, position, List.mem_cons_of_mem _ hmem, hcause⟩

/-- An operator that waits is to blame if it lacks an operand. -/
theorem Tracks.isCulprit_of_unwindFails (h : Tracks before w) {strength : Nat}
    (hfails : UnwindFails strength w.held w.values (.parse cause)) (after : List Lexeme) :
    IsCulprit α (before ++ after) cause := by
  obtain ⟨op, position, hmem, rfl⟩ := hfails.exists_operator
  exact ⟨op, rfl, List.mem_append_left _ (h.mem hmem)⟩

/-- **A step that fails for the text** points at the lexeme that is to blame. -/
theorem Tracks.isCulprit_of_stepFails (h : Tracks before w)
    (hfails : StepFails w lexeme (.parse cause)) (after : List Lexeme) :
    IsCulprit α (before ++ lexeme :: after) cause := by
  cases hfails with
  | literal hvalue => exact LiteralIn.isCulprit (.unsigned rfl h.follows.2) hvalue
  | negative hvalue =>
    obtain ⟨earlier, rfl, hdue⟩ := h.follows
    exact LiteralIn.isCulprit (.signed (List.append_cons ..).symm hdue) hvalue
  | sign hnumber =>
    obtain ⟨earlier, rfl, hdue⟩ := h.follows
    rw [← List.append_cons]
    refine (Breaks.danglingMinus hdue fun next hnext => ?_).isCulprit
    cases hnext
    exact hnumber
  | operand hop => exact (Breaks.missingOperand h.follows.1 hop).isCulprit
  | operator hoperand => exact (Breaks.missingOperator h.follows hoperand).isCulprit
  | unwinding hunwind => exact h.isCulprit_of_unwindFails hunwind _
  | closing _ hunwind => exact h.isCulprit_of_unwindFails hunwind _
  | unmatched _ _ => exact .inr (List.mem_append_right _ List.mem_cons_self)

/-- **An end that fails for the text** points at the lexeme that is to blame. -/
theorem Tracks.isCulprit_of_finishFails (h : Tracks lexemes w)
    (hfails : FinishFails w (.parse cause)) : IsCulprit α lexemes cause := by
  cases hfails with
  | @sign _ _ minus =>
    obtain ⟨earlier, rfl, hdue⟩ := h.follows
    have hbreaks : Breaks earlier ⟨.operator .sub, minus⟩ [] (.danglingMinus minus) :=
      .danglingMinus hdue fun _ hnext => nomatch hnext
    exact hbreaks.isCulprit
  | unwinding _ hunwind =>
    have hculprit := h.isCulprit_of_unwindFails hunwind []
    rwa [List.append_nil] at hculprit
  | unclosed _ hunwinds => exact .inl (h.mem (hunwinds.suffix.subset List.mem_cons_self))
  | empty _ _ => trivial

end Workspace

/-- **Lexemes that fail for the text** point at the one that is to blame. -/
theorem isCulprit_of_evaluateLexemes {lexemes : List Lexeme} {cause : ParseError}
    (h : (evaluateLexemes lexemes : Evaluation α α).outcome = .error (.parse cause)) :
    IsCulprit α lexemes cause := by
  rcases Workspace.evaluateLexemes_error_iff.mp h with
    ⟨before, lexeme, after, w, rfl, hrun, hfails⟩ | ⟨w, hrun, hfails⟩
  · exact (Workspace.tracks_of_run hrun).isCulprit_of_stepFails hfails after
  · exact (Workspace.tracks_of_run hrun).isCulprit_of_finishFails hfails

/-! ## Whole texts -/

/-- **Whether a character of a text starts at a byte offset.** -/
def IsOffset (source : String) (position : Nat) : Prop :=
  ∃ before c after, source.toList = before ++ c :: after ∧
    (String.ofList before).utf8ByteSize = position

namespace Lexeme

/-- The text of a lexeme stands among those of its pieces, as many bytes on as its position says. -/
theorem exists_text_of_place {pieces : List Piece} {start : Nat} :
    ∀ lexeme ∈ Piece.place start pieces, ∃ before after,
      Piece.charsOf pieces = before ++ lexeme.token.text.toList ++ after ∧
        lexeme.position = start + (String.ofList before).utf8ByteSize := by
  induction pieces generalizing start with
  | nil => exact List.forall_mem_nil _
  | cons piece pieces ih =>
    refine List.forall_mem_cons.mpr ⟨⟨[], piece.gap ++ Piece.charsOf pieces, ?_, rfl⟩, ?_⟩
    · rw [Piece.charsOf_cons, List.nil_append]
    · intro lexeme hlexeme
      obtain ⟨before, after, htext, hposition⟩ := ih lexeme hlexeme
      refine ⟨piece.chars ++ before, after, ?_, ?_⟩
      · rw [Piece.charsOf, List.flatMap_cons, ← Piece.charsOf, htext]
        simp only [List.append_assoc]
      · rw [hposition, String.ofList_append, String.utf8ByteSize_append, Nat.add_assoc]

/-- **Each lexeme stands in the text** at the byte offset of its first character. -/
theorem isOffset_of_scan {source : String} {lexemes : List Lexeme}
    (h : scan source = .ok lexemes) : ∀ lexeme ∈ lexemes, IsOffset source lexeme.position := by
  intro lexeme hlexeme
  obtain ⟨lead, pieces, hlead, hpieces, hsource, rfl⟩ := isRendering_of_scanFrom h
  obtain ⟨before, after, htext, hposition⟩ := exists_text_of_place lexeme hlexeme
  obtain ⟨c, rest, hc⟩ :=
    List.exists_cons_of_ne_nil (wellFormed_of_scan h lexeme hlexeme).text_ne_nil
  refine ⟨lead ++ before, c, rest ++ after, ?_, ?_⟩
  · rw [hsource, htext, hc]
    simp
  · rw [hposition, String.ofList_append, String.utf8ByteSize_append,
      utf8ByteSize_of_isAllowed hlead.isAllowed, Nat.zero_add]

/-- A text that does not split into lexemes has a first character that is not allowed. -/
theorem exists_of_scan_error {source : String} {why : ParseError} (h : scan source = .error why) :
    ∃ before c after, source.toList = before ++ c :: after ∧ ¬Token.IsAllowed c ∧
      why = .invalidCharacter c (String.ofList before).utf8ByteSize := by
  obtain ⟨before, c, after, hsource, hbefore, hc⟩ :=
    Token.exists_first_not_isAllowed (exists_scan_error_iff.mp ⟨why, h⟩)
  rw [scan, hsource, scanFrom_of_not_isAllowed hbefore hc, Nat.zero_add] at h
  cases h
  exact ⟨before, c, after, hsource, hc, rfl⟩

end Lexeme

variable (α) in
/-- **Whether an error points at what is to blame for it in a text:** at a character that starts no
token, or at one of the lexemes. -/
def Blames (source : String) : ParseError → Prop
  | .invalidCharacter character position =>
      (∃ before after, source.toList = before ++ character :: after ∧
        (String.ofList before).utf8ByteSize = position) ∧
      ∀ token : Token, token.WellFormed → token.text.toList.head? ≠ some character
  | cause => ∃ lexemes, Lexeme.scan source = .ok lexemes ∧ IsCulprit α lexemes cause

/-- **Every error points at the real culprit.** Its position is the byte offset of a character, and
there stands what the error says: a character that starts no token; a literal, with its sign, that
is not read; the operator that lacks an operand; an operand directly after an operand; a minus that
is no sign of a literal where an operand may start; a parenthesis. -/
theorem evaluateAs_blames {source : String} {cause : ParseError}
    (h : (evaluateAs α source).outcome = .error (.parse cause)) :
    (∀ position ∈ cause.position?, IsOffset source position) ∧ Blames α source cause := by
  cases hscan : Lexeme.scan source with
  | error why =>
    rw [outcome_evaluateAs_of_error hscan] at h
    cases h
    obtain ⟨before, c, after, hsource, hc, rfl⟩ := Lexeme.exists_of_scan_error hscan
    refine ⟨fun position hposition => ?_, ⟨before, after, hsource, rfl⟩,
      fun token htoken hhead => ?_⟩
    · cases hposition
      exact ⟨before, c, after, hsource, rfl⟩
    · exact hc (htoken.isAllowed c (List.mem_of_mem_head? hhead))
  | ok lexemes =>
    rw [outcome_evaluateAs hscan] at h
    have hculprit := isCulprit_of_evaluateLexemes h
    refine ⟨fun position hposition => ?_, ?_⟩
    · obtain ⟨lexeme, hlexeme, rfl⟩ := hculprit.exists_lexeme position hposition
      exact Lexeme.isOffset_of_scan hscan lexeme hlexeme
    · cases cause with
      | invalidCharacter _ _ => exact hculprit.elim
      | _ => exact ⟨lexemes, hscan, hculprit⟩

/-- In `1 + - 1.2.3` the literal is reported with its sign, at the place of the sign. -/
theorem evaluateAs_blames_signed_literal :
    (evaluateAs Integer64 "1 + - 1.2.3").outcome =
        .error (.parse (.invalidNumber "-1.2.3" 4)) ∧
      Blames Integer64 "1 + - 1.2.3" (.invalidNumber "-1.2.3" 4) := by
  have h : (evaluateAs Integer64 "1 + - 1.2.3").outcome =
      .error (.parse (.invalidNumber "-1.2.3" 4)) := by decide +kernel
  exact ⟨h, (evaluateAs_blames h).2⟩

end DeskCalc
