import DeskCalc.Proofs.Culprits
import Mathlib.Algebra.Ring.Int.Defs

/-! # Parentheses and their partners

Open parentheses wait on one stack with the operators. Read alone, they are the stack by which
parentheses find their partners, in any text at all: an expression or not.

* **`Matched`** — the rows of lexemes in which every parenthesis has a partner.
* **`HasLeftPartner`**, **`HasRightPartner`** — whether a parenthesis at the end of a row, or at its
  start, has its partner there: with a matched row between the two.
* **`depth`** — opening parentheses less closing ones, which tells that a partner is missing.
* **`LeavesOpen`**, **`Workspace.leavesOpen_of_run`** — the open parentheses of a row, which are
  those that wait.
* **`TellsParens`** — what an error tells about the parentheses.
* **`evaluateAs_mismatchedParenthesis`** — the parenthesis that is reported: the first closing one
  without a partner, or else the last opening one. -/

namespace DeskCalc

/-! ## Partners -/

/-- **The rows of lexemes in which every parenthesis has a partner.** -/
inductive Matched : List Lexeme → Prop
  /-- An empty row. -/
  | nil : Matched []
  /-- A lexeme that is no parenthesis, and a matched row. -/
  | other {lexeme : Lexeme} {lexemes : List Lexeme} :
      lexeme.token ≠ .leftParen → lexeme.token ≠ .rightParen → Matched lexemes →
      Matched (lexeme :: lexemes)
  /-- Two parentheses around a matched row, and another one. -/
  | pair {inside after : List Lexeme} {left right : Nat} :
      Matched inside → Matched after →
      Matched (⟨.leftParen, left⟩ :: inside ++ ⟨.rightParen, right⟩ :: after)

/-- **Whether a closing parenthesis directly after these lexemes has a partner** among them. -/
def HasLeftPartner (before : List Lexeme) : Prop :=
  ∃ earlier inside left, before = earlier ++ ⟨.leftParen, left⟩ :: inside ∧ Matched inside

/-- **Whether an opening parenthesis directly before these lexemes has a partner** among them. -/
def HasRightPartner (after : List Lexeme) : Prop :=
  ∃ inside later right, after = inside ++ ⟨.rightParen, right⟩ :: later ∧ Matched inside

/-- Whether all closing parentheses have partners. -/
def ClosesPaired (lexemes : List Lexeme) : Prop :=
  ∀ before position after, lexemes = before ++ ⟨.rightParen, position⟩ :: after →
    HasLeftPartner before

/-- Whether all opening parentheses have partners. -/
def OpensPaired (lexemes : List Lexeme) : Prop :=
  ∀ before position after, lexemes = before ++ ⟨.leftParen, position⟩ :: after →
    HasRightPartner after

/-- **The first closing parenthesis without a partner.** -/
def FirstUnpairedRight (lexemes : List Lexeme) (position : Nat) : Prop :=
  ∃ before after, lexemes = before ++ ⟨.rightParen, position⟩ :: after ∧
    ¬HasLeftPartner before ∧ ClosesPaired before

/-- **The last opening parenthesis without a partner.** -/
def LastUnpairedLeft (lexemes : List Lexeme) (position : Nat) : Prop :=
  ∃ before after, lexemes = before ++ ⟨.leftParen, position⟩ :: after ∧
    ¬HasRightPartner after ∧ OpensPaired after

variable {lexemes before after : List Lexeme} {lexeme : Lexeme}

/-- More lexemes before do not part partners. -/
theorem HasLeftPartner.append_left (h : HasLeftPartner before) (earlier : List Lexeme) :
    HasLeftPartner (earlier ++ before) := by
  obtain ⟨first, inside, left, rfl, hinside⟩ := h
  exact ⟨earlier ++ first, inside, left, (List.append_assoc ..).symm, hinside⟩

/-- More lexemes after do not part partners. -/
theorem HasRightPartner.append_right (h : HasRightPartner after) (later : List Lexeme) :
    HasRightPartner (after ++ later) := by
  obtain ⟨inside, rest, right, rfl, hinside⟩ := h
  exact ⟨inside, rest ++ later, right, List.append_assoc .., hinside⟩

/-- Two rows that close nothing but what they have opened, one after the other. -/
theorem ClosesPaired.append (hbefore : ClosesPaired before) (hafter : ClosesPaired after) :
    ClosesPaired (before ++ after) := by
  intro earlier position later htext
  rcases List.append_eq_append_iff.mp htext with ⟨tail, hearlier, htail⟩ | ⟨tail, hbefore', htail⟩
  · rw [hearlier]
    exact (hafter tail position later htail).append_left before
  · cases tail with
    | nil =>
      have hpartner := (hafter [] position later htail.symm).append_left before
      rwa [hbefore', List.append_nil, List.append_nil] at hpartner
    | cons closing tail =>
      cases htail
      exact hbefore earlier position tail hbefore'

/-- Two rows that close what they have opened, one after the other. -/
theorem OpensPaired.append (hbefore : OpensPaired before) (hafter : OpensPaired after) :
    OpensPaired (before ++ after) := by
  intro earlier position later htext
  rcases List.append_eq_append_iff.mp htext with ⟨tail, -, htail⟩ | ⟨tail, hbefore', htail⟩
  · exact hafter tail position later htail
  · cases tail with
    | nil => exact hafter [] position later htail.symm
    | cons opening tail =>
      cases htail
      exact (hbefore earlier position tail hbefore').append_right after

/-- A single lexeme closes nothing, unless it is a closing parenthesis. -/
theorem closesPaired_singleton (h : lexeme.token ≠ .rightParen) : ClosesPaired [lexeme] := by
  intro earlier position later htext
  have hmem : (⟨.rightParen, position⟩ : Lexeme) ∈ [lexeme] := by simp [htext]
  rw [← List.mem_singleton.mp hmem] at h
  exact absurd rfl h

/-- A single lexeme opens nothing, unless it is an opening parenthesis. -/
theorem opensPaired_singleton (h : lexeme.token ≠ .leftParen) : OpensPaired [lexeme] := by
  intro earlier position later htext
  have hmem : (⟨.leftParen, position⟩ : Lexeme) ∈ [lexeme] := by simp [htext]
  rw [← List.mem_singleton.mp hmem] at h
  exact absurd rfl h

/-- A closing parenthesis that has a partner may come last. -/
theorem ClosesPaired.concat (h : ClosesPaired before) (hpartner : HasLeftPartner before)
    (right : Nat) : ClosesPaired (before ++ [⟨.rightParen, right⟩]) := by
  intro earlier position later htext
  rcases List.append_eq_append_iff.mp htext with ⟨tail, hearlier, htail⟩ | ⟨tail, hbefore, htail⟩
  · cases tail with
    | nil => rwa [hearlier, List.append_nil]
    | cons closing tail =>
      obtain ⟨-, htail⟩ := List.cons.inj htail
      cases tail <;> cases htail
  · cases tail with
    | nil => rwa [← List.append_nil earlier, ← hbefore]
    | cons closing tail =>
      cases htail
      exact h earlier position tail hbefore

/-- An opening parenthesis that has a partner may come first. -/
theorem OpensPaired.cons (h : OpensPaired after) (hpartner : HasRightPartner after) (left : Nat) :
    OpensPaired (⟨.leftParen, left⟩ :: after) := by
  intro earlier position later htext
  cases earlier with
  | nil =>
    cases htext
    exact hpartner
  | cons opening earlier =>
    cases htext
    exact h earlier position later rfl

/-! ## Depth -/

/-- What a token adds to the depth. -/
def Token.turn : Token → Int
  | leftParen => 1
  | rightParen => -1
  | _ => 0

/-- **How deep a row of lexemes leads into parentheses.** -/
def depth (lexemes : List Lexeme) : Int :=
  (lexemes.map fun lexeme => lexeme.token.turn).sum

@[simp] theorem depth_nil : depth [] = 0 :=
  rfl

@[simp] theorem depth_cons (lexeme : Lexeme) (lexemes : List Lexeme) :
    depth (lexeme :: lexemes) = lexeme.token.turn + depth lexemes := by
  simp [depth]

@[simp] theorem depth_append (before after : List Lexeme) :
    depth (before ++ after) = depth before + depth after := by
  simp [depth]

@[simp] theorem Token.turn_leftParen : Token.leftParen.turn = 1 :=
  rfl

@[simp] theorem Token.turn_rightParen : Token.rightParen.turn = -1 :=
  rfl

/-- Only parentheses lead in or out. -/
theorem Token.turn_of_ne {token : Token} (hleft : token ≠ .leftParen)
    (hright : token ≠ .rightParen) : token.turn = 0 := by
  match token, hleft, hright with
  | .number _, _, _ => rfl
  | .operator _, _, _ => rfl
  | .leftParen, hleft, _ => exact absurd rfl hleft
  | .rightParen, _, hright => exact absurd rfl hright

namespace Matched

/-- A matched row leads out of all that it leads into. -/
theorem depth_eq_zero (h : Matched lexemes) : depth lexemes = 0 := by
  induction h with
  | nil => rfl
  | other hleft hright _ ih => rw [depth_cons, Token.turn_of_ne hleft hright, ih, Int.zero_add]
  | pair _ _ ihInside ihAfter => simp [ihInside, ihAfter]

/-- A matched row leads out of nothing that it has not led into before. -/
theorem depth_nonneg_of_prefix (h : Matched lexemes) :
    ∀ before, before <+: lexemes → 0 ≤ depth before := by
  induction h with
  | nil =>
    intro before hprefix
    rw [List.prefix_nil.mp hprefix, depth_nil]
  | other hleft hright _ ih =>
    intro before hprefix
    rcases List.prefix_cons_iff.mp hprefix with rfl | ⟨rest, rfl, hrest⟩
    · exact Int.le_refl 0
    · rw [depth_cons, Token.turn_of_ne hleft hright, Int.zero_add]
      exact ih rest hrest
  | @pair inside after left right hinside _ ihInside ihAfter =>
    rintro before ⟨rest, htext⟩
    -- the prefix ends before the pair, inside it or after it
    rcases List.append_eq_append_iff.mp htext with ⟨tail, hopened, -⟩ | ⟨tail, hbefore, hclosed⟩
    · rcases List.append_eq_cons_iff.mp hopened.symm with ⟨rfl, -⟩ | ⟨first, rfl, hfirst⟩
      · exact Int.le_refl 0
      · have hnonneg := ihInside first ⟨tail, hfirst.symm⟩
        rw [depth_cons, Token.turn_leftParen]
        omega
    · rw [hbefore, List.cons_append, depth_cons, depth_append, hinside.depth_eq_zero,
        Token.turn_leftParen]
      rcases List.append_eq_cons_iff.mp hclosed.symm with ⟨rfl, -⟩ | ⟨first, rfl, hfirst⟩
      · simp
      · have hnonneg := ihAfter first ⟨rest, hfirst.symm⟩
        rw [depth_cons, Token.turn_rightParen]
        omega

/-- **After a matched row, a closing parenthesis has no partner.** -/
theorem not_hasLeftPartner (h : Matched before) : ¬HasLeftPartner before := by
  rintro ⟨earlier, inside, left, rfl, hinside⟩
  have hnonneg := h.depth_nonneg_of_prefix earlier (List.prefix_append _ _)
  have hzero := h.depth_eq_zero
  rw [depth_append, depth_cons, hinside.depth_eq_zero, Token.turn_leftParen] at hzero
  omega

/-- **Before a matched row, an opening parenthesis has no partner.** -/
theorem not_hasRightPartner (h : Matched after) : ¬HasRightPartner after := by
  rintro ⟨inside, later, right, rfl, hinside⟩
  have hnonneg := h.depth_nonneg_of_prefix (inside ++ [⟨.rightParen, right⟩]) ⟨later, by simp⟩
  rw [depth_append, hinside.depth_eq_zero] at hnonneg
  simp at hnonneg

/-- Matched rows may follow each other. -/
theorem append (hbefore : Matched before) (hafter : Matched after) : Matched (before ++ after) := by
  induction hbefore with
  | nil => exact hafter
  | other hleft hright _ ih => exact .other hleft hright ih
  | @pair inside rest left right hinside _ _ ih =>
    rw [List.append_assoc, List.cons_append]
    exact .pair hinside ih

/-- A lexeme that is no parenthesis is matched by itself. -/
theorem singleton (hleft : lexeme.token ≠ .leftParen) (hright : lexeme.token ≠ .rightParen) :
    Matched [lexeme] :=
  .other hleft hright .nil

/-- **In a matched row, all closing parentheses have partners.** -/
theorem closesPaired (h : Matched lexemes) : ClosesPaired lexemes := by
  induction h with
  | nil =>
    intro before _ _ htext
    cases before <;> cases htext
  | @other lexeme lexemes _ hright _ ih => exact (closesPaired_singleton hright).append ih
  | @pair inside after left right hinside _ ihInside ihAfter =>
    have hopened : ClosesPaired (⟨.leftParen, left⟩ :: inside) :=
      (closesPaired_singleton Token.noConfusion).append ihInside
    rw [List.append_cons]
    exact (hopened.concat ⟨[], inside, left, rfl, hinside⟩ right).append ihAfter

/-- **In a matched row, all opening parentheses have partners.** -/
theorem opensPaired (h : Matched lexemes) : OpensPaired lexemes := by
  induction h with
  | nil =>
    intro before _ _ htext
    cases before <;> cases htext
  | @other lexeme lexemes hleft _ _ ih => exact (opensPaired_singleton hleft).append ih
  | @pair inside after left right hinside _ ihInside ihAfter =>
    have hclosed : OpensPaired (⟨.rightParen, right⟩ :: after) :=
      (opensPaired_singleton Token.noConfusion).append ihAfter
    exact (ihInside.append hclosed).cons ⟨inside, after, right, rfl, hinside⟩ left

end Matched

/-- A closing parenthesis without a partner leaves a row unmatched. -/
theorem FirstUnpairedRight.not_matched {position : Nat} (h : FirstUnpairedRight lexemes position) :
    ¬Matched lexemes := by
  obtain ⟨before, after, htext, hnone, -⟩ := h
  exact fun hmatched => hnone (hmatched.closesPaired before position after htext)

/-- An opening parenthesis without a partner leaves a row unmatched. -/
theorem LastUnpairedLeft.not_matched {position : Nat} (h : LastUnpairedLeft lexemes position) :
    ¬Matched lexemes := by
  obtain ⟨before, after, htext, hnone, -⟩ := h
  exact fun hmatched => hnone (hmatched.opensPaired before position after htext)

/-! ## Open parentheses -/

/-- **The parentheses that a row of lexemes leaves open**, the latest first. -/
inductive LeavesOpen : List Lexeme → List Nat → Prop
  /-- A matched row leaves none open. -/
  | matched {lexemes : List Lexeme} : Matched lexemes → LeavesOpen lexemes []
  /-- A parenthesis is open, and a matched row has followed it. -/
  | paren {before inside : List Lexeme} {opens : List Nat} {left : Nat} :
      LeavesOpen before opens → Matched inside →
      LeavesOpen (before ++ ⟨.leftParen, left⟩ :: inside) (left :: opens)

namespace LeavesOpen

variable {opens : List Nat} {left : Nat}

/-- A matched row leaves open what was open. -/
theorem append (h : LeavesOpen before opens) (hafter : Matched after) :
    LeavesOpen (before ++ after) opens := by
  cases h with
  | matched hbefore => exact .matched (hbefore.append hafter)
  | paren hopen hinside =>
    rw [List.append_assoc, List.cons_append]
    exact .paren hopen (hinside.append hafter)

/-- A closing parenthesis closes the latest one that is open. -/
theorem closing (h : LeavesOpen before (left :: opens)) (right : Nat) :
    LeavesOpen (before ++ [⟨.rightParen, right⟩]) opens := by
  cases h with
  | @paren earlier inside _ _ hopen hinside =>
    have hpair : Matched (⟨.leftParen, left⟩ :: inside ++ [⟨.rightParen, right⟩]) :=
      .pair hinside .nil
    rw [List.append_assoc]
    exact hopen.append hpair

/-- What leaves none open is matched. -/
theorem matched_of_nil (h : LeavesOpen lexemes []) : Matched lexemes := by
  cases h with
  | matched hmatched => exact hmatched

/-- **Whatever is left open, all closing parentheses have partners.** -/
theorem closesPaired (h : LeavesOpen lexemes opens) : ClosesPaired lexemes := by
  induction h with
  | matched hmatched => exact hmatched.closesPaired
  | @paren before inside _ left _ hinside ih =>
    rw [List.append_cons]
    exact (ih.append (closesPaired_singleton Token.noConfusion)).append hinside.closesPaired

/-- **The latest parenthesis that is left open** is the last one without a partner. -/
theorem lastUnpairedLeft (h : LeavesOpen lexemes (left :: opens)) :
    LastUnpairedLeft lexemes left := by
  cases h with
  | paren _ hinside => exact ⟨_, _, rfl, hinside.not_hasRightPartner, hinside.opensPaired⟩

end LeavesOpen

/-! ## Parentheses that wait -/

/-- The place of a parenthesis that waits. -/
def Held.open? : Held → Option Nat
  | operator _ _ => none
  | paren position => some position

/-- The places of the parentheses that wait, the latest first. -/
def opensOf (held : List Held) : List Nat :=
  held.filterMap Held.open?

@[simp] theorem opensOf_nil : opensOf [] = [] :=
  rfl

@[simp] theorem opensOf_operator (op : Operator) (position : Nat) (held : List Held) :
    opensOf (.operator op position :: held) = opensOf held :=
  rfl

@[simp] theorem opensOf_paren (position : Nat) (held : List Held) :
    opensOf (.paren position :: held) = position :: opensOf held :=
  rfl

variable {α : Type} [Numeric α]

namespace Workspace

/-- Unwinding leaves all parentheses open. -/
theorem Unwinds.opensOf_eq {strength : Nat} {held held' : List Held} {values values' : List α}
    (h : Unwinds strength held values held' values') : opensOf held' = opensOf held := by
  induction h with
  | stop _ => rfl
  | apply _ _ _ ih => rw [ih, opensOf_operator]

/-- **Every step opens and closes parentheses as its lexeme does.** -/
theorem Steps.leavesOpen {w w' : Workspace α} (h : Steps w lexeme w')
    (hopen : LeavesOpen before (opensOf w.held)) :
    LeavesOpen (before ++ [lexeme]) (opensOf w'.held) := by
  cases h with
  | literal _ | sign | negative _ =>
    exact hopen.append (.singleton Token.noConfusion Token.noConfusion)
  | opening => exact .paren hopen .nil
  | operator hunwinds =>
    rw [opensOf_operator, hunwinds.opensOf_eq]
    exact hopen.append (.singleton Token.noConfusion Token.noConfusion)
  | closing _ hunwinds =>
    -- the parenthesis on top, once all above it is applied, is the latest that is open
    have hlatest := hunwinds.opensOf_eq
    rw [opensOf_paren] at hlatest
    exact LeavesOpen.closing (hlatest ▸ hopen) _

/-- **What waits are the parentheses that the text leaves open**, in every state that is reached. -/
theorem leavesOpen_of_run {w : Workspace α} (hrun : (Workspace.empty.run lexemes).outcome = .ok w) :
    LeavesOpen lexemes (opensOf w.held) :=
  run_induction (motive := fun lexemes w => LeavesOpen lexemes (opensOf w.held)) (.matched .nil)
    (fun _ _ _ _ hopen hstep => hstep.leavesOpen hopen) hrun

/-- Where all that waits is applied and nothing is left, the text is matched. -/
theorem matched_of_unwinds {w : Workspace α} {values : List α}
    (hrun : (Workspace.empty.run lexemes).outcome = .ok w)
    (hunwinds : Unwinds 0 w.held w.values [] values) : Matched lexemes := by
  have hopen := leavesOpen_of_run hrun
  rw [← hunwinds.opensOf_eq] at hopen
  exact hopen.matched_of_nil

end Workspace

/-! ## The parenthesis that is reported -/

/-- **What an error tells about the parentheses of a text.** One that is reported is the first
closing one without a partner, or else the last opening one. Where no operand is found, all are
matched. -/
def TellsParens (lexemes : List Lexeme) : ParseError → Prop
  | .mismatchedParenthesis position =>
      FirstUnpairedRight lexemes position ∨
        ClosesPaired lexemes ∧ LastUnpairedLeft lexemes position
  | .emptyExpression => Matched lexemes
  | _ => True

namespace Workspace

variable {w : Workspace α} {cause : ParseError}

/-- Operators that fail for the text tell nothing about its parentheses. -/
theorem UnwindFails.tellsParens {strength : Nat} {held : List Held} {values : List α}
    (h : UnwindFails strength held values (.parse cause)) : TellsParens lexemes cause := by
  obtain ⟨op, position, -, rfl⟩ := h.exists_operator
  trivial

/-- **A step that fails for want of a partner** has come to the first such parenthesis. -/
theorem StepFails.tellsParens (h : StepFails w lexeme (.parse cause))
    (hrun : (Workspace.empty.run before).outcome = .ok w) (after : List Lexeme) :
    TellsParens (before ++ lexeme :: after) cause := by
  cases h with
  | literal hvalue | negative hvalue =>
    obtain rfl := eq_invalidNumber_of_readNumber hvalue
    trivial
  | sign _ | operand _ | operator _ => trivial
  | unwinding hunwind | closing _ hunwind => exact hunwind.tellsParens
  | unmatched _ hunwinds =>
    have hmatched := matched_of_unwinds hrun hunwinds
    exact .inl ⟨before, after, rfl, hmatched.not_hasLeftPartner, hmatched.closesPaired⟩

/-- **An end that fails for want of a partner** has left the last such parenthesis open. -/
theorem FinishFails.tellsParens (h : FinishFails w (.parse cause))
    (hrun : (Workspace.empty.run lexemes).outcome = .ok w) : TellsParens lexemes cause := by
  cases h with
  | sign => trivial
  | unwinding _ hunwind => exact hunwind.tellsParens
  | unclosed _ hunwinds =>
    -- all closing parentheses have been taken in, and the one on top is left
    have hopen := leavesOpen_of_run hrun
    rw [← hunwinds.opensOf_eq, opensOf_paren] at hopen
    exact .inr ⟨hopen.closesPaired, hopen.lastUnpairedLeft⟩
  | empty _ hunwinds => exact matched_of_unwinds hrun hunwinds

end Workspace

/-- Lexemes that have a value are matched. -/
theorem matched_of_evaluateLexemes {value : α}
    (h : (evaluateLexemes lexemes : Evaluation α α).outcome = .ok value) : Matched lexemes := by
  obtain ⟨w, hrun, hfinish⟩ := Logged.outcome_bind_eq_ok_iff.mp h
  obtain ⟨-, rest, hunwinds⟩ := Workspace.finish_ok_iff.mp hfinish
  exact Workspace.matched_of_unwinds hrun hunwinds

/-- **Lexemes that fail for the text** tell about its parentheses. -/
theorem tellsParens_of_evaluateLexemes {cause : ParseError}
    (h : (evaluateLexemes lexemes : Evaluation α α).outcome = .error (.parse cause)) :
    TellsParens lexemes cause := by
  rcases Workspace.evaluateLexemes_error_iff.mp h with
    ⟨before, lexeme, after, w, rfl, hrun, hfails⟩ | ⟨w, hrun, hfails⟩
  · exact hfails.tellsParens hrun after
  · exact hfails.tellsParens hrun

variable (α) in
/-- **Parentheses are reported just where they do not match.** The one that is reported is the first
closing parenthesis without a partner, if there is any, and otherwise the last opening one without a
partner; it is never reported in a matched text. A text that has a value, or lacks all operands, is
matched. -/
theorem evaluateAs_mismatchedParenthesis {source : String}
    (hscan : Lexeme.scan source = .ok lexemes) :
    (∀ position, (evaluateAs α source).outcome =
        .error (.parse (.mismatchedParenthesis position)) →
      (FirstUnpairedRight lexemes position ∨
        ClosesPaired lexemes ∧ LastUnpairedLeft lexemes position) ∧ ¬Matched lexemes) ∧
      ((∃ value, (evaluateAs α source).outcome = .ok value) ∨
        (evaluateAs α source).outcome = .error (.parse .emptyExpression) → Matched lexemes) := by
  rw [outcome_evaluateAs hscan]
  refine ⟨fun position h => ?_, ?_⟩
  · have hunpaired : TellsParens lexemes (.mismatchedParenthesis position) :=
      tellsParens_of_evaluateLexemes h
    refine ⟨hunpaired, ?_⟩
    rcases hunpaired with hfirst | ⟨-, hlast⟩
    · exact hfirst.not_matched
    · exact hlast.not_matched
  · rintro (⟨value, h⟩ | h)
    · exact matched_of_evaluateLexemes h
    · exact tellsParens_of_evaluateLexemes h

/-- In `(1+((2)` the second parenthesis is the last one without a partner. -/
theorem evaluateAs_mismatchedParenthesis_of_leftParen :
    ∃ lexemes, Lexeme.scan "(1+((2)" = .ok lexemes ∧
      (evaluateAs Integer64 "(1+((2)").outcome = .error (.parse (.mismatchedParenthesis 3)) ∧
      ClosesPaired lexemes ∧ LastUnpairedLeft lexemes 3 := by
  have hscan : Lexeme.scan "(1+((2)" = .ok [⟨.leftParen, 0⟩, ⟨.number "1", 1⟩,
      ⟨.operator .add, 2⟩, ⟨.leftParen, 3⟩, ⟨.leftParen, 4⟩, ⟨.number "2", 5⟩,
      ⟨.rightParen, 6⟩] := by decide +kernel
  have h : (evaluateAs Integer64 "(1+((2)").outcome =
      .error (.parse (.mismatchedParenthesis 3)) := by decide +kernel
  refine ⟨_, hscan, h, ?_⟩
  obtain ⟨⟨before, after, htext, -, -⟩ | hlast, -⟩ :=
    (evaluateAs_mismatchedParenthesis Integer64 hscan).1 3 h
  · -- the lexeme at the place that is reported is no closing parenthesis
    have hmem : (⟨.rightParen, 3⟩ : Lexeme) ∈ [⟨.leftParen, 0⟩, ⟨.number "1", 1⟩,
        ⟨.operator .add, 2⟩, ⟨.leftParen, 3⟩, ⟨.leftParen, 4⟩, ⟨.number "2", 5⟩,
        ⟨.rightParen, 6⟩] := by
      rw [htext]
      exact List.mem_append_right _ List.mem_cons_self
    exact absurd hmem (by decide)
  · exact hlast

end DeskCalc
