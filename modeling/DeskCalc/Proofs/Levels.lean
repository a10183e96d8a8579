import DeskCalc.Proofs.Brackets
import Mathlib.Data.List.Chain

/-! # The levels of what waits

An operator may wait only on top of weaker ones, as the others are applied when it comes. A
parenthesis starts a new level, on which this begins anew. So there are at most as many operators on a
level as there are strengths, and the stack is no higher than the parentheses are deep.

* **`Workspace.Climbs`** — every operator binds more strongly than what waits directly below it.
* **`Workspace.Steps.climbs`**, **`Workspace.climbs_of_run`** — this holds in every state that is
  reached.
* **`Workspace.Climbs.length_lt`** — how high such a stack can be.
* **`Workspace.pairwise_strength_of_run`** — the strengths, the height and the places of what waits,
  for texts of all kinds. -/

namespace DeskCalc

/-- How strongly an entry binds what is below it: a parenthesis not at all. -/
def Held.strength : Held → Nat
  | operator op _ => op.precedence
  | paren _ => 0

/-- An entry waits where its lexeme stands. -/
@[simp] theorem Held.position_lexeme (entry : Held) : entry.lexeme.position = entry.position := by
  cases entry <;> rfl

/-- **What a row of lexemes leaves open** is as much as it leads into. -/
theorem LeavesOpen.depth_eq {lexemes : List Lexeme} {opens : List Nat}
    (h : LeavesOpen lexemes opens) : depth lexemes = opens.length := by
  induction h with
  | matched hmatched => exact hmatched.depth_eq_zero
  | paren _ hinside ih =>
    rw [depth_append, depth_cons, ih, hinside.depth_eq_zero, Token.turn_leftParen, Int.add_zero,
      List.length_cons, Int.natCast_succ]

namespace Workspace

/-! ## Strengths -/

/-- **Whether what waits climbs in strength:** every operator binds more strongly than what waits
directly below it. -/
def Climbs (held : List Held) : Prop :=
  held.IsChain fun upper lower => upper.isOperator = true → lower.strength < upper.strength

/-- Unwinding stops at what is weaker. -/
theorem stops_iff {strength : Nat} (hpos : 0 < strength) {held : List Held} :
    Stops strength held ↔ ∀ entry ∈ held.head?, entry.strength < strength := by
  match held with
  | [] => simp [Stops]
  | .paren _ :: _ => simp [Stops, Held.strength, hpos]
  | .operator _ _ :: _ => simp [Stops, Held.strength]

/-- No operator is as strong as a literal. -/
theorem stops_atomStrength (held : List Held) : Stops atomStrength held := by
  match held with
  | [] => trivial
  | .paren _ :: _ => trivial
  | .operator op _ :: _ => exact op.precedence_lt_atomStrength

theorem climbs_nil : Climbs [] :=
  .nil

/-- On top of a parenthesis, strengths begin anew. -/
theorem climbs_paren {position : Nat} {held : List Held} :
    Climbs (.paren position :: held) ↔ Climbs held := by
  rw [Climbs, List.isChain_cons]
  exact and_iff_right fun _ _ hparen => absurd hparen Bool.false_ne_true

/-- An operator waits where unwinding for it has stopped. -/
theorem climbs_operator {op : Operator} {position : Nat} {held : List Held} :
    Climbs (.operator op position :: held) ↔ Stops op.precedence held ∧ Climbs held := by
  rw [Climbs, List.isChain_cons, stops_iff op.one_le_precedence]
  refine and_congr_left fun _ => forall₂_congr fun entry _ => ?_
  exact ⟨fun h => h rfl, fun h _ => h⟩

/-- A part of what waits climbs as well. -/
theorem Climbs.of_isInfix {level held : List Held} (h : Climbs held) (hlevel : level <:+: held) :
    Climbs level := by
  obtain ⟨above, below, rfl⟩ := hlevel
  exact (List.IsChain.left_of_append h).right_of_append

/-- **Operators that wait with no parenthesis between them** bind the more strongly the later they
came. -/
theorem Climbs.pairwise {level : List Held} (h : Climbs level)
    (hlevel : ∀ entry ∈ level, entry.isOperator = true) :
    level.Pairwise fun upper lower => lower.strength < upper.strength := by
  have hchain : (level.map Held.strength).IsChain (· > ·) :=
    (List.isChain_map _).mpr
      (List.IsChain.imp_of_mem_imp (fun upper _ hupper _ hclimb => hclimb (hlevel upper hupper)) h)
  exact List.pairwise_map.mp (List.isChain_iff_pairwise.mp hchain)

/-- **How high a stack is that climbs.** Below a strength there is room for as many operators on its
topmost level as there are lesser strengths, and on each other level for one of each strength and for
its parenthesis. -/
theorem Climbs.length_lt {held : List Held} (h : Climbs held) {strength : Nat}
    (hstops : Stops strength held) (hpos : 0 < strength) :
    held.length < atomStrength * (opensOf held).length + strength := by
  induction held generalizing strength with
  | nil => simpa using hpos
  | cons entry held ih =>
    cases entry with
    | paren position =>
      have hbelow := ih (climbs_paren.mp h) (stops_atomStrength held) (by decide)
      rw [opensOf_paren, List.length_cons, List.length_cons, Nat.mul_succ]
      omega
    | operator op position =>
      obtain ⟨hop, hheld⟩ := climbs_operator.mp h
      have hbelow := ih hheld hop op.one_le_precedence
      have hless : op.precedence < strength := hstops
      rw [opensOf_operator, List.length_cons]
      omega

/-- Operators that wait with no parenthesis between them are at most as many as there are strengths. -/
theorem Climbs.length_le_three {level : List Held} (h : Climbs level)
    (hlevel : ∀ entry ∈ level, entry.isOperator = true) : level.length ≤ 3 := by
  have hopens : opensOf level = [] := by
    refine List.filterMap_eq_nil_iff.mpr fun entry hentry => ?_
    cases entry with
    | operator _ _ => rfl
    | paren _ => exact absurd (hlevel _ hentry) Bool.false_ne_true
  have hlength := h.length_lt (stops_atomStrength level) (by decide)
  rw [hopens] at hlength
  exact Nat.le_of_lt_succ hlength

/-! ## Runs -/

variable {α : Type} [Numeric α] {lexemes : List Lexeme} {lexeme : Lexeme} {w w' : Workspace α}

/-- **Every step keeps what waits climbing.** What is applied has been on top, and an operator is added
where that has stopped. -/
theorem Steps.climbs (h : Steps w lexeme w') (hclimbs : Climbs w.held) : Climbs w'.held := by
  cases h with
  | literal _ | sign | negative _ => exact hclimbs
  | opening => exact climbs_paren.mpr hclimbs
  | operator hunwinds =>
    exact climbs_operator.mpr ⟨hunwinds.stops, hclimbs.of_isInfix hunwinds.suffix.isInfix⟩
  | closing _ hunwinds => exact climbs_paren.mp (hclimbs.of_isInfix hunwinds.suffix.isInfix)

/-- **What waits climbs in every state that is reached.** -/
theorem climbs_of_run (hrun : (Workspace.empty.run lexemes).outcome = .ok w) : Climbs w.held :=
  run_induction (motive := fun _ w => Climbs w.held) climbs_nil
    (fun _ _ _ _ hclimbs hstep => hstep.climbs hclimbs) hrun

omit [Numeric α] in
/-- Where lexemes stand one after the other, what waits does too, the latest on top. -/
theorem Tracks.pairwise_position (h : Tracks lexemes w)
    (hlexemes : lexemes.Pairwise (·.position < ·.position)) :
    w.held.Pairwise fun upper lower => lower.position < upper.position := by
  have hheld := hlexemes.sublist h.sublist
  rw [List.pairwise_reverse, List.pairwise_map] at hheld
  simpa only [Held.position_lexeme] using hheld

/-- **The levels of what waits.** In every state that a run reaches, operators that wait with no
parenthesis between them bind the more strongly the later they came, so that there are at most three
of them. As many parentheses wait as the lexemes lead into, and the stack has at most four entries for
each of them and three more. In a text, what waits on top of each entry stands after it. -/
theorem pairwise_strength_of_run (hrun : (Workspace.empty.run lexemes).outcome = .ok w) :
    (∀ level, level <:+: w.held → (∀ entry ∈ level, entry.isOperator = true) →
      level.Pairwise (fun upper lower => lower.strength < upper.strength) ∧ level.length ≤ 3) ∧
      (opensOf w.held).length = depth lexemes ∧
      w.held.length ≤ 4 * (opensOf w.held).length + 3 ∧
      ∀ source after, Lexeme.scan source = .ok (lexemes ++ after) →
        w.held.Pairwise fun upper lower => lower.position < upper.position := by
  have hclimbs := climbs_of_run hrun
  refine ⟨fun level hlevel hoperators => ?_, ?_, ?_, fun source after hscan => ?_⟩
  · have hlevels := hclimbs.of_isInfix hlevel
    exact ⟨hlevels.pairwise hoperators, hlevels.length_le_three hoperators⟩
  · exact (leavesOpen_of_run hrun).depth_eq.symm
  · exact Nat.le_of_lt_succ (hclimbs.length_lt (stops_atomStrength w.held) (by decide))
  · have hlexemes := (Lexeme.pairwise_position_of_scan hscan).sublist
      (List.sublist_append_left lexemes after)
    exact (tracks_of_run hrun).pairwise_position hlexemes

/-- With one parenthesis open, `1+2*3^(4-5/6^` makes both levels as high as they can be. -/
theorem pairwise_strength_of_run_highest :
    ∃ lexemes, ∃ w : Workspace Integer64, Lexeme.scan "1+2*3^(4-5/6^" = .ok lexemes ∧
      (Workspace.empty.run lexemes).outcome = .ok w ∧
      w.held.map Held.strength = [3, 2, 1, 0, 3, 2, 1] ∧
      (w.held.take 3).Pairwise (fun upper lower => lower.strength < upper.strength) ∧
      (opensOf w.held).length = depth lexemes ∧ w.held.length = 4 * 1 + 3 ∧
      w.held.Pairwise fun upper lower => lower.position < upper.position := by
  obtain ⟨lexemes, hlexemes⟩ : ∃ lexemes : List Lexeme, lexemes = [⟨.number "1", 0⟩,
      ⟨.operator .add, 1⟩, ⟨.number "2", 2⟩, ⟨.operator .mul, 3⟩, ⟨.number "3", 4⟩,
      ⟨.operator .pow, 5⟩, ⟨.leftParen, 6⟩, ⟨.number "4", 7⟩, ⟨.operator .sub, 8⟩,
      ⟨.number "5", 9⟩, ⟨.operator .div, 10⟩, ⟨.number "6", 11⟩, ⟨.operator .pow, 12⟩] :=
    ⟨_, rfl⟩
  have hscan : Lexeme.scan "1+2*3^(4-5/6^" = .ok lexemes := by
    rw [hlexemes]
    decide +kernel
  have hrun : (Workspace.empty.run lexemes).outcome =
      .ok (⟨[.operator .pow 12, .operator .div 10, .operator .sub 8, .paren 6, .operator .pow 5,
        .operator .mul 3, .operator .add 1], [6, 5, 4, 3, 2, 1].map (MachineInt.wrap ⟨.w64, true⟩),
        .operand⟩ : Workspace Integer64) := by
    rw [hlexemes]
    decide +kernel
  obtain ⟨hlevels, hdepth, -, hpositions⟩ := pairwise_strength_of_run hrun
  have hlevel := (hlevels _ (List.take_prefix 3 _).isInfix (by decide)).1
  have hposition := hpositions _ [] (hscan.trans (by rw [List.append_nil]))
  exact ⟨lexemes, _, hscan, hrun, rfl, hlevel, hdepth, rfl, hposition⟩

end Workspace

end DeskCalc
