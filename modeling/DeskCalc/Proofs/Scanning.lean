import DeskCalc.Proofs.Refinement
import DeskCalc.Rendering
import Mathlib.Data.List.TakeWhile
import Mathlib.Tactic.FinCases

/-! # Scanning undoes rendering

A text splits into lexemes just if it is a rendering of them, and else fails at its first character
that belongs to no token and no gap.

* **`Token.IsAllowed`** — the characters that texts of expressions are made of.
* **`Lexeme.scanFrom_charsOf`**, **`Lexeme.isRendering_of_scanFrom`** — the two directions, from any
  byte offset on.
* **`Lexeme.scanFrom_of_not_isAllowed`** — the first character that is not allowed is reported.
* **`Lexeme.scan_append_gap`** — what stands after the last token makes no difference.
* **`Lexeme.pairwise_position_of_scan`** — lexemes stand one after the other.
* **`Lexeme.scan_inverts_render`** — all of it, for whole texts. -/

namespace DeskCalc

/-! ## Characters -/

namespace Token

/-- **Whether a character may stand in the text of an expression:** in a literal, as an operator or
a parenthesis, or between tokens. -/
def IsAllowed (c : Char) : Prop :=
  c.isDigit = true ∨
    c ∈ ['.', '+', '*', '/', '^', '(', ')', '-', ' ', '\t', '\r', '\n', '\x0c']

/-- The one character of a token that is not a literal. -/
theorem ofMark?_eq_some_iff {c : Char} {token : Token} :
    ofMark? c = some token ↔ token.isNumber = false ∧ token.text.toList = [c] := by
  constructor
  · intro h
    unfold ofMark? at h
    split at h
    · cases h
      exact ⟨rfl, rfl⟩
    · cases h
      exact ⟨rfl, rfl⟩
    · obtain ⟨op, hop, rfl⟩ := Option.map_eq_some_iff.mp h
      refine ⟨rfl, ?_⟩
      unfold Operator.ofSymbol? at hop
      split at hop <;> cases hop <;> rfl
  · rintro ⟨hnumber, htext⟩
    match token, hnumber with
    | .leftParen, _ =>
      cases htext
      rfl
    | .rightParen, _ =>
      cases htext
      rfl
    | .operator op, _ =>
      cases op <;> cases htext <;> rfl

/-- A token that is no literal is a single character. -/
theorem exists_ofMark? {token : Token} (h : token.isNumber = false) :
    ∃ c, token.text.toList = [c] ∧ ofMark? c = some token := by
  have hone : ∃ c, token.text.toList = [c] := by
    match token, h with
    | .leftParen, _ => exact ⟨_, rfl⟩
    | .rightParen, _ => exact ⟨_, rfl⟩
    | .operator op, _ => cases op <;> exact ⟨_, rfl⟩
  obtain ⟨c, hc⟩ := hone
  exact ⟨c, hc, ofMark?_eq_some_iff.mpr ⟨h, hc⟩⟩

/-- No operator and no parenthesis is part of a literal or of a gap. -/
theorem isGap_isLiteral_of_ofMark? {c : Char} {token : Token} (h : ofMark? c = some token) :
    isGap c = false ∧ isLiteral c = false := by
  obtain ⟨hnumber, htext⟩ := ofMark?_eq_some_iff.mp h
  match token, hnumber with
  | .leftParen, _ =>
    cases htext
    exact ⟨rfl, rfl⟩
  | .rightParen, _ =>
    cases htext
    exact ⟨rfl, rfl⟩
  | .operator op, _ => cases op <;> cases htext <;> exact ⟨rfl, rfl⟩

/-- The characters that may stand between tokens. -/
theorem isGap_iff {c : Char} : isGap c = true ↔ c ∈ [' ', '\t', '\r', '\n', '\x0c'] := by
  simp [isGap, or_assoc]

/-- No gap is part of a literal. -/
theorem isLiteral_of_isGap {c : Char} (h : isGap c = true) : isLiteral c = false := by
  have hmem := isGap_iff.mp h
  fin_cases hmem <;> rfl

/-- Allowed is what belongs to a gap, to a literal, or is an operator or a parenthesis. -/
theorem isAllowed_iff {c : Char} :
    IsAllowed c ↔ isGap c = true ∨ isLiteral c = true ∨ (ofMark? c).isSome = true := by
  constructor
  · rintro (h | h)
    · exact .inr (.inl (by rw [isLiteral, h, Bool.true_or]))
    · fin_cases h <;> decide
  · rintro (h | h | h)
    · have hmem := isGap_iff.mp h
      refine .inr ?_
      fin_cases hmem <;> decide
    · rw [isLiteral, Bool.or_eq_true, beq_iff_eq] at h
      rcases h with h | rfl
      · exact .inl h
      · exact .inr (by decide)
    · obtain ⟨token, hmark⟩ := Option.isSome_iff_exists.mp h
      obtain ⟨hnumber, htext⟩ := ofMark?_eq_some_iff.mp hmark
      refine .inr ?_
      match token, hnumber with
      | .leftParen, _ =>
        cases htext
        decide
      | .rightParen, _ =>
        cases htext
        decide
      | .operator op, _ => cases op <;> cases htext <;> decide

/-- Each character that is allowed takes one byte. -/
theorem utf8Size_of_isAllowed {c : Char} (h : IsAllowed c) : c.utf8Size = 1 := by
  rcases h with h | h
  · have hbound : c.toNat ≤ 57 := by
      rw [Char.isDigit, Bool.and_eq_true, decide_eq_true_eq, decide_eq_true_eq] at h
      exact h.2
    have hle : c.val ≤ 0x7f := UInt32.le_iff_toNat_le.mpr (Nat.le_trans hbound (by decide))
    exact Char.utf8Size_eq_one_iff.mpr hle
  · fin_cases h <;> rfl

instance : DecidablePred IsAllowed :=
  fun _ => inferInstanceAs (Decidable (_ ∨ _))

/-- Where some character is not allowed, there is a first one. -/
theorem exists_first_not_isAllowed {cs : List Char} (h : ∃ c ∈ cs, ¬IsAllowed c) :
    ∃ before c after, cs = before ++ c :: after ∧ (∀ b ∈ before, IsAllowed b) ∧ ¬IsAllowed c := by
  obtain ⟨c, hmem, hc⟩ := h
  have hsome : (cs.find? fun b => !decide (IsAllowed b)).isSome = true := by
    rw [List.find?_isSome]
    exact ⟨c, hmem, by rw [decide_eq_false hc]; rfl⟩
  obtain ⟨first, hfirst⟩ := Option.isSome_iff_exists.mp hsome
  obtain ⟨hnot, before, after, hcs, hbefore⟩ := List.find?_eq_some_iff_append.mp hfirst
  refine ⟨before, first, after, hcs, fun b hb => ?_, ?_⟩
  · have hb := hbefore b hb
    rwa [Bool.not_not, decide_eq_true_eq] at hb
  · rwa [Bool.not_eq_true', decide_eq_false_iff_not] at hnot

end Token

/-- A row of characters that are all allowed has as many bytes as characters. -/
theorem utf8ByteSize_of_isAllowed {cs : List Char} (h : ∀ c ∈ cs, Token.IsAllowed c) :
    (String.ofList cs).utf8ByteSize = cs.length := by
  induction cs with
  | nil => rfl
  | cons c cs ih =>
    obtain ⟨hc, hcs⟩ := List.forall_mem_cons.mp h
    rw [String.ofList_cons, String.utf8ByteSize_append, String.utf8ByteSize_singleton,
      Token.utf8Size_of_isAllowed hc, ih hcs, List.length_cons, Nat.add_comm]

namespace Piece

/-- Gaps consist of allowed characters. -/
theorem IsGap.isAllowed {gap : List Char} (h : IsGap gap) : ∀ c ∈ gap, Token.IsAllowed c :=
  fun c hc => Token.isAllowed_iff.mpr (.inl (h c hc))

end Piece

/-- Tokens that can be scanned consist of allowed characters. -/
theorem Token.WellFormed.isAllowed {token : Token} (h : token.WellFormed) :
    ∀ c ∈ token.text.toList, Token.IsAllowed c := by
  intro c hc
  refine Token.isAllowed_iff.mpr (.inr ?_)
  by_cases hnumber : token.isNumber = true
  · match token, hnumber with
    | .number literal, _ => exact .inl (h.2 c hc)
  · obtain ⟨b, htext, hmark⟩ := Token.exists_ofMark? (Bool.not_eq_true _ ▸ hnumber)
    rw [htext] at hc
    obtain rfl := List.mem_singleton.mp hc
    exact .inr (Option.isSome_of_eq_some hmark)

/-- Tokens that can be scanned are not empty. -/
theorem Token.WellFormed.text_ne_nil {token : Token} (h : token.WellFormed) :
    token.text.toList ≠ [] := by
  by_cases hnumber : token.isNumber = true
  · match token, hnumber with
    | .number literal, _ => exact h.1
  · obtain ⟨b, htext, -⟩ := Token.exists_ofMark? (Bool.not_eq_true _ ▸ hnumber)
    rw [htext]
    exact List.cons_ne_nil b []

/-- A token that is no literal can be scanned as it is. -/
theorem Token.wellFormed_of_isNumber {token : Token} (h : token.isNumber = false) :
    token.WellFormed := by
  match token, h with
  | .leftParen, _ => trivial
  | .rightParen, _ => trivial
  | .operator _, _ => trivial

namespace Piece

/-- What it takes for a row of pieces to be told apart, from its first piece on. -/
theorem separate_cons {piece : Piece} {pieces : List Piece} :
    Separate (piece :: pieces) ↔
      piece.token.WellFormed ∧ IsGap piece.gap ∧
        (∀ next ∈ pieces.head?, piece.token.isNumber = true → next.token.isNumber = true →
          piece.gap ≠ []) ∧ Separate pieces := by
  cases pieces with
  | nil => simp [Separate]
  | cons next pieces => simp [Separate]

/-- The characters of a row of pieces, from its first piece on. -/
theorem charsOf_cons (piece : Piece) (pieces : List Piece) :
    charsOf (piece :: pieces) = piece.token.text.toList ++ (piece.gap ++ charsOf pieces) := by
  rw [charsOf, List.flatMap_cons, chars, List.append_assoc, charsOf]

/-- A piece whose token can be scanned consists of allowed characters. -/
theorem isAllowed_chars {piece : Piece} (htoken : piece.token.WellFormed) (hgap : IsGap piece.gap) :
    ∀ c ∈ piece.chars, Token.IsAllowed c := by
  intro c hc
  rcases List.mem_append.mp hc with hc | hc
  · exact htoken.isAllowed c hc
  · exact hgap.isAllowed c hc

/-- The lexemes of a row of pieces, from its first piece on; offsets count characters, which take
one byte each. -/
theorem place_cons {piece : Piece} (htoken : piece.token.WellFormed) (hgap : IsGap piece.gap)
    (position : Nat) (pieces : List Piece) :
    place position (piece :: pieces) =
      ⟨piece.token, position⟩ ::
        place (position + piece.token.text.toList.length + piece.gap.length) pieces := by
  rw [place, utf8ByteSize_of_isAllowed (isAllowed_chars htoken hgap), chars, List.length_append,
    Nat.add_assoc]

/-- A row of pieces starts with a literal's character only if its first token is a literal. -/
theorem isLiteral_head?_charsOf {pieces : List Piece} {rest : List Char}
    (hnumber : ∀ next ∈ pieces.head?, next.token.isNumber = false)
    (hrest : ∀ c ∈ rest.head?, Token.isLiteral c = false) :
    ∀ c ∈ (charsOf pieces ++ rest).head?, Token.isLiteral c = false := by
  cases pieces with
  | nil => exact hrest
  | cons next pieces =>
    obtain ⟨c, hc, hmark⟩ := Token.exists_ofMark? (hnumber next rfl)
    rw [charsOf_cons, hc]
    intro b hb
    cases hb
    exact (Token.isGap_isLiteral_of_ofMark? hmark).2

/-- Pieces can be told apart if no character that follows a literal would prolong it. -/
theorem separate_cons_of_head? {piece : Piece} {pieces : List Piece}
    (htoken : piece.token.WellFormed) (hgap : IsGap piece.gap) (hpieces : Separate pieces)
    (hhead : piece.token.isNumber = true →
      ∀ c ∈ (piece.gap ++ charsOf pieces).head?, Token.isLiteral c = false) :
    Separate (piece :: pieces) := by
  refine separate_cons.mpr ⟨htoken, hgap, fun next hnext hnumber hnext' hempty => ?_, hpieces⟩
  obtain ⟨pieces', rfl⟩ := List.head?_eq_some_iff.mp hnext
  -- with an empty gap, the first character of the next literal follows directly
  match next, hnext' with
  | ⟨.number literal, gap⟩, _ =>
    obtain ⟨hne, hall⟩ := (separate_cons.mp hpieces).1
    obtain ⟨c, cs, hcs⟩ := List.exists_cons_of_ne_nil hne
    have hmem : c ∈ (piece.gap ++ charsOf (⟨.number literal, gap⟩ :: pieces')).head? := by
      rw [hempty, charsOf_cons]
      show c ∈ (literal.toList ++ _).head?
      rw [hcs]
      rfl
    have hc : Token.isLiteral c = true := hall c (hcs ▸ List.mem_cons_self)
    rw [hhead hnumber c hmem] at hc
    cases hc

end Piece

/-! ## One token of a text -/

namespace Lexeme

variable {position : Nat} {c : Char} {cs rest : List Char}

/-- Nothing is scanned in an empty row. -/
theorem scanFrom_nil (position : Nat) : scanFrom position [] = .ok [] := by
  rw [scanFrom]

/-- A gap moves the offset only. -/
theorem scanFrom_isGap (h : Token.isGap c = true) :
    scanFrom position (c :: rest) = scanFrom (position + 1) rest := by
  rw [scanFrom, if_pos h]

/-- A whole gap moves the offset past it. -/
theorem scanFrom_gap {gap : List Char} (h : Piece.IsGap gap) (position : Nat) (rest : List Char) :
    scanFrom position (gap ++ rest) = scanFrom (position + gap.length) rest := by
  induction gap generalizing position with
  | nil => rfl
  | cons c gap ih =>
    obtain ⟨hc, hgap⟩ := List.forall_mem_cons.mp h
    rw [List.cons_append, scanFrom_isGap hc, ih hgap, List.length_cons, Nat.add_assoc,
      Nat.add_comm 1]

/-- An operator or a parenthesis is a token of its own. -/
theorem scanFrom_mark {token : Token} (h : Token.ofMark? c = some token) :
    scanFrom position (c :: rest) =
      (scanFrom (position + 1) rest).map (⟨token, position⟩ :: ·) := by
  obtain ⟨hgap, hliteral⟩ := Token.isGap_isLiteral_of_ofMark? h
  rw [scanFrom, if_neg (Bool.not_eq_true _ ▸ hgap), if_neg (Bool.not_eq_true _ ▸ hliteral), h]

/-- Any other character is reported. -/
theorem scanFrom_not_isAllowed (h : ¬Token.IsAllowed c) :
    scanFrom position (c :: rest) = .error (.invalidCharacter c position) := by
  rw [Token.isAllowed_iff] at h
  have hgap : ¬Token.isGap c = true := fun hc => h (.inl hc)
  have hliteral : ¬Token.isLiteral c = true := fun hc => h (.inr (.inl hc))
  have hmark : Token.ofMark? c = none :=
    Option.not_isSome_iff_eq_none.mp fun hc => h (.inr (.inr hc))
  rw [scanFrom, if_neg hgap, if_neg hliteral, hmark]

/-- A literal is as long as its row of digits and points. -/
theorem scanFrom_literal (h : Token.isLiteral c = true) :
    scanFrom position (c :: rest) =
      (scanFrom (position + (c :: rest.takeWhile Token.isLiteral).length)
        (rest.dropWhile Token.isLiteral)).map
          (⟨.number (String.ofList (c :: rest.takeWhile Token.isLiteral)), position⟩ :: ·) := by
  have hgap : ¬Token.isGap c = true := fun hc => by
    rw [Token.isLiteral_of_isGap hc] at h
    cases h
  rw [scanFrom, if_neg hgap, if_pos h]

/-- **A token is scanned off the start of a text**, if what follows does not prolong it. -/
theorem scanFrom_token {token : Token} (h : token.WellFormed)
    (hrest : token.isNumber = true → ∀ c ∈ rest.head?, Token.isLiteral c = false)
    (position : Nat) :
    scanFrom position (token.text.toList ++ rest) =
      (scanFrom (position + token.text.toList.length) rest).map (⟨token, position⟩ :: ·) := by
  by_cases hnumber : token.isNumber = true
  · match token, hnumber with
    | .number literal, _ =>
      -- the scanner takes the digits and points of the literal, and the rest adds none
      show scanFrom position (literal.toList ++ rest) = _
      obtain ⟨hne, hall⟩ := h
      obtain ⟨c, cs, hcs⟩ := List.exists_cons_of_ne_nil hne
      have hstop : rest.takeWhile Token.isLiteral = [] ∧ rest.dropWhile Token.isLiteral = rest := by
        cases rest with
        | nil => exact ⟨rfl, rfl⟩
        | cons b rest =>
          have hb : ¬Token.isLiteral b = true := Bool.not_eq_true _ ▸ hrest rfl b rfl
          exact ⟨List.takeWhile_cons_of_neg hb, List.dropWhile_cons_of_neg hb⟩
      rw [hcs] at hall
      obtain ⟨hc, hall⟩ := List.forall_mem_cons.mp hall
      have htake : (cs ++ rest).takeWhile Token.isLiteral = cs := by
        rw [List.takeWhile_append_of_pos hall, hstop.1, List.append_nil]
      have hdrop : (cs ++ rest).dropWhile Token.isLiteral = rest := by
        rw [List.dropWhile_append_of_pos hall, hstop.2]
      rw [hcs, List.cons_append, scanFrom_literal hc, htake, hdrop, ← hcs, String.ofList_toList]
      rfl
  · obtain ⟨c, htext, hmark⟩ := Token.exists_ofMark? (Bool.not_eq_true _ ▸ hnumber)
    rw [htext, List.singleton_append, scanFrom_mark hmark, List.length_singleton]

/-! ## Whole texts -/

/-- **What is rendered is scanned back**, and the rest of the text after it. -/
theorem scanFrom_charsOf {pieces : List Piece} (h : Piece.Separate pieces)
    (hrest : ∀ c ∈ rest.head?, Token.isLiteral c = false) (position : Nat) :
    scanFrom position (Piece.charsOf pieces ++ rest) =
      (scanFrom (position + (Piece.charsOf pieces).length) rest).map
        (Piece.place position pieces ++ ·) := by
  induction pieces generalizing position with
  | nil =>
    show scanFrom position rest = (scanFrom position rest).map _
    cases scanFrom position rest <;> rfl
  | cons piece pieces ih =>
    obtain ⟨htoken, hgap, hnext, htail⟩ := Piece.separate_cons.mp h
    -- Nothing prolongs the first token: its gap, the next token or the rest ends it.
    have hstop : piece.token.isNumber = true →
        ∀ c ∈ (piece.gap ++ (Piece.charsOf pieces ++ rest)).head?, Token.isLiteral c = false := by
      intro hnumber
      by_cases hempty : piece.gap = []
      · rw [hempty]
        refine Piece.isLiteral_head?_charsOf (fun next hmem => ?_) hrest
        exact Bool.not_eq_true _ ▸ fun hnext' => hnext next hmem hnumber hnext' hempty
      · obtain ⟨b, gap, hb⟩ := List.exists_cons_of_ne_nil hempty
        rw [hb]
        intro c hc
        cases hc
        exact Token.isLiteral_of_isGap (hgap b (hb ▸ List.mem_cons_self))
    rw [Piece.charsOf_cons, List.append_assoc, List.append_assoc, scanFrom_token htoken hstop,
      scanFrom_gap hgap, ih htail, Piece.place_cons htoken hgap]
    have hlength : position + (piece.token.text.toList ++
          (piece.gap ++ Piece.charsOf pieces)).length =
        position + piece.token.text.toList.length + piece.gap.length +
          (Piece.charsOf pieces).length := by
      rw [List.length_append, List.length_append]
      omega
    rw [hlength]
    cases scanFrom (position + piece.token.text.toList.length + piece.gap.length +
      (Piece.charsOf pieces).length) rest <;> rfl

/-- **Whether a row of characters is a rendering of lexemes** that starts at a byte offset. -/
def IsRendering (position : Nat) (cs : List Char) (lexemes : List Lexeme) : Prop :=
  ∃ lead pieces, Piece.IsGap lead ∧ Piece.Separate pieces ∧ cs = lead ++ Piece.charsOf pieces ∧
    lexemes = Piece.place (position + lead.length) pieces

/-- The empty row renders no lexemes. -/
theorem IsRendering.nil (position : Nat) : IsRendering position [] [] :=
  ⟨[], [], List.forall_mem_nil _, trivial, rfl, rfl⟩

/-- A gap may precede a rendering. -/
theorem IsRendering.gap {lexemes : List Lexeme} (hc : Token.isGap c = true)
    (h : IsRendering (position + 1) cs lexemes) : IsRendering position (c :: cs) lexemes := by
  obtain ⟨lead, pieces, hlead, hpieces, rfl, rfl⟩ := h
  refine ⟨c :: lead, pieces, List.forall_mem_cons.mpr ⟨hc, hlead⟩, hpieces, rfl, ?_⟩
  rw [List.length_cons, Nat.add_assoc, Nat.add_comm 1]

/-- A token may precede a rendering that does not prolong it. -/
theorem IsRendering.token {token : Token} {lexemes : List Lexeme} (htoken : token.WellFormed)
    (hhead : token.isNumber = true → ∀ c ∈ cs.head?, Token.isLiteral c = false)
    (h : IsRendering (position + token.text.toList.length) cs lexemes) :
    IsRendering position (token.text.toList ++ cs) (⟨token, position⟩ :: lexemes) := by
  obtain ⟨lead, pieces, hlead, hpieces, rfl, rfl⟩ := h
  refine ⟨[], ⟨token, lead⟩ :: pieces, List.forall_mem_nil _,
    Piece.separate_cons_of_head? htoken hlead hpieces hhead, ?_, ?_⟩
  · rw [List.nil_append, Piece.charsOf_cons]
  · have hplace := @Piece.place_cons ⟨token, lead⟩ htoken hlead position pieces
    exact hplace.symm

/-- **What is scanned is a rendering.** -/
theorem isRendering_of_scanFrom {lexemes : List Lexeme}
    (h : scanFrom position cs = .ok lexemes) : IsRendering position cs lexemes := by
  -- the cases are those of the scanner: the end, a gap, a literal, a mark, anything else
  induction position, cs using scanFrom.induct generalizing lexemes with
  | case1 position =>
    rw [scanFrom_nil] at h
    cases h
    exact .nil position
  | case2 position c rest hgap ih =>
    rw [scanFrom_isGap hgap] at h
    exact (ih h).gap hgap
  | case3 position c rest hgap hliteral literal =>
    rename_i ih
    rw [scanFrom_literal hliteral] at h
    cases htail : scanFrom (position + (c :: rest.takeWhile Token.isLiteral).length)
      (rest.dropWhile Token.isLiteral) with
    | error cause =>
      rw [htail] at h
      cases h
    | ok tail =>
      rw [htail] at h
      cases h
      have htoken : (Token.number
          (String.ofList (c :: rest.takeWhile Token.isLiteral))).WellFormed := by
        refine ⟨?_, ?_⟩
        · rw [String.toList_ofList]
          exact List.cons_ne_nil _ _
        · rw [String.toList_ofList]
          exact List.forall_mem_cons.mpr ⟨hliteral, fun _ hb => List.mem_takeWhile_imp hb⟩
      have hwhole : c :: rest = (Token.number
          (String.ofList (c :: rest.takeWhile Token.isLiteral))).text.toList ++
            rest.dropWhile Token.isLiteral := by
        rw [Token.text, String.toList_ofList, List.cons_append, List.takeWhile_append_dropWhile]
      rw [hwhole]
      refine IsRendering.token htoken (fun _ b hb => ?_) ?_
      · -- a literal is as long as possible, so that no other follows it directly
        have hnot := List.head?_dropWhile_not Token.isLiteral rest
        rw [hb] at hnot
        exact hnot
      · rw [Token.text, String.toList_ofList]
        exact ih htail
  | case4 position c rest hgap hliteral token hmark ih =>
    rw [scanFrom_mark hmark] at h
    cases htail : scanFrom (position + 1) rest with
    | error cause =>
      rw [htail] at h
      cases h
    | ok tail =>
      rw [htail] at h
      cases h
      obtain ⟨hnumber, htext⟩ := Token.ofMark?_eq_some_iff.mp hmark
      show IsRendering position ([c] ++ rest) _
      rw [← htext]
      refine IsRendering.token (Token.wellFormed_of_isNumber hnumber) (fun hyes => ?_) ?_
      · rw [hnumber] at hyes
        cases hyes
      · rw [htext]
        exact ih htail
  | case5 position c rest hgap hliteral hmark =>
    have hc : ¬Token.IsAllowed c := by
      rw [Token.isAllowed_iff, hmark]
      rintro (hc | hc | hc)
      · exact hgap hc
      · exact hliteral hc
      · cases hc
    rw [scanFrom_not_isAllowed hc] at h
    cases h

/-- A row of allowed characters can be scanned. -/
theorem exists_ok_of_isAllowed (hcs : ∀ c ∈ cs, Token.IsAllowed c) (position : Nat) :
    ∃ lexemes, scanFrom position cs = .ok lexemes := by
  induction position, cs using scanFrom.induct with
  | case1 position => exact ⟨[], scanFrom_nil position⟩
  | case2 position c rest hgap ih =>
    rw [scanFrom_isGap hgap]
    exact ih (List.forall_mem_cons.mp hcs).2
  | case3 position c rest hgap hliteral literal =>
    rename_i ih
    obtain ⟨tail, htail⟩ := ih fun b hb =>
      (List.forall_mem_cons.mp hcs).2 b ((List.dropWhile_sublist _).subset hb)
    rw [scanFrom_literal hliteral, htail]
    exact ⟨_, rfl⟩
  | case4 position c rest hgap hliteral token hmark ih =>
    obtain ⟨tail, htail⟩ := ih (List.forall_mem_cons.mp hcs).2
    rw [scanFrom_mark hmark, htail]
    exact ⟨_, rfl⟩
  | case5 position c rest hgap hliteral hmark =>
    rcases Token.isAllowed_iff.mp (List.forall_mem_cons.mp hcs).1 with hc | hc | hc
    · exact absurd hc hgap
    · exact absurd hc hliteral
    · rw [hmark] at hc
      cases hc

/-- **The first character that is not allowed is reported**, with the number of bytes before it. -/
theorem scanFrom_of_not_isAllowed (hcs : ∀ b ∈ cs, Token.IsAllowed b) (hc : ¬Token.IsAllowed c)
    (position : Nat) (rest : List Char) :
    scanFrom position (cs ++ c :: rest) =
      .error (.invalidCharacter c (position + (String.ofList cs).utf8ByteSize)) := by
  -- what comes before can be scanned by itself: it is a rendering, and the scanner passes over it
  obtain ⟨lexemes, hok⟩ := exists_ok_of_isAllowed hcs position
  obtain ⟨lead, pieces, hlead, hpieces, rfl, -⟩ := isRendering_of_scanFrom hok
  have hstop : ∀ b ∈ (c :: rest).head?, Token.isLiteral b = false := by
    intro b hb
    cases hb
    exact Bool.not_eq_true _ ▸ fun hliteral => hc (Token.isAllowed_iff.mpr (.inr (.inl hliteral)))
  rw [utf8ByteSize_of_isAllowed hcs, List.append_assoc, scanFrom_gap hlead,
    scanFrom_charsOf hpieces hstop, scanFrom_not_isAllowed hc, List.length_append, Nat.add_assoc]
  rfl

/-- **A gap at the end of a text makes no difference.** -/
theorem scan_append_gap {gap : List Char} (h : Piece.IsGap gap) (cs : List Char) :
    scan (String.ofList (cs ++ gap)) = scan (String.ofList cs) := by
  rw [scan, scan, String.toList_ofList, String.toList_ofList]
  by_cases hcs : ∀ c ∈ cs, Token.IsAllowed c
  · obtain ⟨lexemes, hok⟩ := exists_ok_of_isAllowed hcs 0
    obtain ⟨lead, pieces, hlead, hpieces, rfl, rfl⟩ := isRendering_of_scanFrom hok
    have hrest : ∀ c ∈ gap.head?, Token.isLiteral c = false :=
      fun c hc => Token.isLiteral_of_isGap (h c (List.mem_of_mem_head? hc))
    have hend := scanFrom_gap h (0 + lead.length + (Piece.charsOf pieces).length) []
    rw [List.append_nil, scanFrom_nil] at hend
    rw [hok, List.append_assoc, scanFrom_gap hlead, scanFrom_charsOf hpieces hrest, hend]
    show Except.ok (Piece.place (0 + lead.length) pieces ++ []) = _
    rw [List.append_nil]
  · -- the first character that is not allowed is reported, whatever comes after it
    push Not at hcs
    obtain ⟨before, c, after, rfl, hbefore, hc⟩ := Token.exists_first_not_isAllowed hcs
    rw [List.append_assoc, List.cons_append, scanFrom_of_not_isAllowed hbefore hc,
      scanFrom_of_not_isAllowed hbefore hc]

/-- A text fails to scan just if some character of it is not allowed. -/
theorem exists_scan_error_iff {source : String} :
    (∃ cause, scan source = .error cause) ↔ ∃ c ∈ source.toList, ¬Token.IsAllowed c := by
  constructor
  · rintro ⟨cause, hcause⟩
    by_contra hnone
    have hall : ∀ c ∈ source.toList, Token.IsAllowed c := by
      intro c hc
      by_contra hnot
      exact hnone ⟨c, hc, hnot⟩
    obtain ⟨lexemes, hok⟩ := exists_ok_of_isAllowed hall 0
    rw [scan, hok] at hcause
    cases hcause
  · intro hbad
    obtain ⟨before, c, after, hsource, hbefore, hc⟩ := Token.exists_first_not_isAllowed hbad
    refine ⟨.invalidCharacter c (0 + (String.ofList before).utf8ByteSize), ?_⟩
    rw [scan, hsource, scanFrom_of_not_isAllowed hbefore hc]

/-- Lexemes stand one after the other from their first position on. -/
theorem pairwise_position_place {pieces : List Piece} (h : Piece.Separate pieces)
    (position : Nat) :
    (∀ lexeme ∈ Piece.place position pieces, position ≤ lexeme.position) ∧
      (Piece.place position pieces).Pairwise (·.position < ·.position) := by
  induction pieces generalizing position with
  | nil => exact ⟨List.forall_mem_nil _, .nil⟩
  | cons piece pieces ih =>
    obtain ⟨htoken, hgap, -, hpieces⟩ := Piece.separate_cons.mp h
    rw [Piece.place_cons htoken hgap]
    obtain ⟨hle, hpairwise⟩ :=
      ih hpieces (position + piece.token.text.toList.length + piece.gap.length)
    -- a token is not empty, so that the next one stands further on
    have hpos : 0 < piece.token.text.toList.length :=
      List.length_pos_iff.mpr htoken.text_ne_nil
    refine ⟨List.forall_mem_cons.mpr ⟨Nat.le_refl _, fun lexeme hmem => ?_⟩,
      List.pairwise_cons.mpr ⟨fun lexeme hmem => ?_, hpairwise⟩⟩
    · have := hle lexeme hmem
      omega
    · have := hle lexeme hmem
      show position < lexeme.position
      omega

/-- **The lexemes of a text stand at increasing positions.** -/
theorem pairwise_position_of_scan {source : String} {lexemes : List Lexeme}
    (h : scan source = .ok lexemes) : lexemes.Pairwise (·.position < ·.position) := by
  obtain ⟨lead, pieces, -, hpieces, -, rfl⟩ := isRendering_of_scanFrom h
  exact (pairwise_position_place hpieces _).2

/-- The tokens of pieces that can be told apart can be scanned. -/
theorem wellFormed_place {pieces : List Piece} (h : Piece.Separate pieces) (position : Nat) :
    ∀ lexeme ∈ Piece.place position pieces, lexeme.token.WellFormed := by
  induction pieces generalizing position with
  | nil => exact List.forall_mem_nil _
  | cons piece pieces ih =>
    obtain ⟨htoken, -, -, hpieces⟩ := Piece.separate_cons.mp h
    exact List.forall_mem_cons.mpr ⟨htoken, ih hpieces _⟩

/-- **The literals of a text consist of digits and points.** -/
theorem wellFormed_of_scan {source : String} {lexemes : List Lexeme}
    (h : scan source = .ok lexemes) : ∀ lexeme ∈ lexemes, lexeme.token.WellFormed := by
  obtain ⟨lead, pieces, -, hpieces, -, rfl⟩ := isRendering_of_scanFrom h
  exact wellFormed_place hpieces _

/-- **Scanning undoes rendering.** The lexemes of a rendering are those that were rendered, at the
byte offsets where their texts start, and each text that can be scanned is a rendering of its
lexemes. The texts that cannot are those with a character that is not allowed; the first such
character is reported with the number of bytes before it, by the evaluation in every type too. -/
theorem scan_inverts_render :
    (∀ lead pieces, Piece.IsGap lead → Piece.Separate pieces →
        scan (Piece.render lead pieces) =
          .ok (Piece.place (String.ofList lead).utf8ByteSize pieces)) ∧
      (∀ source lexemes, scan source = .ok lexemes →
        ∃ lead pieces, Piece.IsGap lead ∧ Piece.Separate pieces ∧
          source = Piece.render lead pieces ∧
          lexemes = Piece.place (String.ofList lead).utf8ByteSize pieces) ∧
      (∀ source, (∃ cause, scan source = .error cause) ↔
        ∃ c ∈ source.toList, ¬Token.IsAllowed c) ∧
      ∀ source before c after, source.toList = before ++ c :: after →
        (∀ b ∈ before, Token.IsAllowed b) → ¬Token.IsAllowed c →
          scan source = .error (.invalidCharacter c (String.ofList before).utf8ByteSize) ∧
            ∀ (α : Type) [Numeric α], (evaluateAs α source).outcome =
              .error (.parse (.invalidCharacter c (String.ofList before).utf8ByteSize)) := by
  refine ⟨fun lead pieces hlead hpieces => ?_, fun source lexemes h => ?_,
    fun source => exists_scan_error_iff, fun source before c after hsource hbefore hc => ?_⟩
  · rw [scan, Piece.render, String.toList_ofList, scanFrom_gap hlead,
      utf8ByteSize_of_isAllowed hlead.isAllowed, Nat.zero_add]
    have hscan := @scanFrom_charsOf [] pieces hpieces (fun _ hc => nomatch hc) lead.length
    rw [List.append_nil, scanFrom_nil] at hscan
    rw [hscan]
    show Except.ok (Piece.place lead.length pieces ++ []) = _
    rw [List.append_nil]
  · obtain ⟨lead, pieces, hlead, hpieces, hsource, rfl⟩ := isRendering_of_scanFrom h
    refine ⟨lead, pieces, hlead, hpieces, ?_, ?_⟩
    · rw [Piece.render, ← hsource, String.ofList_toList]
    · rw [utf8ByteSize_of_isAllowed hlead.isAllowed, Nat.zero_add]
  · have hscan : scan source =
        .error (.invalidCharacter c (String.ofList before).utf8ByteSize) := by
      rw [scan, hsource, scanFrom_of_not_isAllowed hbefore hc, Nat.zero_add]
    exact ⟨hscan, fun α _ => outcome_evaluateAs_of_error hscan⟩

end Lexeme

end DeskCalc
