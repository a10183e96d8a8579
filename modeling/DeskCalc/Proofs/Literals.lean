import DeskCalc.Proofs.Scanning

/-! # Literals that have a value

The scanner takes any run of digits and points for a literal. Whether a number type can read it
shows only when it is evaluated.

* **`Numeral.ofMagnitude?_eq_some_iff`** — the rows of characters that spell a numeral.
* **`Token.IsDecimal`** — the literals that spell one: with a digit, and with one point at most.
* **`Expression.Legible`** — the trees whose literals all have a value in a type.
* **`Derives.legible_iff`** — in a type that has a value for every numeral, these are the trees of
  rows with decimal literals only. -/

namespace DeskCalc

/-- Digits are characters of literals. -/
theorem Token.isLiteral_of_isDigit {c : Char} (h : c.isDigit = true) : isLiteral c = true := by
  rw [isLiteral, h, Bool.true_or]

/-! ## Numerals -/

namespace Numeral

variable {negative : Bool} {body whole fraction : List Char}

/-- A point is no digit. -/
theorem point_notMem_of_isDigit (h : ∀ c ∈ body, c.isDigit = true) : '.' ∉ body := by
  intro hmem
  have hpoint := h '.' hmem
  revert hpoint
  decide

/-- Characters of literals are digits where there is no point. -/
theorem isDigit_of_isLiteral (hliteral : ∀ c ∈ body, Token.isLiteral c = true)
    (hpoint : '.' ∉ body) : ∀ c ∈ body, c.isDigit = true := by
  intro c hc
  have hne : c ≠ '.' := fun h => hpoint (h ▸ hc)
  simpa [Token.isLiteral, hne] using hliteral c hc

/-- Digits without a point spell a numeral. -/
theorem ofMagnitude?_digits (hdigits : ∀ c ∈ body, c.isDigit = true) (hne : body ≠ []) :
    ofMagnitude? negative body = some ⟨negative, ofDigits body, none⟩ := by
  have htake : body.takeWhile Char.isDigit = body := List.takeWhile_eq_self_iff.mpr hdigits
  have hdrop : body.dropWhile Char.isDigit = [] := List.dropWhile_eq_nil_iff.mpr hdigits
  simp only [ofMagnitude?, htake, hdrop, List.isEmpty_iff, if_neg hne]

/-- Digits with a point among them spell a numeral. -/
theorem ofMagnitude?_point (hdigits : ∀ c ∈ whole ++ fraction, c.isDigit = true)
    (hne : whole ++ fraction ≠ []) :
    ofMagnitude? negative (whole ++ '.' :: fraction) =
      some ⟨negative, ofDigits (whole ++ fraction), some fraction.length⟩ := by
  obtain ⟨hwhole, hfraction⟩ := List.forall_mem_append.mp hdigits
  have hpoint : ¬Char.isDigit '.' = true := by decide
  have htake : (whole ++ '.' :: fraction).takeWhile Char.isDigit = whole := by
    rw [List.takeWhile_append_of_pos hwhole, List.takeWhile_cons_of_neg hpoint, List.append_nil]
  have hdrop : (whole ++ '.' :: fraction).dropWhile Char.isDigit = '.' :: fraction := by
    rw [List.dropWhile_append_of_pos hwhole, List.dropWhile_cons_of_neg hpoint]
  have hall : fraction.all Char.isDigit = true := List.all_eq_true.mpr hfraction
  have hsome : (whole ++ fraction).isEmpty = false := List.isEmpty_eq_false_iff.mpr hne
  simp only [ofMagnitude?, htake, hdrop, hall, hsome, Bool.not_false, Bool.and_self, if_true]

/-- **The rows of characters that spell a numeral:** digits without a point, or with one among
them. -/
theorem ofMagnitude?_eq_some_iff {n : Numeral} :
    ofMagnitude? negative body = some n ↔
      (∀ c ∈ body, c.isDigit = true) ∧ body ≠ [] ∧ n = ⟨negative, ofDigits body, none⟩ ∨
        ∃ whole fraction, body = whole ++ '.' :: fraction ∧
          (∀ c ∈ whole ++ fraction, c.isDigit = true) ∧ whole ++ fraction ≠ [] ∧
          n = ⟨negative, ofDigits (whole ++ fraction), some fraction.length⟩ := by
  constructor
  · intro h
    have hbody := List.takeWhile_append_dropWhile (p := Char.isDigit) (l := body)
    have hwhole : ∀ c ∈ body.takeWhile Char.isDigit, c.isDigit = true :=
      fun c hc => List.mem_takeWhile_imp hc
    unfold ofMagnitude? at h
    -- nothing follows the leading digits, or a point does, or something else
    split at h
    · rename_i hrest
      rw [hrest, List.append_nil] at hbody
      rw [hbody] at h hwhole
      by_cases hne : body.isEmpty = true
      · rw [if_pos hne] at h
        cases h
      · rw [if_neg hne] at h
        cases h
        exact .inl ⟨hwhole, fun hnil => hne (List.isEmpty_iff.mpr hnil), rfl⟩
    · rename_i fraction hrest
      rw [hrest] at hbody
      simp only [Bool.and_eq_true, List.all_eq_true, Bool.not_eq_true', List.isEmpty_eq_false_iff]
        at h
      by_cases hdigits : (∀ c ∈ fraction, c.isDigit = true) ∧
          body.takeWhile Char.isDigit ++ fraction ≠ []
      · rw [if_pos hdigits] at h
        cases h
        exact .inr ⟨_, fraction, hbody.symm, List.forall_mem_append.mpr ⟨hwhole, hdigits.1⟩,
          hdigits.2, rfl⟩
      · rw [if_neg hdigits] at h
        cases h
    · cases h
  · rintro (⟨hdigits, hne, rfl⟩ | ⟨whole, fraction, rfl, hdigits, hne, rfl⟩)
    · exact ofMagnitude?_digits hdigits hne
    · exact ofMagnitude?_point hdigits hne

/-- **A row of digits and points spells a numeral** just if it has a digit, and one point at
most. -/
theorem exists_ofMagnitude?_iff (hliteral : ∀ c ∈ body, Token.isLiteral c = true) :
    (∃ n, ofMagnitude? negative body = some n) ↔
      (∃ c ∈ body, c.isDigit = true) ∧ body.count '.' ≤ 1 := by
  have hsub : ∀ whole fraction : List Char, whole ++ fraction ⊆ whole ++ '.' :: fraction :=
    fun whole fraction => ((List.sublist_cons_self '.' fraction).append_left whole).subset
  constructor
  · rintro ⟨n, h⟩
    rcases ofMagnitude?_eq_some_iff.mp h with
      ⟨hdigits, hne, -⟩ | ⟨whole, fraction, rfl, hdigits, hne, -⟩
    · obtain ⟨c, hc⟩ := List.exists_mem_of_ne_nil _ hne
      have hcount := List.count_eq_zero.mpr (point_notMem_of_isDigit hdigits)
      exact ⟨⟨c, hc, hdigits c hc⟩, by omega⟩
    · obtain ⟨c, hc⟩ := List.exists_mem_of_ne_nil _ hne
      have hcount := List.count_eq_zero.mpr (point_notMem_of_isDigit hdigits)
      rw [List.count_append] at hcount
      refine ⟨⟨c, hsub _ _ hc, hdigits c hc⟩, ?_⟩
      rw [List.count_append, List.count_cons_self]
      omega
  · rintro ⟨⟨digit, hmem, hdigit⟩, hcount⟩
    by_cases hpoint : '.' ∈ body
    · -- there is only one point, so that what stands around it are digits
      obtain ⟨whole, fraction, rfl⟩ := List.append_of_mem hpoint
      rw [List.count_append, List.count_cons_self] at hcount
      have hnone : '.' ∉ whole ++ fraction := by
        rw [← List.count_eq_zero, List.count_append]
        omega
      have hdigits := isDigit_of_isLiteral (fun c hc => hliteral c (hsub _ _ hc)) hnone
      have hne : digit ≠ '.' := by
        rintro rfl
        revert hdigit
        decide
      have hmem' : digit ∈ whole ++ fraction := by simpa [hne] using hmem
      exact ⟨_, ofMagnitude?_point hdigits (List.ne_nil_of_mem hmem')⟩
    · exact ⟨_, ofMagnitude?_digits (isDigit_of_isLiteral hliteral hpoint)
        (List.ne_nil_of_mem hmem)⟩

/-- A literal has no sign of its own. -/
theorem ofText?_of_isLiteral {literal : String}
    (hliteral : ∀ c ∈ literal.toList, Token.isLiteral c = true) :
    ofText? literal = ofMagnitude? false literal.toList := by
  have hminus : ¬Token.isLiteral '-' = true := by decide
  have hplus : ¬Token.isLiteral '+' = true := by decide
  rw [ofText?]
  unfold ofChars?
  split
  · rename_i body hbody
    exact absurd (hliteral '-' (hbody ▸ List.mem_cons_self)) hminus
  · rename_i body hbody
    exact absurd (hliteral '+' (hbody ▸ List.mem_cons_self)) hplus
  · rfl

/-- The sign of a literal is read as such. -/
theorem ofText?_minus (literal : String) :
    ofText? ("-" ++ literal) = ofMagnitude? true literal.toList := by
  rw [ofText?, String.toList_append]
  rfl

end Numeral

/-! ## Literals -/

/-- **Whether a literal spells a numeral:** it has a digit, and one point at most. Tokens that are
no literals are left out of account. -/
def Token.IsDecimal : Token → Prop
  | number literal => (∃ c ∈ literal.toList, c.isDigit = true) ∧ literal.toList.count '.' ≤ 1
  | _ => True

variable {α : Type} [Numeric α]

/-- A literal has the value that its numeral has. -/
theorem readNumber_ok_iff {literal : String} {position : Nat} {value : α} :
    readNumber literal position = .ok value ↔
      ∃ n, Numeral.ofText? literal = some n ∧ Numeric.ofNumeral? n = some value := by
  rw [readNumber]
  cases hvalue : (Numeral.ofText? literal).bind (Numeric.ofNumeral? (α := α)) with
  | none =>
    rw [Option.bind_eq_none_iff] at hvalue
    constructor
    · rintro ⟨⟩
    · rintro ⟨n, hn, h⟩
      rw [hvalue n hn] at h
      cases h
  | some found =>
    rw [Option.bind_eq_some_iff] at hvalue
    obtain ⟨n, hn, hfound⟩ := hvalue
    constructor
    · rintro ⟨⟩
      exact ⟨n, hn, hfound⟩
    · rintro ⟨m, hm, h⟩
      rw [hn] at hm
      cases hm
      rw [hfound] at h
      cases h
      rfl

/-- A literal without a value is quoted as it is written, where it stands. -/
theorem readNumber_error_iff {literal : String} {position : Nat} {cause : ParseError} :
    (readNumber literal position : Except ParseError α) = .error cause ↔
      (¬∃ value : α, readNumber literal position = .ok value) ∧
        cause = .invalidNumber literal position := by
  unfold readNumber
  split
  · simp
  · simp [eq_comm]

/-! ## Trees -/

variable (α) in
/-- **Whether all literals of a tree have a value in the type `α`.** -/
def Expression.Legible : Expression → Prop
  | literal text position => ∃ value : α, readNumber text position = .ok value
  | binary _ left right => left.Legible ∧ right.Legible

/-- A tree with a value is legible. -/
theorem Expression.legible_of_outcome {tree : Expression} {value : α}
    (h : tree.evaluate.outcome = .ok value) : tree.Legible α := by
  induction tree generalizing value with
  | literal text position => exact ⟨value, outcome_literal_ok_iff.mp h⟩
  | binary op left right ihLeft ihRight =>
    obtain ⟨a, hleft, hrest⟩ := Logged.outcome_bind_eq_ok_iff.mp h
    obtain ⟨b, hright, -⟩ := Logged.outcome_bind_eq_ok_iff.mp hrest
    exact ⟨ihLeft hleft, ihRight hright⟩

section Numerals

variable (hall : ∀ n, ∃ value : α, Numeric.ofNumeral? n = some value)
include hall

/-- A type that has a value for every numeral reads all texts of numerals. -/
theorem exists_readNumber_iff {literal : String} {position : Nat} :
    (∃ value : α, readNumber literal position = .ok value) ↔
      ∃ n, Numeral.ofText? literal = some n := by
  constructor
  · rintro ⟨value, hvalue⟩
    obtain ⟨n, hn, -⟩ := readNumber_ok_iff.mp hvalue
    exact ⟨n, hn⟩
  · rintro ⟨n, hn⟩
    obtain ⟨value, hvalue⟩ := hall n
    exact ⟨value, readNumber_ok_iff.mpr ⟨n, hn, hvalue⟩⟩

/-- **A type that has a value for every numeral reads the trees with decimal literals.** The sign
that belongs to a literal makes no difference. -/
theorem Derives.legible_iff {strength : Nat} {lexemes : List Lexeme} {tree : Expression}
    (h : Derives strength lexemes tree)
    (hscanned : ∀ lexeme ∈ lexemes, lexeme.token.WellFormed) :
    tree.Legible α ↔ ∀ lexeme ∈ lexemes, lexeme.token.IsDecimal := by
  induction h with
  | @unsigned text position =>
    obtain ⟨-, hliteral⟩ := List.forall_mem_singleton.mp hscanned
    rw [Expression.Legible, exists_readNumber_iff hall, Numeral.ofText?_of_isLiteral hliteral,
      Numeral.exists_ofMagnitude?_iff hliteral, List.forall_mem_singleton]
    rfl
  | @signed text minus position =>
    obtain ⟨-, hnumber⟩ := List.forall_mem_cons.mp hscanned
    obtain ⟨-, hliteral⟩ := List.forall_mem_singleton.mp hnumber
    rw [Expression.Legible, exists_readNumber_iff hall, Numeral.ofText?_minus,
      Numeral.exists_ofMagnitude?_iff hliteral, List.forall_mem_cons, List.forall_mem_singleton]
    exact (and_iff_right trivial).symm
  | parenthesized _ ih =>
    simp only [List.cons_append, List.forall_mem_cons, List.forall_mem_append] at hscanned ⊢
    have htree := ih hscanned.2.1
    simp [htree, Token.IsDecimal]
  | binary _ _ ihLeft ihRight =>
    simp only [List.forall_mem_cons, List.forall_mem_append] at hscanned ⊢
    have hleft := ihLeft hscanned.1
    have hright := ihRight hscanned.2.2
    simp [Expression.Legible, hleft, hright, Token.IsDecimal]
  | weaken _ ih => exact ih hscanned

end Numerals

end DeskCalc
