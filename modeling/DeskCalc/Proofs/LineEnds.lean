import DeskCalc.Text.Blank
import DeskCalc.Text.Lines
import Mathlib.Data.List.DropRight

/-! # Lines by their ends

A text is what stands between its line feeds. Each line but the last one loses a carriage return at
its end, and the last one counts only if it is not empty. Carriage returns at the end of a line are
all that different styles of line ends leave behind; without them, and without blank lines, a text
shows the same in each style, and wherever it is cut at a line end.

* **`feed_induction`** — texts from one line feed to the next.
* **`feedLines`**, **`linesOf_eq_feedLines`** — the lines of a text, by its line feeds.
* **`isWhiteSpace_iff`** — white space, one character after the other.
* **`shownLines`**, **`map_stripReturns_linesOf`** — the lines that are not blank, without carriage
  returns at their ends.
* **`shownLines_withReturns`**, **`shownLines_intercalate`** — they do not depend on the style of line
  ends, and are those of the parts that a text is joined of. -/

namespace DeskCalc

/-! ## From one line feed to the next -/

/-- **Texts are built of segments without a line feed**, each but the last one followed by a line
feed. -/
@[elab_as_elim] theorem feed_induction {motive : List Char → Prop}
    (last : ∀ text, '\n' ∉ text → motive text)
    (feed : ∀ segment rest, '\n' ∉ segment → motive rest → motive (segment ++ '\n' :: rest))
    (text : List Char) : motive text := by
  induction hlength : text.length using Nat.strongRecOn generalizing text with
  | ind n ih =>
    by_cases hfeed : '\n' ∈ text
    · obtain ⟨segment, rest, rfl, hsegment⟩ := List.eq_append_cons_of_mem hfeed
      refine feed segment rest hsegment (ih rest.length ?_ rest rfl)
      rw [← hlength, List.length_append, List.length_cons]
      omega
    · exact last text hfeed

/-! ## Lines -/

/-- A segment without the carriage return at its end, if there is one. -/
def dropReturn (segment : List Char) : List Char :=
  if segment.getLast? = some '\r' then segment.dropLast else segment

/-- **The lines of a text, by its line feeds:** what stands before each of them, without a carriage
return directly before it, and what follows the last one if it is not empty. -/
def feedLines (text : List Char) : List (List Char) :=
  (text.splitOn '\n').dropLast.map dropReturn ++
    (text.splitOn '\n').getLast?.toList.filter fun segment => !segment.isEmpty

theorem dropReturn_nil : dropReturn [] = [] :=
  rfl

theorem dropReturn_return : dropReturn ['\r'] = [] :=
  rfl

/-- Only the end of a segment counts. -/
theorem dropReturn_cons (c : Char) {segment : List Char} (h : c = '\r' → segment ≠ []) :
    dropReturn (c :: segment) = c :: dropReturn segment := by
  cases segment with
  | nil =>
    have hc : c ≠ '\r' := fun hc => h hc rfl
    simp [dropReturn, hc]
  | cons b segment =>
    rw [dropReturn, dropReturn, List.getLast?_cons_cons, List.dropLast_cons_cons]
    split <;> rfl

/-- Without carriage returns there is nothing to drop. -/
theorem dropReturn_of_notMem {segment : List Char} (h : '\r' ∉ segment) :
    dropReturn segment = segment := by
  rw [dropReturn, if_neg fun hlast => h (List.mem_of_getLast? hlast)]

/-- A segment that ends the text is a line if it is not empty. -/
theorem feedLines_of_notMem {text : List Char} (h : '\n' ∉ text) :
    feedLines text = [text].filter fun segment => !segment.isEmpty := by
  rw [feedLines, List.splitOn_eq_singleton h]
  rfl

/-- A segment before a line feed is a line, but for a carriage return at its end. -/
theorem feedLines_append {segment : List Char} (h : '\n' ∉ segment) (rest : List Char) :
    feedLines (segment ++ '\n' :: rest) = dropReturn segment :: feedLines rest := by
  obtain ⟨first, more, hsplit⟩ := List.exists_cons_of_ne_nil (List.splitOn_ne_nil '\n' rest)
  rw [feedLines, feedLines, List.splitOn_append_cons_self_of_not_mem h, hsplit]
  simp [List.getLast?_cons_cons]

/-- Without a line feed there is one line, or none. -/
theorem linesOf_of_notMem {text : List Char} (h : '\n' ∉ text) :
    linesOf text = [text].filter fun segment => !segment.isEmpty := by
  induction text with
  | nil => rfl
  | cons c text ih =>
    have hc := List.ne_of_not_mem_cons h
    have htext := List.not_mem_of_not_mem_cons h
    have hline : linesOf (c :: text) = [c :: text] := by
      rw [linesOf, ih htext]
      · cases text <;> rfl
      · exact Ne.symm hc
      · rintro rest rfl rfl
        exact htext List.mem_cons_self
    rw [hline]
    rfl

/-- A line feed ends a line, and so does a carriage return together with it. -/
theorem linesOf_append_feed {segment : List Char} (h : '\n' ∉ segment) (rest : List Char) :
    linesOf (segment ++ '\n' :: rest) = dropReturn segment :: linesOf rest := by
  induction segment with
  | nil => rw [List.nil_append, linesOf, dropReturn_nil]
  | cons c segment ih =>
    have hc := List.ne_of_not_mem_cons h
    have hsegment := List.not_mem_of_not_mem_cons h
    by_cases hreturn : c = '\r' ∧ segment = []
    · obtain ⟨rfl, rfl⟩ := hreturn
      rw [List.singleton_append, linesOf, dropReturn_return]
    · rw [List.cons_append, linesOf, ih hsegment, dropReturn_cons c fun h h' => hreturn ⟨h, h'⟩]
      · exact Ne.symm hc
      · -- a carriage return ends the line only if the line feed follows directly
        rintro after rfl hafter
        cases segment with
        | nil => exact hreturn ⟨rfl, rfl⟩
        | cons b segment =>
          cases hafter
          exact hsegment List.mem_cons_self

/-- **Lines end at line feeds.** -/
theorem linesOf_eq_feedLines (text : List Char) : linesOf text = feedLines text := by
  induction text using feed_induction with
  | last text h => rw [linesOf_of_notMem h, feedLines_of_notMem h]
  | feed segment rest h ih => rw [linesOf_append_feed h, feedLines_append h, ih]

/-! ## Blank lines -/

/-- The code points of white space. -/
def whiteSpaceCodes : List Nat :=
  [0x9, 0xa, 0xb, 0xc, 0xd, 0x20, 0x85, 0xa0, 0x1680, 0x2000, 0x2001, 0x2002, 0x2003, 0x2004, 0x2005,
    0x2006, 0x2007, 0x2008, 0x2009, 0x200a, 0x2028, 0x2029, 0x202f, 0x205f, 0x3000]

/-- **White space is what has one of the code points.** -/
theorem isWhiteSpace_iff {c : Char} : isWhiteSpace c = true ↔ c.toNat ∈ whiteSpaceCodes := by
  simp only [isWhiteSpace, whiteSpaceRanges, whiteSpaceCodes, List.any_cons, List.any_nil,
    Bool.or_false, Bool.or_eq_true, Bool.and_eq_true, decide_eq_true_eq, List.mem_cons,
    List.not_mem_nil, or_false]
  omega

/-- **Whether a line shows something** other than white space. -/
def Shows (line : List Char) : Prop :=
  ∃ c ∈ line, c.toNat ∉ whiteSpaceCodes

instance : DecidablePred Shows :=
  fun line => List.decidableBEx (fun c : Char => c.toNat ∉ whiteSpaceCodes) line

/-- A line is blank if it shows nothing. -/
theorem isBlank_eq_true_iff {line : List Char} : isBlank line = true ↔ ¬Shows line := by
  simp [isBlank, Shows, isWhiteSpace_iff]

/-! ## What is shown -/

/-- A line without carriage returns at its end. -/
def stripReturns (line : List Char) : List Char :=
  line.rdropWhile (· == '\r')

/-- **What a text shows, line by line:** its lines that are not blank, without carriage returns at
their ends. -/
def shownLines (text : List Char) : List (List Char) :=
  ((text.splitOn '\n').map stripReturns).filter fun line => !isBlank line

/-- **A text with a carriage return before each line feed.** -/
def withReturns (text : List Char) : List Char :=
  text.flatMap fun c => if c = '\n' then ['\r', '\n'] else [c]

/-- What is stripped off a line are carriage returns. -/
theorem exists_stripReturns_append (line : List Char) :
    ∃ returns, (∀ c ∈ returns, c = '\r') ∧ line = stripReturns line ++ returns := by
  refine ⟨line.rtakeWhile (· == '\r'), fun c hc => ?_, List.rdropWhile_append_rtakeWhile.symm⟩
  have hreturn : (c == '\r') = true := List.mem_rtakeWhile_imp (p := (· == '\r')) hc
  exact beq_iff_eq.mp hreturn

theorem stripReturns_concat (line : List Char) :
    stripReturns (line ++ ['\r']) = stripReturns line :=
  List.rdropWhile_concat_pos _ _ _ rfl

/-- A carriage return that belongs to the line end is stripped off as well. -/
theorem stripReturns_dropReturn (segment : List Char) :
    stripReturns (dropReturn segment) = stripReturns segment := by
  unfold dropReturn
  split
  · rename_i hlast
    obtain ⟨before, rfl⟩ := List.getLast?_eq_some_iff.mp hlast
    rw [List.dropLast_concat, stripReturns_concat]
  · rfl

/-- Carriage returns are white space, so that a line without them is as blank as before. -/
theorem isBlank_stripReturns (line : List Char) : isBlank (stripReturns line) = isBlank line := by
  obtain ⟨returns, hreturns, hline⟩ := exists_stripReturns_append line
  have hblank : returns.all isWhiteSpace = true := by
    rw [List.all_eq_true]
    rintro c hc
    rw [hreturns c hc]
    rfl
  rw [isBlank, isBlank, congrArg (List.all · isWhiteSpace) hline, List.all_append, hblank,
    Bool.and_true]

/-- The last segment of a text is all that it shows without a line feed. -/
theorem shownLines_of_notMem {text : List Char} (h : '\n' ∉ text) :
    shownLines text = [stripReturns text].filter fun line => !isBlank line := by
  rw [shownLines, List.splitOn_eq_singleton h, List.map_singleton]

/-- **What is shown before and after a line feed** is shown by the whole. -/
theorem shownLines_append (before after : List Char) :
    shownLines (before ++ '\n' :: after) = shownLines before ++ shownLines after := by
  rw [shownLines, List.splitOn_append_cons_self, List.map_append, List.filter_append, shownLines,
    shownLines]

/-- **The lines that are not blank** are those that are shown, but for carriage returns at their
ends. -/
theorem map_stripReturns_linesOf (text : List Char) :
    ((linesOf text).filter fun line => !isBlank line).map stripReturns = shownLines text := by
  have hfilter : ∀ lines : List (List Char), (lines.filter fun line => !isBlank line).map stripReturns =
      (lines.map stripReturns).filter fun line => !isBlank line := by
    intro lines
    rw [List.filter_map]
    simp only [Function.comp_def, isBlank_stripReturns]
  induction text using feed_induction with
  | last text h =>
    rw [linesOf_of_notMem h, shownLines_of_notMem h, hfilter]
    cases text <;> rfl
  | feed segment rest h ih =>
    rw [linesOf_append_feed h, shownLines_append, ← ih, hfilter, hfilter, shownLines_of_notMem h,
      List.map_cons, stripReturns_dropReturn, ← List.singleton_append, List.filter_append]

/-- Without line feeds there is nothing to add. -/
theorem withReturns_of_notMem {text : List Char} (h : '\n' ∉ text) : withReturns text = text := by
  induction text with
  | nil => rfl
  | cons c text ih =>
    have hc := List.ne_of_not_mem_cons h
    have htext := List.not_mem_of_not_mem_cons h
    rw [withReturns, List.flatMap_cons, if_neg (Ne.symm hc), ← withReturns, ih htext,
      List.singleton_append]

/-- **A carriage return before each line feed** leaves what a text shows as it is, also where there
was one before. -/
theorem shownLines_withReturns (text : List Char) :
    shownLines (withReturns text) = shownLines text := by
  induction text using feed_induction with
  | last text h => rw [withReturns_of_notMem h]
  | feed segment rest h ih =>
    have hreturn : withReturns (segment ++ '\n' :: rest) =
        (segment ++ ['\r']) ++ '\n' :: withReturns rest := by
      rw [withReturns, List.flatMap_append, List.flatMap_cons, ← withReturns, ← withReturns,
        withReturns_of_notMem h]
      simp
    have hfree : '\n' ∉ segment ++ ['\r'] := by simp [h]
    rw [hreturn, shownLines_append, shownLines_append, ih, shownLines_of_notMem h,
      shownLines_of_notMem hfree, stripReturns_concat]

/-- **Texts that are joined with line feeds** show what each of them shows. -/
theorem shownLines_intercalate (texts : List (List Char)) :
    shownLines (['\n'].intercalate texts) = texts.flatMap shownLines := by
  induction texts with
  | nil => rfl
  | cons text texts ih =>
    cases texts with
    | nil => simp
    | cons next texts =>
      rw [List.intercalate_cons_cons, List.append_assoc, List.singleton_append, shownLines_append, ih,
        ← List.flatMap_cons]

end DeskCalc
