/-! # Lines of a text

A line feed ends a line, and so does a carriage return directly before a line feed together with it.
A carriage return anywhere else belongs to its line. A final line feed opens no further line.

* **`linesOf`** — the lines of a text, without what ends them. -/

namespace DeskCalc

/-- **The lines of a text.** -/
def linesOf : List Char → List (List Char)
  | [] => []
  | '\n' :: rest => [] :: linesOf rest
  | '\r' :: '\n' :: rest => [] :: linesOf rest
  | c :: rest =>
      match linesOf rest with
      | [] => [[c]]
      | line :: lines => (c :: line) :: lines

end DeskCalc
