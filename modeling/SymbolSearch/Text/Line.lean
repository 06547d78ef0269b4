import SymbolSearch.Text.Basic

/-!
# Lines

Two ways to cut a text into lines: at every line break of any script, as for search patterns, and at line feeds only, as for
line numbers of definitions. Reading a file turns every carriage return, with or without a line feed, into a line feed.
-/

namespace SymbolSearch.Text

/-- A character that ends a line: line feed, vertical tab, form feed, carriage return, the first three information
separators, the next-line control and the line and paragraph separators. -/
def isLineBreak (c : Char) : Bool :=
  let n := c.toNat
  (0x0A ≤ n && n ≤ 0x0D) || (0x1C ≤ n && n ≤ 0x1E) || n = 0x85 || n = 0x2028 || n = 0x2029

/-- Cuts a sequence behind each break, where `line` holds the current line in reverse and a feed right after a return belongs
to the same break. A break at the very end opens no further line. -/
def cutLines {α : Type} (isBreak isReturn isFeed : α → Bool) (line : List α) (afterReturn : Bool) :
    List α → List (List α)
  | [] => if line.isEmpty then [] else [line.reverse]
  | c :: rest =>
    if afterReturn && isFeed c then cutLines isBreak isReturn isFeed line false rest
    else if isBreak c then line.reverse :: cutLines isBreak isReturn isFeed [] (isReturn c) rest
    else cutLines isBreak isReturn isFeed (c :: line) false rest

/-- The lines of a text, cut at line breaks of any script. -/
def lines (s : Text) : List Text :=
  cutLines isLineBreak (· = '\r') (· = '\n') [] false s

/-- The text with every carriage return, or carriage return and line feed, as one line feed. -/
def normalizeNewlines : Text → Text
  | [] => []
  | '\r' :: '\n' :: rest => '\n' :: normalizeNewlines rest
  | c :: rest => (if c = '\r' then '\n' else c) :: normalizeNewlines rest

/-- The number of the line, counted by line feeds, on which the text after `front` starts. -/
def lineAfter (front : Text) : Nat :=
  front.count '\n' + 1

end SymbolSearch.Text
