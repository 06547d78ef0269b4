import SymbolSearch.Text.Basic

/-!
# Search patterns

A command may be a search for a line. The pattern stands between two slashes or two question marks; a caret in front ties it
to the start of a line and a dollar sign behind to its end.
-/

namespace SymbolSearch.Tags

/-- A search for a line that holds a text, possibly at its start or its end. -/
structure SearchPattern where
  text : Text
  atStart : Bool
  atEnd : Bool
  deriving DecidableEq, Repr

namespace SearchPattern

/-- The text that an escaped pattern stands for: first each escaped delimiter is taken for itself, then each doubled
backslash for a single one. -/
def unescape (delimiter : Char) (s : Text) : Text :=
  Text.replaceAll ['\\', '\\'] ['\\'] (Text.replaceAll ['\\', delimiter] [delimiter] s)

/-- What stands between the delimiters of a command. -/
def body? (command : Text) : Option (Char × Text) :=
  match command with
  | d :: rest =>
    if (d = '/' || d = '?') && rest.getLast? = some d then some (d, rest.dropLast) else none
  | [] => none

/-- Reads a search pattern; a command of any other form is none. -/
def ofCommand? (command : Text) : Option SearchPattern :=
  match body? command with
  | none => none
  | some (delimiter, body) =>
    let atStart := body.head? = some '^'
    let body := if atStart then body.tail else body
    let atEnd := Text.endsWith ['$'] body && !Text.endsWith ['\\', '$'] body
    let body := if atEnd then body.dropLast else body
    some ⟨unescape delimiter body, atStart, atEnd⟩

/-- A line satisfies the pattern. -/
def accepts (pattern : SearchPattern) (line : Text) : Bool :=
  match pattern.atStart, pattern.atEnd with
  | true, true => line = pattern.text
  | true, false => Text.startsWith pattern.text line
  | false, true => Text.endsWith pattern.text line
  | false, false => pattern.text.occursIn line

/-- The number of the first line that satisfies the pattern, counted from one. -/
def firstLine? (pattern : SearchPattern) (lines : List Text) : Option Nat :=
  (lines.findIdx? pattern.accepts).map (· + 1)

end SearchPattern

end SymbolSearch.Tags
