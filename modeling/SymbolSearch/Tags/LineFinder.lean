import SymbolSearch.Host
import SymbolSearch.Tags.SearchPattern

/-!
# Line finders

A line finder resolves search patterns to line numbers. It reads each file once and answers from that reading; a file that
cannot be read is remembered as such.
-/

namespace SymbolSearch.Tags

/-- How a finder reads a file. -/
abbrev ReadText := Text → Except Fault Text

/-- The lines of the files read so far; none for a file that could not be read. -/
structure LineFinder where
  known : List (Text × Option (List Text))
  deriving Repr

namespace LineFinder

/-- A finder that has read nothing. -/
def fresh : LineFinder := ⟨[]⟩

/-- The number of readings so far. -/
def readings (finder : LineFinder) : Nat :=
  finder.known.length

/-- The lines of a file, from memory or by reading it now. Only failures of the disk are remembered. -/
def linesOf (finder : LineFinder) (readText : ReadText) (path : Text) :
    Except Fault (Option (List Text) × LineFinder) :=
  match finder.known.find? (fun entry => entry.1 = path) with
  | some (_, lines) => .ok (lines, finder)
  | none =>
    match readText path with
    | .ok text => .ok (some text.lines, ⟨finder.known ++ [(path, some text.lines)]⟩)
    | .error fault =>
      if fault.isDiskFailure then .ok (none, ⟨finder.known ++ [(path, none)]⟩) else .error fault

/-- The line of a file that a command finds. A command that is no search pattern finds nothing and reads nothing. -/
def find (finder : LineFinder) (readText : ReadText) (path command : Text) : Except Fault (Option Nat × LineFinder) :=
  match SearchPattern.ofCommand? command with
  | none => .ok (none, finder)
  | some pattern => do
    let (lines, finder) ← finder.linesOf readText path
    .ok (lines.bind pattern.firstLine?, finder)

end LineFinder

end SymbolSearch.Tags
