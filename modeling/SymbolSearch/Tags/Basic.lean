import SymbolSearch.Number.Reading
import SymbolSearch.Tags.Line
import SymbolSearch.Tags.LineFinder

/-!
# Tags files

A tags file gives one symbol for each well-formed line. A line that is not well formed is passed over and hides no other.
-/

namespace SymbolSearch.Tags

/-- How search patterns are resolved: not at all, or by reading source files. -/
inductive Resolving where
  | off
  | reading (readText : ReadText)

/-- The path that a file field names, seen from the directory of the tags file. -/
def pathOf (directory file : Text) : Text :=
  Path.normalize (if (Path.ofText file).isAbsolute then file else Path.joinText directory file)

/-- The line that a command of digits gives: at least one, and one also if there are too many digits to read. -/
def lineNumber (command : Text) : Nat :=
  if Number.digitLimit < command.length then 1 else max 1 (Text.digitsValue command)

/-- The line that a command leads to; without a finding it is the first one. -/
def lineOf (resolving : Resolving) (finder : LineFinder) (path command : Text) : Except Fault (Nat × LineFinder) :=
  if !command.isEmpty && command.all Text.isDigit then .ok (lineNumber command, finder)
  else
    match resolving with
    | .off => .ok (1, finder)
    | .reading readText => do
      let (found, finder) ← finder.find readText path command
      .ok (found.getD 1, finder)

/-- The symbol of a tag line. -/
def symbolOf (resolving : Resolving) (directory : Text) (finder : LineFinder) (line : Line) :
    Except Fault (Symbol × LineFinder) := do
  let path := pathOf directory line.file
  let (number, finder) ← lineOf resolving finder path line.command
  let made : Checked Symbol := do
    let location ← Location.make path number
    Symbol.make line.name (some location) line.kind line.attributes
  match made with
  | .ok symbol => .ok (symbol, finder)
  | .error issues => .error (.invalid issues)

/-- The symbols of tag lines in order, with the finder handed from line to line. -/
def symbolsOf (resolving : Resolving) (directory : Text) (finder : LineFinder) :
    List Line → Except Fault (List Symbol × LineFinder)
  | [] => .ok ([], finder)
  | line :: rest => do
    let (symbol, finder) ← symbolOf resolving directory finder line
    let (symbols, finder) ← symbolsOf resolving directory finder rest
    .ok (symbol :: symbols, finder)

/-- The well-formed tag lines of a text. -/
def linesOf (text : Text) : List Line :=
  (text.splitOn '\n').filterMap Line.ofText?

/-- The symbols in the text of a tags file with the given path, seen from a working directory. -/
def parse (workingDir : Text) (resolving : Resolving) (text path : Text) : Except Fault (List Symbol) := do
  let directory := Path.directoryOf (Path.absolute workingDir path)
  let (symbols, _) ← symbolsOf resolving directory .fresh (linesOf text)
  .ok symbols

/-- The symbols of a tags file on a disk. Search patterns are resolved on demand, by reading the source files. -/
def load (host : Host) (path : Text) (resolvePatterns : Bool) : Except Fault (List Symbol) :=
  match host.readText path with
  | .ok text =>
    let resolving : Resolving :=
      if resolvePatterns then .reading (fun s => (host.readText s).mapError Fault.disk) else .off
    parse host.workingDir.text resolving text path
  | .error .nulCharacter => .error (.disk .nulCharacter)
  | .error _ => .error (.tagsUnreadable path)

end SymbolSearch.Tags
