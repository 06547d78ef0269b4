import SymbolSearch.Host
import SymbolSearch.Ignore.Matching
import SymbolSearch.Trail

/-!
# Ignore files

An ignore file holds rules for what lies below its directory. If it only names paths to leave out, the rules are tried in order;
if it also names some to keep, the last rule that names a path decides.
-/

namespace SymbolSearch.Ignore

/-- The name of ignore files. -/
def fileName : Text := ".gitignore".toList

/-- The rules of an ignore file, and the directory they speak of. -/
structure RuleFile where
  base : Path
  rules : List Rule
  deriving DecidableEq, Repr

/-- The rules on lines. -/
def rulesOf : List Text → Except Fault (List Rule)
  | [] => .ok []
  | line :: rest => do
    let rule ← Rule.ofLine line
    .ok (rule.toList ++ (← rulesOf rest))

/-- Reads the text of an ignore file in a directory. -/
def RuleFile.parse (base : Path) (text : Text) : Except Fault RuleFile := do
  .ok ⟨base, ← rulesOf (text.splitOn '\n')⟩

/-- The number of octets that are decoded at a time. -/
def blockSize : Nat := 8192

/-- The lines of ill-formed octets that are complete in the blocks before decoding fails. Octets that only end too early fail
behind all blocks, and a carriage return at the end of the last block may still be half a line end. -/
def linesBeforeFailure (content : Bytes) : List Text :=
  let sound := Utf8.wellFormedLength none content
  let readable := if sound = content.length then sound else sound / blockSize * blockSize
  let text := Utf8.completePart (content.take readable)
  let text := if text.getLast? = some '\r' then text.dropLast else text
  ((Text.normalizeNewlines text).splitOn '\n').dropLast

/-- The ignore file at a path, unless it cannot be read. It has to be UTF-8; where it is not, the rules in front of the failure
are read in vain. -/
def RuleFile.load? (host : Host) (path : Path) : Except Fault (Option RuleFile) :=
  match host.read path.text with
  | .error _ => .ok none
  | .ok content =>
    match Utf8.decode? content with
    | some text => (RuleFile.parse (Path.ofText (host.absolute path.parent.text)) (Text.normalizeNewlines text)).map some
    | none => (rulesOf (linesBeforeFailure content)).map (fun _ => none)

/-- The first rule that names a path. -/
def firstMatch (s : Text) : List Rule → Except Fault (Option Rule)
  | [] => .ok none
  | rule :: rest => do
    if ← rule.matchesPath s then .ok (some rule) else firstMatch s rest

/-- The rules in the order in which they are tried. -/
def RuleFile.order (file : RuleFile) : List Rule :=
  if file.rules.any (·.negated) then file.rules.reverse else file.rules

/-- The file leaves a path out. A file without rules speaks of no path; any other one speaks only of those below its
directory. -/
def RuleFile.ignores (file : RuleFile) (host : Host) (path : Path) : Except Fault Bool :=
  if file.rules.isEmpty then .ok false
  else
    match (Path.ofText (host.absolute path.text)).below? file.base with
    | none => .error .outsideBase
    | some names => do
      let found ← firstMatch (Path.namesText names) file.order
      .ok (found.any (fun rule => !rule.negated))

/-! ## The ignore files of a tree -/

/-- A directory and all directories below it, links not followed. A directory that cannot be listed is met like one without others
in it; to go into more than `depth` directories inside each other is a fault. -/
def directories (host : Host) : Nat → Path → Trail Path
  | 0, directory => ⟨[directory], some .nestedTooDeep⟩
  | depth + 1, directory =>
    let names := (host.subdirectories directory.text).toOption.getD []
    (Trail.one directory).append (.through (directories host depth) (names.map directory.child))

/-- The ignore file that stands in a directory itself, links not counted. Nothing is found where it may not be looked for. -/
def ownFile? (host : Host) (directory : Path) : Except Fault (Option Path) :=
  let path := directory.child fileName
  match host.isFile path.text with
  | .error .denied => .ok none
  | .error e => .error (.disk e)
  | .ok found => do
    let linked ← (host.isLink path.text).mapError .disk
    .ok (if found && !linked then some path else none)

/-- The paths of the ignore files in a tree, ordered by how they are written from its root. Nothing is found below what is no
directory. -/
def pathsUnder (host : Host) (root : Path) : Except Fault (List Path) := do
  let isThere ← (host.isDir root.text).mapError .disk
  let seen (p : Path) : Text := Path.namesText ((p.below? root).getD [])
  let directories := if isThere then directories host host.depths.ignores root else .empty
  let found ← (directories.filterMap (ownFile? host)).all
  .ok (found.mergeSort (fun p q => Text.le (seen p) (seen q)))

/-- The ignore files at these paths that can be read. -/
def loadAll (host : Host) : List Path → Except Fault (List RuleFile)
  | [] => .ok []
  | path :: rest => do
    let file ← RuleFile.load? host path
    .ok (file.toList ++ (← loadAll host rest))

/-- The paths of the ignore files that a search below `root` obeys: that of the root alone, or all of them. Also among all of them
that of the root has to be one that may be looked for. -/
def pathsFor (host : Host) (nested : Bool) (root : Path) : Except Fault (List Path) := do
  let found ← (if nested then pathsUnder host root else .ok [])
  let isThere ← (host.isFile (root.child fileName).text).mapError .disk
  .ok (if nested then found else if isThere then [root.child fileName] else [])

/-- The ignore files that a search below `root` obeys. -/
def filesFor (host : Host) (nested : Bool) (root : Path) : Except Fault (List RuleFile) := do
  loadAll host (← pathsFor host nested root)

/-- Some file leaves the path out. Of several files, each speaks only of the paths below its directory. -/
def ignores (host : Host) (nested : Bool) (path : Path) : List RuleFile → Except Fault Bool
  | [] => .ok false
  | file :: rest =>
    match file.ignores host path with
    | .ok true => .ok true
    | .ok false => ignores host nested path rest
    | .error .outsideBase => if nested then ignores host nested path rest else .error .outsideBase
    | .error fault => .error fault

end SymbolSearch.Ignore
