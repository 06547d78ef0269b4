import SymbolSearch.Ignore.File
import SymbolSearch.Pattern.Wildcard
import SymbolSearch.Tree.Basic

/-!
# Source files

The files of a tree that count as sources: of a known suffix, really below the root, named by no ignore file, and as the wildcards
of the selection say.
-/

namespace SymbolSearch.Source

/-- Suffixes of sources unless others are given. -/
def defaultSuffixes : List Text :=
  [".c", ".cpp"].map String.toList

/-- Which files count as sources. -/
structure Selection where
  suffixes : List Text
  /-- Wildcards of which one has to match; without any, all files do. -/
  included : List Text
  /-- Wildcards of which none may match. -/
  excluded : List Text
  /-- All ignore files of the tree are obeyed, not only that of its root. -/
  nestedIgnores : Bool
  deriving DecidableEq, Repr

/-- Once no link is left on either way, the path lies below the root. -/
def isWithin (host : Host) (root path : Path) : Except Fault Bool :=
  let found : Except Fault Bool := do
    let root ← host.canonical root.text
    let path ← host.canonical path.text
    .ok (path.below? root).isSome
  match found with
  | .error fault => if fault.isDiskFailure then .ok false else .error fault
  | found => found

/-- The wildcards of the selection let a path pass, as it is written from the root. -/
def Selection.passes (selection : Selection) (s : Text) : Bool :=
  (selection.included.isEmpty || selection.included.any (fun pattern => Wildcard.isMatch pattern s)) &&
    !selection.excluded.any (fun pattern => Wildcard.isMatch pattern s)

/-- A file of a known suffix counts as a source. -/
def Selection.accepts (selection : Selection) (host : Host) (rules : List Ignore.RuleFile) (root path : Path) :
    Except Fault Bool := do
  if !(← isWithin host root path) then .ok false
  else
    match path.below? root with
    | none => .ok false
    | some names =>
      if ← Ignore.ignores host selection.nestedIgnores path rules then .ok false
      else .ok (selection.passes (Path.namesText names))

/-- The source files of a tree below a root, in the order of the walk. -/
def files (host : Host) (tree : FileTree) (selection : Selection) (root : Path) : Trail Path :=
  match Ignore.filesFor host selection.nestedIgnores root with
  | .error fault => .stop fault
  | .ok rules =>
    (tree.walk host.depths.walk root).filterMap fun path =>
      if !selection.suffixes.contains path.suffix then .ok none
      else do .ok (if ← selection.accepts host rules root path then some path else none)

end SymbolSearch.Source
