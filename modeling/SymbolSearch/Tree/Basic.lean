import SymbolSearch.Host
import SymbolSearch.Trail

/-!
# File trees

What a search for source files needs of a tree: to list directories, to tell directories, files and links apart, and to read
files. Every question may end in a fault.
-/

namespace SymbolSearch

/-- The questions a tree of files answers. -/
structure FileTree where
  list : Path → Except Fault (List Path)
  isDir : Path → Except Fault Bool
  isFile : Path → Except Fault Bool
  isLink : Path → Except Fault Bool
  readText : Path → Except Fault Text

namespace FileTree

/-- The tree of a disk. -/
def ofHost (host : Host) : FileTree where
  list p := ((host.list p.text).map (fun names => names.map p.child)).mapError .disk
  isDir p := (host.isDir p.text).mapError .disk
  isFile p := (host.isFile p.text).mapError .disk
  isLink p := (host.isLink p.text).mapError .disk
  readText p := (host.readText p.text).mapError .disk

/-- Directories that a walk passes over. -/
def skippedNames : List Text :=
  [".git", ".hg", ".svn"].map String.toList

/-- A failure of the disk only prunes: what `act` says is left out. -/
def pruning {α : Type} (act : Except Fault (Trail α)) : Trail α :=
  match act with
  | .ok trail => trail
  | .error fault => if fault.isDiskFailure then .empty else .stop fault

/-- What a walk meets at an entry of a directory: a link is passed over, a directory is entered by `enter`, a file is met. -/
def visit (tree : FileTree) (enter : Path → Trail Path) (entry : Path) : Trail Path :=
  pruning do
    if ← tree.isLink entry then .ok .empty
    else if ← tree.isDir entry then .ok (if skippedNames.contains entry.name then .empty else enter entry)
    else if ← tree.isFile entry then .ok (.one entry)
    else .ok .empty

/-- The files under a directory, each directory's entries in the order of paths. What lies more than `depth` names below the
directory is a fault. -/
def walk (tree : FileTree) : Nat → Path → Trail Path
  | 0, directory =>
    pruning do
      let entries ← tree.list directory
      .ok (if entries.isEmpty then .empty else .stop .nestedTooDeep)
  | depth + 1, directory =>
    pruning do
      let entries ← tree.list directory
      .ok (.through (visit tree (walk tree depth)) (entries.mergeSort Path.le))

end FileTree

end SymbolSearch
