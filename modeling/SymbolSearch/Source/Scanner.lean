import SymbolSearch.Definition
import SymbolSearch.Source.Files
import SymbolSearch.Symbol.Basic
import SymbolSearch.Tree.Memory

/-!
# Scanners

A scanner looks through the sources of a tree for function definitions. Files that cannot be read are passed over.
-/

namespace SymbolSearch

/-- Where a scanner finds its files. -/
inductive Origin where
  | disk
  | given (tree : FileTree)

/-- A scanner: a tree and the files of it that count. -/
structure Scanner where
  origin : Origin
  selection : Source.Selection

namespace Scanner

/-- The tree that a scanner walks on a host. -/
def tree (scanner : Scanner) (host : Host) : FileTree :=
  match scanner.origin with
  | .disk => .ofHost host
  | .given tree => tree

/-- The root in its normal absolute form. -/
def rootPath (host : Host) (root : Text) : Path :=
  Path.ofText (host.absolute root)

/-- The root is a directory that can be walked. Where the disk fails it is none; any other fault stays a fault. -/
def hasRoot (scanner : Scanner) (host : Host) (root : Text) : Except Fault Bool :=
  match (scanner.tree host).isDir (rootPath host root) with
  | .ok found => .ok found
  | .error fault => if fault.isDiskFailure then .ok false else .error fault

/-- The root is known to be a directory that can be walked. -/
def isAvailable (scanner : Scanner) (host : Host) (root : Text) : Bool :=
  (scanner.hasRoot host root).toOption.getD false

/-- The text of a source; none if it cannot be read. -/
def readSource (tree : FileTree) (path : Path) : Except Fault (Option (Path × Text)) :=
  match tree.readText path with
  | .ok text => .ok (some (path, text))
  | .error fault => if fault.isDiskFailure || fault = .undecodable then .ok none else .error fault

/-- The sources under a root with their texts. -/
def sources (scanner : Scanner) (host : Host) (root : Text) : Trail (Path × Text) :=
  let tree := scanner.tree host
  (Source.files host tree scanner.selection (rootPath host root)).filterMap (readSource tree)

/-- The names defined under a root, each once, in the order in which they are met. -/
def scan (scanner : Scanner) (host : Host) (root : Text) : Except Fault (List Text) := do
  let sources ← (scanner.sources host root).all
  .ok (sources.flatMap (fun (_, text) => Definition.names text)).eraseDups

/-- Where a name occurs first in a text that defines it. -/
def occurrence? (name : Text) (path : Path) (text : Text) : Option Location :=
  if (Definition.find? name text).isSome then
    (name.indexOf? text).map (fun offset => ⟨path.text, Text.lineAfter (text.take offset), Nat.le_add_left 1 _⟩)
  else none

/-- Where a name is defined under a root: in the first source that defines it, at the first place that holds the name. -/
def locate (scanner : Scanner) (host : Host) (root name : Text) : Except Fault (Option Location) :=
  if name.isEmpty then .ok none
  else (scanner.sources host root).findSome? (fun (path, text) => occurrence? name path text)

end Scanner

end SymbolSearch
