import SymbolSearch.Tree.Basic

/-!
# Trees in memory

A tree held in memory: texts by path, and paths at which questions fail. A directory exists as soon as something lies below it.
-/

namespace SymbolSearch

/-- The paths at which each question is refused. -/
structure Refusals where
  list : List Path
  isDir : List Path
  isFile : List Path
  isLink : List Path
  read : List Path
  /-- Files whose content is no text. -/
  decode : List Path
  deriving Repr

/-- A tree in memory. -/
structure MemoryTree where
  files : List (Path × Text)
  directories : List Path
  links : List Path
  /-- Directories that list other paths than what lies directly below them. -/
  listings : List (Path × List Path)
  refusals : Refusals
  deriving Repr

namespace MemoryTree

/-- All paths at which something was put. -/
def known (tree : MemoryTree) : List Path :=
  tree.files.map (·.1) ++ tree.directories ++ tree.links

/-- The directory was put there, or something lies below it. -/
def isDirectory (tree : MemoryTree) (p : Path) : Bool :=
  tree.directories.contains p ||
    tree.known.any (fun q => match q.below? p with | some names => !names.isEmpty | none => false)

/-- The paths directly below a path. -/
def children (tree : MemoryTree) (p : Path) : List Path :=
  (tree.known.filterMap fun q =>
    match q.below? p with
    | some (name :: _) => some (p.child name)
    | _ => none).eraseDups

/-- What a directory lists. -/
def listing (tree : MemoryTree) (p : Path) : List Path :=
  match tree.listings.find? (fun entry => entry.1 = p) with
  | some (_, paths) => paths
  | none => tree.children p

/-- An answer, unless the question is refused at the path. -/
def unlessRefused {α : Type} (refused : List Path) (p : Path) (answer : Except Fault α) : Except Fault α :=
  if refused.contains p then .error (.disk .denied) else answer

/-- The text of a file. -/
def text (tree : MemoryTree) (p : Path) : Except Fault Text :=
  if tree.refusals.decode.contains p then .error .undecodable
  else
    match tree.files.find? (fun entry => entry.1 = p) with
    | some (_, text) => .ok text
    | none => .error (.disk .notFound)

/-- The questions that the tree answers. -/
def toFileTree (tree : MemoryTree) : FileTree where
  list p := unlessRefused tree.refusals.list p (.ok (tree.listing p))
  isDir p := unlessRefused tree.refusals.isDir p (.ok (tree.isDirectory p))
  isFile p := unlessRefused tree.refusals.isFile p (.ok (tree.files.any (fun entry => entry.1 = p)))
  isLink p := unlessRefused tree.refusals.isLink p (.ok (tree.links.contains p))
  readText p := unlessRefused tree.refusals.read p (tree.text p)

end MemoryTree

end SymbolSearch
