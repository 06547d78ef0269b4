import SymbolSearch.Text.Basic

/-!
# Paths

A path is a root and the names under it. Empty names and single dots are dropped when a path is read; double dots are kept,
because what they lead to depends on the links of a disk.
-/

namespace SymbolSearch

/-- Where a path starts: at the working directory, at the root, or at the root written with exactly two slashes. -/
inductive PathRoot where
  | relative
  | slash
  | doubleSlash
  deriving DecidableEq, Repr, Inhabited

/-- The written form of a root. -/
def PathRoot.text : PathRoot → Text
  | .relative => []
  | .slash => ['/']
  | .doubleSlash => ['/', '/']

/-- A path: its root and the names under it. -/
structure Path where
  root : PathRoot
  names : List Text
  deriving DecidableEq, Repr, Inhabited

namespace Path

/-- The name that stands for the directory above. -/
def parentName : Text := ['.', '.']

/-- A name that a path keeps: neither empty nor a single dot. -/
def isKept (name : Text) : Bool :=
  name ≠ [] && name ≠ ['.']

/-- The root a written path starts at. -/
def rootOf : Text → PathRoot
  | '/' :: '/' :: '/' :: _ => .slash
  | '/' :: '/' :: _ => .doubleSlash
  | '/' :: _ => .slash
  | _ => .relative

/-- Reads a path. -/
def ofText (s : Text) : Path :=
  ⟨rootOf s, (s.splitOn '/').filter isKept⟩

/-- The written form of a path; the empty relative path is a single dot. -/
def text (p : Path) : Text :=
  match p.root, p.names with
  | .relative, [] => ['.']
  | root, names => root.text ++ Text.joinWith ['/'] names

/-- The path does not depend on the working directory. -/
def isAbsolute (p : Path) : Bool :=
  p.root ≠ .relative

/-- `q` as seen from `p`: an absolute `q` stands for itself. -/
def join (p q : Path) : Path :=
  if q.isAbsolute then q else ⟨p.root, p.names ++ q.names⟩

/-- The path one name below. -/
def child (p : Path) (name : Text) : Path :=
  ⟨p.root, p.names ++ [name]⟩

/-- The directory a path is written under. -/
def parent (p : Path) : Path :=
  ⟨p.root, p.names.dropLast⟩

/-- The last name of a path, empty for a root. -/
def name (p : Path) : Text :=
  p.names.getLast?.getD []

/-- The suffix of a name: its last dot and what follows, provided that something stands on either side of the dot. -/
def suffixOf (name : Text) : Text :=
  match name.splitLast? '.' with
  | some (front, back) => if front.isEmpty || back.isEmpty then [] else '.' :: back
  | none => []

/-- The suffix of a path's last name. -/
def suffix (p : Path) : Text :=
  suffixOf p.name

/-- The names that lead from `base` to the path, provided that the path is written below `base`. -/
def below? (p base : Path) : Option (List Text) :=
  if p.root = base.root && base.names.isPrefixOf p.names then some (p.names.drop base.names.length) else none

/-- Names written as a relative path. -/
def namesText (names : List Text) : Text :=
  text ⟨.relative, names⟩

/-- The parts by which paths are ordered: the root, if there is one, and the names. -/
def parts (p : Path) : List Text :=
  if p.isAbsolute then p.root.text :: p.names else p.names

/-- Paths are ordered part by part, and parts character by character. -/
def le (p q : Path) : Bool :=
  Text.dictionaryLe Text.le p.parts q.parts

end Path

end SymbolSearch
