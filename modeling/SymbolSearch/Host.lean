import SymbolSearch.Disk.Canonical
import SymbolSearch.Text.Line

/-!
# Hosts

What operations know of the machine they run on: its disk, the working directory and the home directory, and how deep they may go.
-/

namespace SymbolSearch

/-- How deep an operation can go into what it works on before it is stopped. That depends on who asks for the operation, and not on
what it works on. -/
structure Depths where
  /-- The most names from where a walk starts to what it comes across. -/
  walk : Nat
  /-- The most directories inside each other, the first one counted, in which ignore files are looked for. -/
  ignores : Nat
  /-- The most links inside each other in what a path leads to. -/
  links : Nat
  /-- The room for lists and tables inside each other in a document. -/
  brackets : Nat
  /-- In one directory ignore files can always be looked for. -/
  ignores_pos : 0 < ignores
  /-- As many links as a disk follows are not too deep. -/
  linkLimit_le : Disk.linkLimit ≤ links

/-- The depths for one who asks directly. -/
def Depths.direct : Depths := ⟨980, 980, 980, 984, by decide, by decide⟩

/-- A disk and the directories from which paths are seen, and the depths that can be gone into. The working directory is absolute. -/
structure Host where
  disk : Disk
  workingDir : Path
  home : Text
  depths : Depths

namespace Host

/-- The normal absolute form of a written path. -/
def absolute (host : Host) (s : Text) : Text :=
  Path.absolute host.workingDir.text s

/-- The content of a file. -/
def read (host : Host) (s : Text) : Except DiskError Bytes :=
  host.disk.read host.workingDir.names s

/-- The text of a file: octets that are not UTF-8 are replaced and every line end is a line feed. -/
def readText (host : Host) (s : Text) : Except DiskError Text :=
  (host.read s).map (fun content => Text.normalizeNewlines (Utf8.decodeLenient content))

/-- The path leads to a file. -/
def isFile (host : Host) (s : Text) : Except DiskError Bool :=
  host.disk.isFile host.workingDir.names s

/-- The path leads to a directory. -/
def isDir (host : Host) (s : Text) : Except DiskError Bool :=
  host.disk.isDir host.workingDir.names s

/-- The path itself is a link. -/
def isLink (host : Host) (s : Text) : Except DiskError Bool :=
  host.disk.isLink host.workingDir.names s

/-- The names in a directory. -/
def list (host : Host) (s : Text) : Except DiskError (List Text) :=
  host.disk.list host.workingDir.names s

/-- The names of the directories in a directory, links to directories not counted. -/
def subdirectories (host : Host) (s : Text) : Except DiskError (List Text) :=
  host.disk.subdirectories host.workingDir.names s

/-- The time of the last write and the size of what a path leads to. -/
def signature (host : Host) (s : Text) : Except DiskError (Int × Nat) :=
  host.disk.signature host.workingDir.names s

/-- The path without links that a path leads to. -/
def canonical (host : Host) (s : Text) : Except Fault Path :=
  host.disk.canonical host.depths.links host.workingDir.names s

end Host

end SymbolSearch
