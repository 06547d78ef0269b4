import SymbolSearch.Disk.Entry
import SymbolSearch.Path.Normal

/-!
# Disks

A disk is what stands in its root. Paths are followed name by name through directories and links; a directory may refuse to look a
name up or to list the names in it.
-/

namespace SymbolSearch

/-- Why a path cannot be used. -/
inductive DiskError where
  | notFound
  | notDirectory
  | isDirectory
  | denied
  | tooManyLinks
  | nameTooLong
  /-- The path holds a NUL character and is refused before any disk is asked. -/
  | nulCharacter
  deriving DecidableEq, Repr, Inhabited

/-- An error that only says that there is nothing at the path. -/
def DiskError.isAbsence : DiskError → Bool
  | .notFound | .notDirectory | .tooManyLinks | .nulCharacter => true
  | _ => false

/-- A disk: the entries in its root by name, and what may be done with the root. -/
structure Disk where
  access : Access
  root : List (Text × Entry)
  /-- Each directory holds different names that can stand there, and no link leads to a path with a NUL character. -/
  sound : Entry.areSound root = true

/-- A way from the root through directories: the names and the entries they lead to, the last first. -/
abbrev Way := List (Text × Entry)

namespace Disk

/-- The disk with nothing on it. -/
def empty : Disk := ⟨.full, [], rfl⟩

instance : Inhabited Disk := ⟨empty⟩

/-- The root as a directory. -/
def top (disk : Disk) : Entry :=
  .directory disk.access disk.root

/-- The entry at a place. -/
def entry? (disk : Disk) (place : Place) : Option Entry :=
  disk.top.at? place

/-- Where a way ends. -/
def endOf (disk : Disk) : Way → Entry
  | [] => disk.top
  | (_, entry) :: _ => entry

/-- The way that names lead, links not followed. -/
def wayTo? (disk : Disk) (place : Place) : Option Way :=
  place.foldlM (fun way name => ((disk.endOf way).child? name).map (fun entry => (name, entry) :: way)) []

/-- The most links that following one path may take. -/
def linkLimit : Nat := 40

/-- A written path of so many octets is too long. -/
def pathLimit : Nat := 4096

/-- The names of a written path as they are followed; empty names and single dots stay where they are. -/
def steps (s : Text) : List Text :=
  s.splitOn '/'

/-- A written path starts at the root. -/
def isFromRoot (s : Text) : Bool :=
  (Path.ofText s).isAbsolute

/-- A name may be looked up in an entry, as far as that one's access goes. Nothing is looked up where two slashes meet or behind a
last one. -/
def admits (entry : Entry) (name : Text) : Bool :=
  name.isEmpty || entry.isSearchable

/-- The way that names lead on from a way. Every name but the last has to name a directory that may be searched, links are followed
(the last one only on demand), and at most `budget` of them. -/
def follow (disk : Disk) (followLast : Bool) (budget : Nat) (way : Way) (names : List Text) : Except DiskError Way :=
  match names with
  | [] => .ok way
  | name :: rest =>
    if !(disk.endOf way).isDirectory then .error .notDirectory
    else if !admits (disk.endOf way) name then .error .denied
    else if !Path.isKept name then follow disk followLast budget way rest
    else if name = Path.parentName then follow disk followLast budget way.tail rest
    else if nameLimit < Utf8.size name then .error .nameTooLong
    else
      match (disk.endOf way).child? name with
      | none => .error .notFound
      | some (.link target) =>
        if rest.isEmpty && !followLast then .ok ((name, .link target) :: way)
        else
          match budget with
          | 0 => .error .tooManyLinks
          | budget + 1 => follow disk followLast budget (if isFromRoot target then [] else way) (steps target ++ rest)
      | some entry => follow disk followLast budget ((name, entry) :: way) rest
termination_by (budget, names.length)

/-- Where a path starts: at the root, or at a working directory. -/
def start? (disk : Disk) (workingDir : Place) (fromRoot : Bool) : Option Way :=
  if fromRoot then some [] else disk.wayTo? workingDir

/-- The way that a written path leads from a working directory. -/
def locate (disk : Disk) (followLast : Bool) (workingDir : Place) (s : Text) : Except DiskError Way :=
  if s.contains '\x00' then .error .nulCharacter
  else if s.isEmpty then .error .notFound
  else if pathLimit ≤ Utf8.size s then .error .nameTooLong
  else
    match disk.start? workingDir (isFromRoot s) with
    | some way => disk.follow followLast linkLimit way (steps s)
    | none => .error .notFound

/-- The entry that a written path leads to. -/
def stat (disk : Disk) (workingDir : Place) (s : Text) : Except DiskError Entry :=
  (disk.locate true workingDir s).map disk.endOf

/-- A question about an entry; where there is nothing the answer is no. -/
def asks (answer : Except DiskError Bool) : Except DiskError Bool :=
  match answer with
  | .ok b => .ok b
  | .error e => if e.isAbsence then .ok false else .error e

/-- The path leads to a file. -/
def isFile (disk : Disk) (workingDir : Place) (s : Text) : Except DiskError Bool :=
  asks <| do
    match ← disk.stat workingDir s with
    | .file .. => .ok true
    | _ => .ok false

/-- The path leads to a directory. -/
def isDir (disk : Disk) (workingDir : Place) (s : Text) : Except DiskError Bool :=
  asks <| do .ok (← disk.stat workingDir s).isDirectory

/-- The path itself is a link. -/
def isLink (disk : Disk) (workingDir : Place) (s : Text) : Except DiskError Bool :=
  asks <| do
    match disk.endOf (← disk.locate false workingDir s) with
    | .link _ => .ok true
    | _ => .ok false

/-- The content of the file that a path leads to. -/
def read (disk : Disk) (workingDir : Place) (s : Text) : Except DiskError Bytes := do
  match ← disk.stat workingDir s with
  | .file content _ denied => if denied then .error .denied else .ok content
  | _ => .error .isDirectory

/-- The time of the last write and the size of what a path leads to. -/
def signature (disk : Disk) (workingDir : Place) (s : Text) : Except DiskError (Int × Nat) := do
  match ← disk.stat workingDir s with
  | .file content stamp _ => .ok (stamp, content.length)
  | _ => .ok (0, 0)

/-- The entries in the directory that a path leads to, by name. -/
def children (disk : Disk) (workingDir : Place) (s : Text) : Except DiskError (List (Text × Entry)) := do
  match ← disk.stat workingDir s with
  | .directory access children => if access.lists then .ok children else .error .denied
  | _ => .error .notDirectory

/-- The names in the directory that a path leads to. -/
def list (disk : Disk) (workingDir : Place) (s : Text) : Except DiskError (List Text) :=
  (disk.children workingDir s).map (·.map (·.1))

/-- The names of the directories in the directory that a path leads to, links to directories not counted. What an entry is shows
in its directory, so nobody has to follow the path to it. -/
def subdirectories (disk : Disk) (workingDir : Place) (s : Text) : Except DiskError (List Text) :=
  (disk.children workingDir s).map (fun children => (children.filter (·.2.isDirectory)).map (·.1))

end Disk

end SymbolSearch
