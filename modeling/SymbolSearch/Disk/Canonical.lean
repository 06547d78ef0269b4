import SymbolSearch.Fault

/-!
# Canonical paths

The absolute path that is left once every link on the way is replaced by what it leads to, and how a disk changes at such paths.
-/

namespace SymbolSearch.Disk

/-- The place of a path without links, seen from a working directory. -/
def placeOf (workingDir : Place) (p : Path) : Place :=
  Path.normalNames true (if p.isAbsolute then p.names else workingDir ++ p.names)

/-- How far the links of a path have been replaced. -/
structure Resolution where
  path : Path
  /-- A link that leads back to itself has been met: what lies behind it is taken as written. -/
  cut : Bool
  /-- The links met so far, the last first, and where each leads to; nothing as long as that is being found out. -/
  met : List (Path × Option Path)
  deriving Repr

/-- The path with names put behind it as they are written. -/
def putBehind (p : Path) (names : List Text) : Path :=
  p.join (Path.ofText (Text.joinWith ['/'] names))

/-- The target of the link that a path leads to. A path that cannot be followed leads to no link. -/
def linkAt? (disk : Disk) (workingDir : Place) (p : Path) : Option Text := do
  let start ← disk.start? workingDir p.isAbsolute
  let way ← (disk.follow false linkLimit start p.names).toOption
  (disk.endOf way).target?

/-- Replaces every link that names meet on the way from `here` by what it leads to; what does not exist is taken as written. No more
than `depth` links may be inside each other. -/
def resolveFrom (disk : Disk) (workingDir : Place) (depth : Nat) (met : List (Path × Option Path)) (here : Path)
    (names : List Text) : Except Fault Resolution :=
  match names with
  | [] => .ok ⟨here, false, met⟩
  | name :: rest =>
    if !Path.isKept name then resolveFrom disk workingDir depth met here rest
    else if name = Path.parentName then resolveFrom disk workingDir depth met here.up rest
    else if name.contains '\x00' then .error (.disk .nulCharacter)
    else
      let next := here.child name
      match disk.linkAt? workingDir next with
      | some target =>
        match met.lookup next with
        | some (some there) => resolveFrom disk workingDir depth met there rest
        | some none => .ok ⟨putBehind next rest, true, met⟩
        | none =>
          match depth with
          | 0 => .error .nestedTooDeep
          | depth + 1 => do
            let start := if isFromRoot target then ⟨.slash, []⟩ else here
            let inner ← resolveFrom disk workingDir depth ((next, none) :: met) start (steps target)
            if inner.cut then .ok { inner with path := putBehind inner.path rest }
            else resolveFrom disk workingDir (depth + 1) ((next, some inner.path) :: inner.met) inner.path rest
      | none => resolveFrom disk workingDir depth met next rest
termination_by (depth, names.length)

/-- A written path with its links replaced. -/
def resolve (disk : Disk) (depth : Nat) (workingDir : Place) (s : Text) : Except Fault Resolution :=
  let start : Path := ⟨if isFromRoot s then .slash else .relative, []⟩
  disk.resolveFrom workingDir depth [] start (steps s)

/-- The absolute path that a written path stands for once no link is left on the way. It is refused if links still lead nowhere but
to themselves, or if too many of them are inside each other. -/
def canonical (disk : Disk) (depth : Nat) (workingDir : Place) (s : Text) : Except Fault Path := do
  let found ← disk.resolve depth workingDir s
  let path := Path.ofText (Path.absolute (Path.text ⟨.slash, workingDir⟩) found.path.text)
  match disk.stat workingDir path.text with
  | .error .tooManyLinks => .error .linkLoop
  | .error .nulCharacter => .error (.disk .nulCharacter)
  | _ => .ok path

/-- The place behind the links on the way of names from the root. -/
def realPlace (disk : Disk) (names : List Text) : Place :=
  match disk.resolve linkLimit [] (Path.text ⟨.slash, names⟩) with
  | .ok found => placeOf [] found.path
  | .error _ => names

/-! ## Changes -/

/-- The disk whose root is the given directory. -/
def ofTop (top : Entry) (h : top.isSound = true) : Disk :=
  match top with
  | .directory access children => ⟨access, children, h⟩
  | _ => empty

/-- The disk with an entry at a place. What cannot stand on a disk, or cannot stand there, is not put. -/
def put (disk : Disk) (place : Place) (entry : Entry) : Disk :=
  if h : entry.isSound = true ∧ place.all isName = true then
    ofTop (Entry.put entry place disk.top) (Entry.isSound_put h.1 h.2 disk.sound)
  else disk

/-- The disk after writing an entry at a path from the root: directories on the way are made, links on the way are followed,
and a file written to a link replaces what the link leads to. -/
def write (disk : Disk) (s : Text) (entry : Entry) : Disk :=
  let names := (Path.ofText s).names
  let place := match entry with
    | .file .. => disk.realPlace names
    | _ => disk.realPlace names.dropLast ++ names.getLast?.toList
  disk.put place entry

/-- The disk without the entry at a path from the root, and without all that stands below it. -/
def erase (disk : Disk) (s : Text) : Disk :=
  let names := (Path.ofText s).names
  ofTop (Entry.erase (disk.realPlace names.dropLast ++ names.getLast?.toList) disk.top) (Entry.isSound_erase disk.sound)

end SymbolSearch.Disk
