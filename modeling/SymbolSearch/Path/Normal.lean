import SymbolSearch.Path.Basic

/-!
# Normal paths

A written path is normal when it has no empty name, no single dot, and double dots only where nothing stands before them to
take away. Normalising works on the written form alone and looks at no disk.
-/

namespace SymbolSearch.Path

/-- One more name after `kept`, which holds the names so far in reverse: a double dot takes the last name away, is dropped at
a root, and is kept where only double dots precede. -/
def addName (rooted : Bool) (kept : List Text) (name : Text) : List Text :=
  if name = parentName then
    match kept with
    | [] => if rooted then [] else [parentName]
    | last :: rest => if last = parentName then parentName :: kept else rest
  else name :: kept

/-- The names of a normal path, for a list of names. -/
def normalNames (rooted : Bool) (names : List Text) : List Text :=
  (names.foldl (addName rooted) []).reverse

/-- The path above, for a path that has double dots only in front: where no name is left to take away, another double dot is
put, except at a root. -/
def up (p : Path) : Path :=
  ⟨p.root, (addName p.isAbsolute p.names.reverse parentName).reverse⟩

/-- The normal form of a written path. -/
def normalize (s : Text) : Text :=
  let p := ofText s
  text ⟨p.root, normalNames p.isAbsolute p.names⟩

/-- Two written paths put together: an absolute second one stands for itself. -/
def joinText (front back : Text) : Text :=
  match back with
  | '/' :: _ => back
  | _ => if front.isEmpty || front.getLast? = some '/' then front ++ back else front ++ '/' :: back

/-- The normal absolute form of a written path, seen from a working directory. -/
def absolute (workingDir s : Text) : Text :=
  normalize (if (ofText s).isAbsolute then s else joinText workingDir s)

/-- What stands before the last slash of a written path, without slashes at its end unless it is all slashes. -/
def directoryOf (s : Text) : Text :=
  match s.splitLast? '/' with
  | none => []
  | some (front, _) =>
    let trimmed := Text.trimEnd (· = '/') front
    if trimmed.isEmpty then front ++ ['/'] else trimmed

end SymbolSearch.Path
