import SymbolSearch.Fault

/-!
# Workspace paths

Paths in settings may name the workspace by a placeholder and the home directory by a tilde; a relative one is seen from the
root of the workspace.
-/

namespace SymbolSearch.Workspace

/-- What stands for the root of the workspace. -/
def placeholder : Text := "$\x7bworkspaceFolder\x7d".toList

/-- The path with a leading tilde replaced by the home directory; the homes of other users are not known. -/
def expandHome (home : Text) (p : Path) : Except Fault Path :=
  match p.root, p.names with
  | .relative, ('~' :: user) :: rest =>
    if user.isEmpty then
      let base := Path.ofText (Text.trimEnd (· = '/') home)
      let base := if base.isAbsolute then base else ⟨.slash, base.names⟩
      .ok ⟨base.root, base.names ++ rest⟩
    else if user.contains '\x00' then .error (.disk .nulCharacter)
    else .error .unknownUser
  | _, _ => .ok p

/-- The path that a template stands for in the workspace at `root`. -/
def expand (home template : Text) (root : Path) : Except Fault Path := do
  let path ← expandHome home (Path.ofText (Text.replaceAll placeholder root.text template))
  .ok (root.join path)

end SymbolSearch.Workspace
