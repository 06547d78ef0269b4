import SymbolSearch.Host
import SymbolSearch.Settings.Basic
import SymbolSearch.Toml.Document

/-!
# Settings files

The settings file of a workspace lies at its root. Without one, nothing is set.
-/

namespace SymbolSearch.Settings

/-- The name of settings files. -/
def fileName : Text := "tagseek.toml".toList

/-- The settings in the content of the file at a path, with so much room for lists and tables inside each other. -/
def parse (room : Nat) (path : Text) (content : Bytes) : Except Fault Settings :=
  match Utf8.decode? content with
  | none => .error .undecodable
  | some text =>
    match Toml.parse room text with
    | .error .malformed => .error (.settings (.malformed path))
    | .error .tooManyDigits => .error .tooManyDigits
    | .error .nestedTooDeep => .error .nestedTooDeep
    | .ok pairs => (check path pairs).mapError Fault.settings

/-- The settings of the workspace at a root. -/
def load (host : Host) (root : Path) : Except Fault Settings := do
  let path := (root.child fileName).text
  if ← (host.isFile path).mapError Fault.disk then
    parse host.depths.brackets path (← (host.read path).mapError Fault.disk)
  else .ok unset

end SymbolSearch.Settings
