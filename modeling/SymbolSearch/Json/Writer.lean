import SymbolSearch.Fault
import SymbolSearch.Json.Reader
import SymbolSearch.Text.Quoted

/-!
# Writing JSON

Documents are written with two blanks of indent for each level and the keys of a table in order. Only the quote, the backslash
and control characters are escaped.
-/

namespace SymbolSearch.Json

/-- One character inside a written string. -/
def escapeChar (c : Char) : Text :=
  if c = '"' || c = '\\' then ['\\', c]
  else if c = '\x08' then ['\\', 'b']
  else if c = '\x0c' then ['\\', 'f']
  else if c = '\n' then ['\\', 'n']
  else if c = '\r' then ['\\', 'r']
  else if c = '\t' then ['\\', 't']
  else if c.toNat < 0x20 then ['\\', 'u'] ++ Text.hexPadded 4 c.toNat
  else [c]

/-- A written string. -/
def writeText (s : Text) : Text :=
  '"' :: s.flatMap escapeChar ++ ['"']

/-- A new line with the indent of a level. -/
def newline (level : Nat) : Text :=
  '\n' :: List.replicate (2 * level) ' '

/-- Parts of a list or table, each on a line of its own between two brackets. -/
def block (level : Nat) (opening closing : Char) (parts : List Text) : Text :=
  if parts.isEmpty then [opening, closing]
  else
    opening :: newline (level + 1) ++ Text.joinWith (',' :: newline (level + 1)) parts ++ newline level ++ [closing]

mutual

/-- A value at a level; an integer that takes more than 64 bits cannot be written. -/
def write (level : Nat) : Value → Except Fault Text
  | .null => .ok "null".toList
  | .bool b => .ok (if b then "true".toList else "false".toList)
  | .int n => if -Number.signedBound ≤ n && n < Number.unsignedBound then .ok (Text.ofInt n) else .error .integerTooWide
  | .float x => .ok (if x.isFinite then x.text else "null".toList)
  | .text s => .ok (writeText s)
  | .moment m => .ok (writeText m.text)
  | .list items => do .ok (block level '[' ']' (← writeItems level items))
  | .table pairs => do
    let parts ← writePairs level pairs
    let parts := parts.mergeSort (fun a b => Text.le a.1 b.1)
    .ok (block level '\x7b' '\x7d' (parts.map (·.2)))

/-- The items of a list, one level down. -/
def writeItems (level : Nat) : List Value → Except Fault (List Text)
  | [] => .ok []
  | v :: vs => do
    let first ← write (level + 1) v
    let others ← writeItems level vs
    .ok (first :: others)

/-- The pairs of a table, one level down, each with its key. -/
def writePairs (level : Nat) : List (Text × Value) → Except Fault (List (Text × Text))
  | [] => .ok []
  | (key, v) :: ps => do
    let written ← write (level + 1) v
    let others ← writePairs level ps
    .ok ((key, writeText key ++ [':', ' '] ++ written) :: others)

end

end SymbolSearch.Json
