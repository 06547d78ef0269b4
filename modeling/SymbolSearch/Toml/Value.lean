import SymbolSearch.Toml.Scalar
import SymbolSearch.Toml.Tables

/-!
# TOML: values

Lists may run over several lines; tables in braces may not. A list or a table in braces is complete once it is closed.
-/

namespace SymbolSearch.Toml

/-- A value that no later key may add to. -/
def isClosed : Value → Bool
  | .list _ | .table _ => true
  | _ => false

/-- The room inside something that takes up so much of it. -/
def roomInside (room taken : Nat) : Except Failure Nat :=
  if taken ≤ room then .ok (room - taken) else .error .nestedTooDeep

mutual

/-- A value at the start of a text. Of two steps one takes a character, so twice the length of the text bounds `fuel`. A list takes
two parts of the room and a table three. -/
def value : Nat → Nat → Text → Except Failure (Value × Text)
  | 0, _, _ => .error .malformed
  | fuel + 1, room, s =>
    match s with
    | '"' :: '"' :: '"' :: rest => (quotedLines rest).map (fun (t, rest) => (.text t, rest))
    | '"' :: rest => (quotedString false .reading rest).map (fun (t, rest) => (.text t, rest))
    | '\'' :: '\'' :: '\'' :: rest => (literalLines rest).map (fun (t, rest) => (.text t, rest))
    | '\'' :: rest => (literalString rest).map (fun (t, rest) => (.text t, rest))
    | 't' :: 'r' :: 'u' :: 'e' :: rest => .ok (.bool true, rest)
    | 'f' :: 'a' :: 'l' :: 's' :: 'e' :: rest => .ok (.bool false, rest)
    | '[' :: rest => do
      let (vs, rest) ← items fuel (← roomInside room 2) rest
      .ok (.list vs, rest)
    | '\x7b' :: rest => do
      let room ← roomInside room 3
      match skipGaps rest with
      | '\x7d' :: rest => .ok (.table [], rest)
      | rest =>
        let (ps, rest) ← pairs fuel room [] [] rest
        .ok (.table ps, rest)
    | _ => scalar s

/-- The items of a list up to its closing bracket; a comma may stand behind the last one. -/
def items : Nat → Nat → Text → Except Failure (List Value × Text)
  | 0, _, _ => .error .malformed
  | fuel + 1, room, s => do
    match ← skipFillers false s with
    | ']' :: rest => .ok ([], rest)
    | s =>
      let (v, s) ← value fuel room s
      match ← skipFillers false s with
      | ']' :: rest => .ok ([v], rest)
      | ',' :: rest =>
        let (vs, rest) ← items fuel room rest
        .ok (v :: vs, rest)
      | _ => .error .malformed

/-- The pairs of a table up to its closing brace, where `done` holds those before and `closed` the keys of complete values. -/
def pairs : Nat → Nat → Pairs → List (List Text) → Text → Except Failure (Pairs × Text)
  | 0, _, _, _, _ => .error .malformed
  | fuel + 1, room, done, closed, s => do
    let (k, s) ← key s
    match s with
    | '=' :: s =>
      let (v, s) ← value fuel room (skipGaps s)
      if isBelowSome closed k then .error .malformed
      else
        match changeTable false (addNew (k.getLast?.getD []) v) k.dropLast done with
        | none => .error .malformed
        | some done =>
          match skipGaps s with
          | '\x7d' :: rest => .ok (done, rest)
          | ',' :: rest => pairs fuel room done (if isClosed v then k :: closed else closed) (skipGaps rest)
          | _ => .error .malformed
    | _ => .error .malformed

end

end SymbolSearch.Toml
