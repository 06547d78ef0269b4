import SymbolSearch.Toml.Value

/-!
# TOML: documents

A document is a sequence of lines: pairs, headers of tables and headers of list items. A table may be declared once, and what is
complete may not be added to.
-/

namespace SymbolSearch.Toml

/-- A document while it is read. -/
structure Draft where
  root : Pairs
  /-- The table that pairs belong to. -/
  header : List Text
  /-- Tables that may not be declared by a header any more. -/
  declared : List (List Text)
  /-- Tables named by dotted keys since the last header; the next header declares them. -/
  dotted : List (List Text)
  /-- Values to which nothing may be added. -/
  closed : List (List Text)

/-- Nothing has been read. -/
def Draft.empty : Draft := ⟨[], [], [], [], []⟩

/-- A failure where nothing could be made. -/
def orMalformed {α : Type} : Option α → Except Failure α
  | some a => .ok a
  | none => .error .malformed

/-- The draft behind the header of a table. -/
def Draft.openTable (draft : Draft) (k : List Text) : Except Failure Draft := do
  let declared := draft.declared ++ draft.dotted
  if declared.contains k || isBelowSome draft.closed k then .error .malformed
  else
    let root ← orMalformed (changeTable true some k draft.root)
    .ok { draft with root := root, header := k, declared := k :: declared, dotted := [] }

/-- The draft behind the header of a list item: the item starts empty, and so do all tables below it. -/
def Draft.openItem (draft : Draft) (k : List Text) : Except Failure Draft := do
  let declared := draft.declared ++ draft.dotted
  if isBelowSome draft.closed k then .error .malformed
  else
    let root ← orMalformed (changeTable true (addTable (k.getLast?.getD [])) k.dropLast draft.root)
    .ok { root := root, header := k, declared := k :: declared.filter (fun d => !k.isPrefixOf d), dotted := []
          closed := draft.closed.filter (fun d => !k.isPrefixOf d) }

/-- The tables that the parts of a dotted key name on the way to its value. -/
def tablesOnWay (header k : List Text) : List (List Text) :=
  (List.range (k.length - 1)).map (fun i => header ++ k.take (i + 1))

/-- The draft behind a pair. -/
def Draft.addPair (draft : Draft) (k : List Text) (v : Value) : Except Failure Draft := do
  let way := tablesOnWay draft.header k
  let parent := draft.header ++ k.dropLast
  if way.any draft.declared.contains || isBelowSome draft.closed parent then .error .malformed
  else
    let root ← orMalformed (changeTable true (addNew (k.getLast?.getD []) v) parent draft.root)
    .ok { draft with root := root, dotted := draft.dotted ++ way
                     closed := if isClosed v then (draft.header ++ k) :: draft.closed else draft.closed }

/-- The draft behind the statement at the start of a text, and the rest of the text. There is so much room for lists and tables
inside each other. -/
def statement (room : Nat) (draft : Draft) (s : Text) : Except Failure (Draft × Text) :=
  match s with
  | '[' :: '[' :: rest => do
    let (k, rest) ← key (skipGaps rest)
    let draft ← draft.openItem k
    match rest with
    | ']' :: ']' :: rest => .ok (draft, rest)
    | _ => .error .malformed
  | '[' :: rest => do
    let (k, rest) ← key (skipGaps rest)
    let draft ← draft.openTable k
    match rest with
    | ']' :: rest => .ok (draft, rest)
    | _ => .error .malformed
  | '#' :: _ => .ok (draft, s)
  | _ => do
    let (k, rest) ← key s
    match rest with
    | '=' :: rest =>
      let (v, rest) ← value (2 * rest.length + 1) room (skipGaps rest)
      .ok (← draft.addPair k v, rest)
    | _ => .error .malformed

/-- The draft behind all statements of a text. Every statement takes a character, so the length of the text bounds `fuel`. -/
def statements (room : Nat) : Nat → Draft → Text → Except Failure Draft
  | 0, _, _ => .error .malformed
  | fuel + 1, draft, s =>
    match skipGaps s with
    | [] => .ok draft
    | '\n' :: rest => statements room fuel draft rest
    | s => do
      let (draft, rest) ← statement room draft s
      match ← skipComment (skipGaps rest) with
      | [] => .ok draft
      | '\n' :: rest => statements room fuel draft rest
      | _ => .error .malformed

/-- The pairs of a whole document. -/
def parse (room : Nat) (s : Text) : Except Failure Pairs := do
  let s := Text.replaceAll ['\r', '\n'] ['\n'] s
  let draft ← statements room (s.length + 1) .empty s
  .ok draft.root

end SymbolSearch.Toml
