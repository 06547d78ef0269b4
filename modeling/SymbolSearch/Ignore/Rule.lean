import SymbolSearch.Fault
import SymbolSearch.Pattern.CharSet
import SymbolSearch.Text.Blank

/-!
# Ignore rules

A line of an ignore file names paths to leave out, or with an exclamation mark in front to keep. A slash inside ties the rule to
the directory of the file; a slash at the end means directories, and so all that is below them.
-/

namespace SymbolSearch.Ignore

/-- One part of a rule as it is written. -/
inductive Glob where
  | char (c : Char)
  | star
  | doubleStar
  /-- A double star with a slash behind it. -/
  | directories
  | question
  | slash
  | set (negated : Bool) (content : Text)
  deriving DecidableEq, Repr

/-- A rule: its parts, and how it is tied. -/
structure Rule where
  negated : Bool
  directoryOnly : Bool
  anchored : Bool
  globs : List Glob
  deriving DecidableEq, Repr

/-- The edge of a rule, or a slash. -/
def isEdge (c : Option Char) : Bool :=
  c = none || c = some '/'

/-- A run of stars: two or more of them are a double star between edges or slashes, and else a single one. -/
def starRun (before : Option Char) (run : Nat) (behind : Option Char) : Text :=
  if run < 2 then List.replicate run '*'
  else if isEdge before && isEdge behind then ['*', '*']
  else ['*']

/-- A text with its runs of stars shortened, where `run` stars stand before it and `before` in front of those. -/
def joinStars (before : Option Char) (run : Nat) : Text → Text
  | [] => starRun before run none
  | c :: rest =>
    if c = '*' then joinStars before (run + 1) rest
    else starRun before run (some c) ++ c :: joinStars (some c) 0 rest

/-- The text that `back` holds in reverse and `kept` behind it, without spaces at the end. A space behind a backslash stays and
the backslash goes, and `stripping` ends there. The first two characters always stay. -/
def trimSpaces (stripping : Bool) (kept back : Text) : Text :=
  match back with
  | ' ' :: c :: d :: rest =>
    if c = '\\' then trimSpaces false (' ' :: kept) (d :: rest)
    else trimSpaces stripping (if stripping then kept else ' ' :: kept) (c :: d :: rest)
  | _ => back.reverse ++ kept
termination_by back.length

/-- The parts of a rule, where `skip` characters still belong to the last part. A bracket that is not closed stands for itself;
slashes in a set are left out of it, and something has to remain. -/
def globsFrom (skip : Nat) : Text → Except Fault (List Glob)
  | [] => .ok []
  | c :: rest =>
    match skip with
    | skip + 1 => globsFrom skip rest
    | 0 =>
      if c = '*' then
        if Text.startsWith ['*', '/'] rest then (globsFrom 2 rest).map (.directories :: ·)
        else if Text.startsWith ['*'] rest then (globsFrom 1 rest).map (.doubleStar :: ·)
        else (globsFrom 0 rest).map (.star :: ·)
      else if c = '?' then (globsFrom 0 rest).map (.question :: ·)
      else if c = '/' then (globsFrom 0 rest).map (.slash :: ·)
      else if c = '[' then
        match CharSet.bracketed? rest with
        | none => (globsFrom 0 rest).map (.char '[' :: ·)
        | some (content, _) =>
          match content.filter (· ≠ '/') with
          | [] => .error .ruleTooShort
          | '!' :: more => (globsFrom (content.length + 1) rest).map (.set true more :: ·)
          | more => (globsFrom (content.length + 1) rest).map (.set false more :: ·)
      else (globsFrom 0 rest).map (.char c :: ·)

/-- A text that has to hold a character. -/
def needed (s : Text) : Except Fault Text :=
  if s.isEmpty then .error .ruleTooShort else .ok s

/-- The text without a slash at its start. -/
def dropSlash (s : Text) : Text :=
  if s.head? = some '/' then s.tail else s

/-- A backslash in front of a hash or an exclamation mark only takes their meaning away. -/
def dropEscape (s : Text) : Except Fault Text :=
  match s with
  | ['\\'] => .error .ruleTooShort
  | '\\' :: '#' :: rest => .ok ('#' :: rest)
  | '\\' :: '!' :: rest => .ok ('!' :: rest)
  | s => .ok s

/-- The rule with a given body. -/
def Rule.ofBody (negated : Bool) (body : Text) : Except Fault Rule := do
  let directoryOnly := body.getLast? = some '/'
  let tied := body.dropLast.contains '/'
  let s ← needed (dropSlash (← needed body))
  let leading := Text.startsWith ['*', '*'] s
  let s ← needed (if leading then s.drop 2 else s)
  let s ← needed (dropSlash s)
  let s ← needed (if s.getLast? = some '/' then s.dropLast else s)
  let s ← dropEscape s
  .ok ⟨negated, directoryOnly, tied && !leading, ← globsFrom 0 (trimSpaces true [] s.reverse)⟩

/-- The rule on a line; blank lines, comments and a single slash are none. -/
def Rule.ofLine (line : Text) : Except Fault (Option Rule) :=
  if line.strip.isEmpty || line.head? = some '#' then .ok none
  else
    let negated := line.head? = some '!'
    let body := joinStars none 0 (if negated then line.tail else line)
    if Text.trimEnd Text.isBlank body = ['/'] then .ok none
    else (Rule.ofBody negated body).map some

end SymbolSearch.Ignore
