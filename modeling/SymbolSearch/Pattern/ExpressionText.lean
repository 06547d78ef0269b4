import SymbolSearch.Pattern.Expression
import SymbolSearch.Text.Digit
import SymbolSearch.Text.WordChar

/-!
# Written expressions

How expressions are written: a set stands in brackets, a group in parentheses, a bar separates choices, and a repetition stands
behind what it repeats. A backslash takes the meaning of a sign away.
-/

namespace SymbolSearch.Expression

/-- Signs with a meaning of their own. -/
def signs : Text :=
  "()[]\x7b\x7d?*+-|^$\\.&~# \t\n\r\x0b\x0c".toList

/-- A character written so that it stands for itself. -/
def escaped (c : Char) : Text :=
  if signs.contains c then ['\\', c] else [c]

/-- A character whose meaning a backslash takes away; behind a letter or a digit it would give one. -/
def isEscapable (c : Char) : Bool :=
  !Text.isAsciiLetter c && !Text.isAsciiDigit c

/-! ## Sets -/

/-- The marks of a set up to its closing bracket, and how many characters they and the bracket take. A bracket at the very start
stands for itself. -/
def setMarks? (atStart : Bool) : Text → Option (List SetMark × Nat)
  | [] => none
  | '\\' :: c :: rest =>
    if isEscapable c then (setMarks? false rest).map (fun (marks, n) => (.char c :: marks, n + 2)) else none
  | c :: rest =>
    if c = ']' && !atStart then some ([], 1)
    else (setMarks? false rest).map (fun (marks, n) => ((if c = '-' then .dash else .char c) :: marks, n + 1))

/-- The set behind an opening bracket, and how many characters it takes. -/
def set? (s : Text) : Option (CharSet × Nat) := do
  let negated := s.head? = some '^'
  let front := if negated then 1 else 0
  let (marks, n) ← setMarks? true (s.drop front)
  some (⟨negated, ← CharSet.rangesOf? marks⟩, front + n)

/-! ## Repetitions -/

/-- How often something is repeated: at least so often, and up to so many times more if there is a limit. -/
structure Repetition where
  least : Nat
  more : Option Nat
  deriving DecidableEq, Repr

/-- What is repeated so. -/
def Repetition.apply (r : Repetition) (part : Expression) : Expression :=
  match r.more with
  | some more => .times r.least more part
  | none => if r.least = 0 then .many part else .seq (.times r.least 0 part) (.many part)

/-- The repetition between braces, behind the opening one, and how many characters it takes; none if these are no braces of a
repetition. One that ends before it begins has nothing to apply. -/
def braces? (s : Text) : Option (Option Repetition × Nat) :=
  let low := s.takeWhile Text.isAsciiDigit
  let rest := s.drop low.length
  let least := Text.digitsValue low
  match rest with
  | ',' :: rest =>
    let high := rest.takeWhile Text.isAsciiDigit
    if (rest.drop high.length).head? ≠ some '\x7d' then none
    else
      let size := low.length + high.length + 2
      if high.isEmpty then some (some ⟨least, none⟩, size)
      else
        let most := Text.digitsValue high
        some (if most < least then none else some ⟨least, some (most - least)⟩, size)
  | '\x7d' :: _ => if low.isEmpty then none else some (some ⟨least, some 0⟩, low.length + 1)
  | _ => none

/-- The repetition that a text starts with, and how many characters it takes. -/
def repetition? : Text → Option (Option Repetition × Nat)
  | '*' :: _ => some (some ⟨0, none⟩, 1)
  | '+' :: _ => some (some ⟨1, none⟩, 1)
  | '?' :: _ => some (some ⟨0, some 1⟩, 1)
  | '\x7b' :: rest => (braces? rest).map (fun (repetition, n) => (repetition, n + 1))
  | _ => none

/-- A sign behind a repetition that says how eagerly it is tried. -/
def isEagerness (c : Option Char) : Bool :=
  c = some '?' || c = some '+'

/-! ## Groups -/

/-- One part of a sequence, and whether it can be repeated. -/
structure Item where
  part : Expression
  repeatable : Bool
  deriving DecidableEq, Repr

/-- A group that is being read: its finished choices and the items of the current one, the last first. -/
structure Group where
  choices : List Expression
  items : List Item
  deriving DecidableEq, Repr

namespace Group

/-- A group of which nothing is read. -/
def empty : Group := ⟨[], []⟩

/-- The group with one more item. -/
def add (group : Group) (part : Expression) (repeatable : Bool) : Group :=
  { group with items := ⟨part, repeatable⟩ :: group.items }

/-- The group with a new choice begun. -/
def next (group : Group) : Group :=
  ⟨ofList (group.items.reverse.map Item.part) :: group.choices, []⟩

/-- The group with its last item repeated, unless that is no item to repeat. -/
def repeatLast? (group : Group) (repetition : Repetition) : Option Group :=
  match group.items with
  | ⟨part, true⟩ :: items => some { group with items := ⟨repetition.apply part, false⟩ :: items }
  | _ => none

/-- What the whole group describes. -/
def expression (group : Group) : Expression :=
  match group.next.choices with
  | [] => .nothing
  | last :: rest => rest.foldl (fun e choice => .either choice e) last

end Group

/-- Reads a written expression, where `skip` characters still belong to the last part, `outer` holds the groups around the current
one, the inmost first. -/
def readFrom (outer : List Group) (group : Group) (skip : Nat) : Text → Option Expression
  | [] => if outer.isEmpty then some group.expression else none
  | c :: rest =>
    match skip with
    | skip + 1 => readFrom outer group skip rest
    | 0 =>
      if c = '|' then readFrom outer group.next 0 rest
      else if c = '(' then
        if rest.head? ≠ some '?' then readFrom (group :: outer) .empty 0 rest
        else if Text.startsWith ['?', ':'] rest then readFrom (group :: outer) .empty 2 rest
        else none
      else if c = ')' then
        match outer with
        | [] => none
        | around :: outer => readFrom outer (around.add group.expression true) 0 rest
      else if c = '^' then readFrom outer (group.add .start false) 0 rest
      else if c = '$' then readFrom outer (group.add .finish false) 0 rest
      else if c = '.' then readFrom outer (group.add (.one .notLineFeed) true) 0 rest
      else if c = '\\' then
        match rest.head? with
        | some d => if isEscapable d then readFrom outer (group.add (.one (.exactly d)) true) 1 rest else none
        | none => none
      else if c = '[' then
        match set? rest with
        | some (set, n) => readFrom outer (group.add (.one (.inSet set)) true) n rest
        | none => none
      else
        match repetition? (c :: rest) with
        | none => readFrom outer (group.add (.one (.exactly c)) true) 0 rest
        | some (none, _) => none
        | some (some repetition, n) =>
          match group.repeatLast? repetition with
          | some group => readFrom outer group (n - 1 + if isEagerness ((c :: rest).drop n).head? then 1 else 0) rest
          | none => none

/-- Reads a written expression. -/
def read? (s : Text) : Option Expression :=
  readFrom [] .empty 0 s

end SymbolSearch.Expression
