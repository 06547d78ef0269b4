import SymbolSearch.Pattern.Expression

/-!
# Wildcards

A wildcard pattern describes a whole text: a star stands for any characters, slashes included, a question mark for one, and a
set in brackets for one of its characters. Nothing else has a meaning of its own.
-/

namespace SymbolSearch

namespace Wildcard

/-- The content of a set cut at the dashes that make ranges, where `wait` characters have to pass before the next dash counts
and `chunk` holds the current part in reverse. -/
def cutAtDashes (wait : Nat) (chunk : Text) : Text → List Text
  | [] => [chunk.reverse]
  | c :: rest =>
    if wait = 0 && c = '-' then chunk.reverse :: cutAtDashes 2 [] rest
    else cutAtDashes (wait - 1) (c :: chunk) rest

/-- A dash at the very end belongs to the part before it. -/
def closeLast (chunks : List Text) : List Text :=
  match chunks.reverse with
  | [] :: last :: front => front.reverse ++ [last ++ ['-']]
  | _ => chunks

/-- A range that runs backwards is taken out, both ends of it. -/
def dropBackward (chunk : Text) (behind : List Text) : List Text :=
  match chunk.getLast?, behind with
  | some low, (high :: more) :: rest =>
    if high < low then (chunk.dropLast ++ more) :: rest else chunk :: behind
  | _, _ => chunk :: behind

/-- The marks of parts with a dash between each two. -/
def marksOf : List Text → List SetMark
  | [] => []
  | [chunk] => chunk.map .char
  | chunk :: rest => chunk.map .char ++ .dash :: marksOf rest

/-- The characters that a set with the given content stands for; an exclamation mark in front makes the complement. -/
def setOf (content : Text) : CharClass :=
  let marks := marksOf ((closeLast (cutAtDashes (if content.head? = some '!' then 2 else 1) [] content)).foldr dropBackward [])
  let negated := marks.head? = some (.char '!')
  let marks := if negated then marks.tail else marks
  if negated && marks.isEmpty then .every else .inSet ⟨negated, (CharSet.rangesOf? marks).getD []⟩

/-- The parts of a pattern, where `skip` characters still belong to the last set. A bracket that is not closed stands for
itself. -/
def partsFrom (skip : Nat) : Text → List Expression
  | [] => []
  | c :: rest =>
    match skip with
    | skip + 1 => partsFrom skip rest
    | 0 =>
      if c = '*' then .many (.one .every) :: partsFrom 0 rest
      else if c = '?' then .one .every :: partsFrom 0 rest
      else if c = '[' then
        match CharSet.bracketed? rest with
        | some (content, _) => .one (setOf content) :: partsFrom (content.length + 1) rest
        | none => .one (.exactly '[') :: partsFrom 0 rest
      else .one (.exactly c) :: partsFrom 0 rest

/-- What a pattern describes. -/
def expression (pattern : Text) : Expression :=
  .ofList (partsFrom 0 pattern)

/-- The pattern describes the whole text. -/
def isMatch (pattern s : Text) : Bool :=
  (expression pattern).describes s

end Wildcard

end SymbolSearch
