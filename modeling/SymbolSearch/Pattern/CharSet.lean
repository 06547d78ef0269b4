import SymbolSearch.Text.Basic

/-!
# Sets of characters

A set in brackets, as wildcards and ignore rules write it. A dash between two characters makes a range of them; at the start
and at the end it stands for itself.
-/

namespace SymbolSearch

/-- One sign between the brackets: a character that stands for itself, or a dash that may make a range. -/
inductive SetMark where
  | char (c : Char)
  | dash
  deriving DecidableEq, Repr

/-- The character of a mark. -/
def SetMark.toChar : SetMark → Char
  | char c => c
  | dash => '-'

/-- A set of characters by ranges, or the complement of one. -/
structure CharSet where
  negated : Bool
  ranges : List (Char × Char)
  deriving DecidableEq, Repr

namespace CharSet

/-- The character belongs to the set. -/
def contains (set : CharSet) (c : Char) : Bool :=
  set.ranges.any (fun (low, high) => low ≤ c && c ≤ high) != set.negated

/-- The ranges that marks denote; none if one of them runs backwards. -/
def rangesOf? : List SetMark → Option (List (Char × Char))
  | [] => some []
  | a :: .dash :: b :: rest =>
    if a.toChar ≤ b.toChar then (rangesOf? rest).map ((a.toChar, b.toChar) :: ·) else none
  | a :: rest => (rangesOf? rest).map ((a.toChar, a.toChar) :: ·)

/-- What stands between an opening bracket and its closing one, and what follows: a closing bracket right at the start, or
right behind an exclamation mark, belongs to the set. -/
def bracketed? (s : Text) : Option (Text × Text) :=
  let front := if s.head? = some '!' then ['!'] else []
  let s := s.drop front.length
  let front := if s.head? = some ']' then front ++ [']'] else front
  let s := if s.head? = some ']' then s.tail else s
  (Text.splitFirst? ']' s).map (fun (body, rest) => (front ++ body, rest))

end CharSet

end SymbolSearch
