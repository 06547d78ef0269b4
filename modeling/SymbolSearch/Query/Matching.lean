import SymbolSearch.Query.Basic

/-!
# Matching names

A name is cut into segments at its underscores. A keyword matches a name through one of the segments.
-/

namespace SymbolSearch

/-- How a keyword is compared with a segment. -/
inductive MatchMode where
  /-- The keyword is the segment. -/
  | exact
  /-- The keyword stands somewhere in the segment. -/
  | inside
  deriving DecidableEq, Repr

namespace MatchMode

/-- The word for a mode. -/
def text : MatchMode → Text
  | exact => "exact".toList
  | inside => "partial".toList

/-- The mode that a word stands for. -/
def ofText? (s : Text) : Option MatchMode :=
  if s = exact.text then some exact else if s = inside.text then some inside else none

/-- A keyword matches a segment. -/
def accepts (mode : MatchMode) (keyword segment : Text) : Bool :=
  match mode with
  | exact => keyword = segment
  | inside => keyword.occursIn segment

end MatchMode

/-- The segments of a name, in lower case. -/
def segments (name : Text) : List Text :=
  (name.splitOn '_').map Text.lower

/-- Every keyword matches some segment of the name. -/
def nameMatches (mode : MatchMode) (keywords : List Text) (name : Text) : Bool :=
  keywords.all (fun keyword => (segments name).any (mode.accepts keyword))

end SymbolSearch
