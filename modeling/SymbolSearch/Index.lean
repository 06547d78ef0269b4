import SymbolSearch.Query.Matching
import SymbolSearch.Symbol.Basic

/-!
# Indexes

An index is a list of symbols that is never changed; a changed tags file means a new index.
-/

namespace SymbolSearch

/-- The symbols of a tags file, in its order. -/
structure Index where
  symbols : List Symbol
  deriving DecidableEq, Repr

namespace Index

/-- The number of symbols. -/
def size (index : Index) : Nat :=
  index.symbols.length

/-- The index has no symbols. -/
def isEmpty (index : Index) : Bool :=
  index.symbols.isEmpty

/-- The symbols whose names match every keyword that is not blank, in order. -/
def filter (index : Index) (keywords : List Text) (mode : MatchMode) : List Symbol :=
  let keywords := normalizeKeywords keywords
  index.symbols.filter (fun symbol => nameMatches mode keywords symbol.name)

end Index

end SymbolSearch
