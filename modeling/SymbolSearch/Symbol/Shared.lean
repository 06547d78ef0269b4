import SymbolSearch.Symbol.Basic

/-!
# Shared symbols

The symbols that several answers of a provider have in common, compared by identity.
-/

namespace SymbolSearch.Located

/-- The symbols of a list whose identity is not among `seen` and not that of an earlier one. -/
def firstsAfter (seen : List Identity) : List Located → List Located
  | [] => []
  | symbol :: rest =>
    if seen.contains symbol.identity then firstsAfter seen rest
    else symbol :: firstsAfter (symbol.identity :: seen) rest

/-- The first symbol of each identity, in order. -/
def firsts (symbols : List Located) : List Located :=
  firstsAfter [] symbols

/-- Some symbol of the list has this identity. -/
def hasIdentity (symbols : List Located) (identity : Identity) : Bool :=
  symbols.any (fun symbol => symbol.identity = identity)

/-- The symbols of the first answer, each identity once, that every other answer holds too. -/
def shared : List (List Located) → List Located
  | [] => []
  | first :: others => others.foldl (fun kept other => kept.filter (fun s => hasIdentity other s.identity)) (firsts first)

end SymbolSearch.Located
