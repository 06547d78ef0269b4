import SymbolSearch.Data.Value

/-!
# TOML: tables

A key of several parts leads through tables, which are made where nothing stands yet. Of a list of tables the last one is meant.
-/

namespace SymbolSearch.Toml

/-- The pairs with the table changed that the parts of a key lead to; none if something else than a table is in the way. -/
def changeTable (throughLists : Bool) (change : Pairs → Option Pairs) : List Text → Pairs → Option Pairs
  | [], pairs => change pairs
  | part :: parts, pairs =>
    match pairs.get? part with
    | none => (changeTable throughLists change parts []).map (fun inner => pairs.set part (.table inner))
    | some (.table inner) =>
      (changeTable throughLists change parts inner).map (fun inner => pairs.set part (.table inner))
    | some (.list items) =>
      match throughLists, items.getLast? with
      | true, some (.table inner) =>
        (changeTable throughLists change parts inner).map
          (fun inner => pairs.set part (.list (items.dropLast ++ [.table inner])))
      | _, _ => none
    | some _ => none

/-- The pairs with a new value, unless the key has one already. -/
def addNew (key : Text) (value : Value) (pairs : Pairs) : Option Pairs :=
  if pairs.has key then none else some (pairs.set key value)

/-- The pairs with one more table in the list of a key. -/
def addTable (key : Text) (pairs : Pairs) : Option Pairs :=
  match pairs.get? key with
  | none => some (pairs.set key (.list [.table []]))
  | some (.list items) => some (pairs.set key (.list (items ++ [.table []])))
  | some _ => none

/-- Some start of the key is among the given keys. -/
def isBelowSome (keys : List (List Text)) (key : List Text) : Bool :=
  keys.any (fun k => k.isPrefixOf key)

end SymbolSearch.Toml
