import Mathlib.Data.List.Nodup
import SymbolSearch.Symbol.Basic

/-!
# Symbols and their attributes

A name that is not empty makes a symbol, a line from one on a location, and pairs with distinct names are the attributes that they
give.
-/

namespace SymbolSearch

/-- With a name there is a symbol. -/
theorem Symbol.make_of_ne_nil {name : Text} (h : name ≠ []) (location : Option Location) (kind : Option Text)
    (attributes : Attributes) : make name location kind attributes = .ok ⟨name, location, kind, attributes, h⟩ := by
  have hchecked : checkName name = .ok ⟨name, h⟩ := dif_neg h
  rw [make, hchecked]
  rfl

/-- The symbol whose name has this first character and these others. -/
def Symbol.ofLetters (first : Char) (rest : Text) (location : Option Location) (kind : Option Text)
    (attributes : Attributes) : Symbol :=
  ⟨first :: rest, location, kind, attributes, List.cons_ne_nil first rest⟩

/-- From line one on there is a location. -/
theorem Location.make_of_le {line : Nat} (h : 1 ≤ line) (path : Text) : make path line = .ok ⟨path, line, h⟩ := by
  have hline : (1 : Int) ≤ line := by omega
  rw [make, dif_pos hline]
  rfl

/-- The location on the line behind so many others. -/
def Location.after (path : Text) (others : Nat) : Location :=
  ⟨path, others + 1, Nat.le_add_left 1 others⟩

namespace Attributes

/-- Attributes with distinct names are set one after the other as they stand. -/
theorem pairs_foldl_set {seen : Attributes} {pairs : List (Text × Text)} (h : ((seen.pairs ++ pairs).map Prod.fst).Nodup) :
    (pairs.foldl (fun attributes pair => attributes.set pair.1 pair.2) seen).pairs = seen.pairs ++ pairs := by
  induction pairs generalizing seen with
  | nil => rw [List.foldl_nil, List.append_nil]
  | cons pair pairs ih =>
    have hset : (seen.set pair.1 pair.2).pairs = seen.pairs ++ [pair] := by
      refine Assoc.set_of_not_mem (fun hmem => ?_) pair.2
      rw [List.map_append, List.nodup_append] at h
      exact h.2.2 pair.1 hmem pair.1 List.mem_cons_self rfl
    rw [List.append_cons seen.pairs] at h ⊢
    rw [List.foldl_cons, ih (by rw [hset]; exact h), hset]

/-- Pairs with distinct names are the attributes that they give. -/
theorem pairs_ofPairs {pairs : List (Text × Text)} (h : (pairs.map Prod.fst).Nodup) : (ofPairs pairs).pairs = pairs :=
  pairs_foldl_set h

/-- An attribute that is not named has no value. -/
theorem get?_eq_none {attributes : Attributes} {key : Text} (h : key ∉ attributes.pairs.map Prod.fst) :
    attributes.get? key = none := by
  rw [get?, Option.map_eq_none_iff, List.find?_eq_none]
  intro pair hpair hkey
  exact h (List.mem_map.2 ⟨pair, hpair, by simpa using hkey⟩)

end Attributes

end SymbolSearch
