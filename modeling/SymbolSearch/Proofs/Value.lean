import Mathlib.Data.List.Perm.Basic
import SymbolSearch.Data.Value

/-!
# Values in order

A value with the pairs of every table in the order of their keys says the same: each key has its value, put in order likewise
(`Value.exists_sorted_table`). This rests on the keys of a table being distinct. `Value.isWide` marks the values that have no written
form. What is looked up in pairs that were changed, in order or not, is said for each change by itself (`Pairs.get?_setDefault`).
-/

namespace SymbolSearch

mutual

/-- The value with the pairs of every table in the order of their keys. -/
def Value.sorted : Value → Value
  | .list items => .list (Value.sortedItems items)
  | .table pairs => .table ((Value.sortedPairs pairs).mergeSort fun a b => Text.le a.1 b.1)
  | v => v

/-- The items with every table in them in order. -/
def Value.sortedItems : List Value → List Value
  | [] => []
  | v :: vs => v.sorted :: Value.sortedItems vs

/-- The pairs, where they stand, with every table in their values in order. -/
def Value.sortedPairs : List (Text × Value) → List (Text × Value)
  | [] => []
  | (key, v) :: pairs => (key, v.sorted) :: Value.sortedPairs pairs

end

mutual

/-- Some integer in the value takes more than 64 bits. -/
def Value.isWide : Value → Bool
  | .int n => !(-Number.signedBound ≤ n && n < Number.unsignedBound)
  | .list items => Value.anyWide items
  | .table pairs => Value.anyPairWide pairs
  | _ => false

/-- Some item holds such an integer. -/
def Value.anyWide : List Value → Bool
  | [] => false
  | v :: vs => v.isWide || Value.anyWide vs

/-- Some value of a pair holds such an integer. -/
def Value.anyPairWide : List (Text × Value) → Bool
  | [] => false
  | (_, v) :: pairs => v.isWide || Value.anyPairWide pairs

end

theorem Value.sortedItems_eq (items : List Value) : Value.sortedItems items = items.map Value.sorted := by
  induction items with
  | nil => rfl
  | cons v vs ih => rw [Value.sortedItems, ih, List.map_cons]

theorem Value.sortedPairs_eq (pairs : Pairs) : Value.sortedPairs pairs = pairs.map fun pair => (pair.1, pair.2.sorted) := by
  induction pairs with
  | nil => rfl
  | cons pair pairs ih => rw [Value.sortedPairs, ih, List.map_cons]

theorem Value.anyWide_eq (items : List Value) : Value.anyWide items = items.any Value.isWide := by
  induction items with
  | nil => rfl
  | cons v vs ih => rw [Value.anyWide, ih, List.any_cons]

theorem Value.anyPairWide_eq (pairs : Pairs) : Value.anyPairWide pairs = pairs.any fun pair => pair.2.isWide := by
  induction pairs with
  | nil => rfl
  | cons pair pairs ih => rw [Value.anyPairWide, ih, List.any_cons]

/-! ## The value of a key -/

namespace Pairs

variable {pairs others : Pairs} {key : Text}

/-- Where keys are distinct, every pair gives the value of its key. -/
theorem get?_eq_some_iff (hkeys : (pairs.map Prod.fst).Nodup) {v : Value} : pairs.get? key = some v ↔ (key, v) ∈ pairs := by
  induction pairs with
  | nil => simp [get?]
  | cons pair pairs ih =>
    rw [List.map_cons, List.nodup_cons] at hkeys
    by_cases hkey : pair.1 = key
    · have hfirst : get? (pair :: pairs) key = some pair.2 := by simp [get?, hkey]
      have hother : (key, v) ∉ pairs := fun hmem => hkeys.1 (hkey ▸ List.mem_map_of_mem hmem)
      rw [hfirst, List.mem_cons, or_iff_left hother, Option.some.injEq, Prod.ext_iff]
      simp [hkey, eq_comm]
    · have hrest : get? (pair :: pairs) key = get? pairs key := by simp [get?, hkey]
      rw [hrest, ih hkeys.2, List.mem_cons, or_iff_right]
      rintro rfl
      exact hkey rfl

/-- The order of pairs with distinct keys does not matter to the value of a key. -/
theorem get?_perm (hperm : pairs.Perm others) (hkeys : (pairs.map Prod.fst).Nodup) (key : Text) :
    pairs.get? key = others.get? key := by
  ext v
  rw [get?_eq_some_iff hkeys, get?_eq_some_iff ((hperm.map Prod.fst).nodup_iff.1 hkeys), hperm.mem_iff]

/-- What is made of the values is found under their keys. -/
theorem get?_map {α : Type} (f : α → Value) (entries : List (Text × α)) (key : Text) :
    get? (entries.map fun entry => (entry.1, f entry.2)) key = ((entries.find? fun entry => entry.1 = key).map (·.2)).map f := by
  rw [get?, List.find?_map, Option.map_map, Option.map_map]
  rfl

/-! ### Changed pairs -/

theorem get?_append (pairs others : Pairs) (key : Text) : get? (pairs ++ others) key = (pairs.get? key).or (others.get? key) := by
  unfold get?
  rw [List.find?_append]
  cases pairs.find? (fun p => p.1 = key) <;> rfl

theorem get?_singleton (key other : Text) (v : Value) : get? [(key, v)] other = if other = key then some v else none := by
  by_cases h : other = key
  · simp [get?, h]
  · simp [get?, h, Ne.symm h]

/-- A key is present exactly if it has a value. -/
theorem has_eq_isSome (pairs : Pairs) (key : Text) : pairs.has key = (pairs.get? key).isSome := by
  unfold has get?
  rw [Option.isSome_map, List.isSome_find?]

/-- Where pairs are kept by their keys, the keys that are kept keep their values. -/
theorem get?_filter (keeps : Text → Bool) (pairs : Pairs) (key : Text) :
    get? (pairs.filter fun p => keeps p.1) key = if keeps key then pairs.get? key else none := by
  induction pairs with
  | nil => simp [get?]
  | cons pair rest ih =>
    unfold get? at ih ⊢
    by_cases hkey : pair.1 = key
    · subst hkey
      by_cases hkept : keeps pair.1 = true
      · simp [hkept]
      · simpa [hkept] using ih
    · by_cases hkept : keeps pair.1 = true
      · simpa [hkept, hkey] using ih
      · simpa [hkept, hkey] using ih

/-- Without a key all other keys keep their values. -/
theorem get?_without (pairs : Pairs) (key other : Text) :
    (pairs.without key).get? other = if other = key then none else pairs.get? other := by
  have h := get?_filter (fun name => decide (name ≠ key)) pairs other
  by_cases hkey : other = key
  · simpa [without, hkey] using h
  · simpa [without, hkey] using h

/-- A default counts where the key has no value. -/
theorem get?_setDefault (pairs : Pairs) (key other : Text) (v : Value) :
    (pairs.setDefault key v).get? other = if other = key then some ((pairs.get? key).getD v) else pairs.get? other := by
  unfold setDefault
  rw [has_eq_isSome]
  by_cases hkey : other = key
  · subst hkey
    cases hget : pairs.get? other with
    | none => simp [get?_append, get?_singleton, hget]
    | some w => simp [hget]
  · cases hget : pairs.get? key with
    | none => simp [get?_append, get?_singleton, hkey]
    | some w => simp [hkey]

/-- Where one key is given another name that no key has, its value is found under the new name, and all other keys keep theirs. -/
theorem get?_rename {old new : Text} (hnew : pairs.get? new = none) (hne : new ≠ old) (key : Text) :
    get? (pairs.map fun p => if p.1 = old then (new, p.2) else p) key =
      if key = new then pairs.get? old else if key = old then none else pairs.get? key := by
  induction pairs with
  | nil => simp [get?]
  | cons pair rest ih =>
    have hfirst : pair.1 ≠ new := by
      intro heq
      simp [get?, heq] at hnew
    have hrest : get? rest new = none := by
      simpa [get?, hfirst] using hnew
    have ih := ih hrest
    unfold get? at ih ⊢
    by_cases hold : pair.1 = old
    · by_cases hkey : key = new
      · simp [hold, hkey]
      · by_cases hkey' : key = old
        · simp_all
        · simp_all [Ne.symm hkey, Ne.symm hkey']
    · by_cases hkey : pair.1 = key
      · subst hkey
        simp [hold, hfirst]
      · simp_all

end Pairs

/-- A table in order has the values of the table, each in order, under their keys. -/
theorem Value.exists_sorted_table (pairs : Pairs) (hkeys : (pairs.map Prod.fst).Nodup) :
    ∃ inOrder : Pairs, (Value.table pairs).sorted = .table inOrder ∧ ∀ key, inOrder.get? key = (pairs.get? key).map Value.sorted := by
  refine ⟨_, rfl, fun key => ?_⟩
  have hsame : (Value.sortedPairs pairs).map Prod.fst = pairs.map Prod.fst := by
    rw [Value.sortedPairs_eq, List.map_map]
    rfl
  rw [← Pairs.get?_perm (List.mergeSort_perm (Value.sortedPairs pairs) _).symm (by rw [hsame]; exact hkeys), Value.sortedPairs_eq,
    Pairs.get?_map]
  rfl

end SymbolSearch
