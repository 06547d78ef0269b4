import SymbolSearch.Text.Basic

/-!
# Values by key

Lists of pairs in which a key leads to a value. Where keys are distinct they stay so when a value is changed (`map_fst_change`) or set
(`nodup_set`).
-/

namespace SymbolSearch.Assoc

variable {α : Type} {pairs : List (Text × α)} {key : Text} {p : Text × α}

/-- The pairs with the value of a key changed. -/
def change (f : α → α) (key : Text) (pairs : List (Text × α)) : List (Text × α) :=
  pairs.map (fun p => if p.1 = key then (key, f p.2) else p)

/-- The pairs with a key set: a new key comes last, a known one keeps its place and takes the new value. -/
def set (pairs : List (Text × α)) (key : Text) (value : α) : List (Text × α) :=
  if pairs.any (fun p => p.1 = key) then change (fun _ => value) key pairs else pairs ++ [(key, value)]

/-- A change leaves the keys as they are. -/
theorem map_fst_change (f : α → α) (key : Text) (pairs : List (Text × α)) :
    (change f key pairs).map Prod.fst = pairs.map Prod.fst := by
  rw [change, List.map_map]
  refine List.map_congr_left fun p _ => ?_
  by_cases h : p.1 = key
  · simp [h]
  · simp [h]

/-- After a change the key has a changed value, and every other pair was there before. -/
theorem of_mem_change {f : α → α} (h : p ∈ change f key pairs) : (∃ value, (key, value) ∈ pairs ∧ p = (key, f value)) ∨ p ∈ pairs := by
  obtain ⟨⟨name, value⟩, hmem, rfl⟩ := List.mem_map.1 h
  by_cases hname : name = key
  · subst hname
    exact Or.inl ⟨value, hmem, if_pos rfl⟩
  · rw [if_neg hname]
    exact Or.inr hmem

/-- A key that is not there yet comes last. -/
theorem set_of_not_mem (h : key ∉ pairs.map Prod.fst) (value : α) : set pairs key value = pairs ++ [(key, value)] := by
  refine if_neg ?_
  rw [List.any_eq_true]
  rintro ⟨p, hp, hkey⟩
  exact h (List.mem_map.2 ⟨p, hp, of_decide_eq_true hkey⟩)

/-- After a key is set, every other pair was there before. -/
theorem of_mem_set {value : α} (h : p ∈ set pairs key value) : p = (key, value) ∨ p ∈ pairs := by
  unfold set at h
  split at h
  · rcases of_mem_change h with ⟨-, -, rfl⟩ | h
    · exact Or.inl rfl
    · exact Or.inr h
  · rcases List.mem_append.1 h with h | h
    · exact Or.inr h
    · exact Or.inl (List.mem_singleton.1 h)

/-- Setting a key keeps the keys distinct. -/
theorem nodup_set (h : (pairs.map Prod.fst).Nodup) (key : Text) (value : α) : ((set pairs key value).map Prod.fst).Nodup := by
  by_cases hkey : key ∈ pairs.map Prod.fst
  · obtain ⟨p, hp, rfl⟩ := List.mem_map.1 hkey
    rw [set, if_pos (List.any_eq_true.2 ⟨p, hp, decide_eq_true rfl⟩), map_fst_change]
    exact h
  · rw [set_of_not_mem hkey, List.map_append, List.nodup_append]
    refine ⟨h, List.pairwise_singleton _ _, fun name hname other hother heq => ?_⟩
    rw [heq, List.mem_singleton.1 hother] at hname
    exact hkey hname

end SymbolSearch.Assoc
