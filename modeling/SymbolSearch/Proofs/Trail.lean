import SymbolSearch.Proofs.Answer
import SymbolSearch.Trail

/-!
# Which fault ends a trail

A trail ends at the first item that cannot be dealt with, or where the trail it was made from ended (`filterMap_fault_iff`). Two
passes over a trail are one pass (`filterMap_filterMap`), so the faults of both are met in the order of the items.
-/

namespace SymbolSearch.Trail

variable {α β γ : Type} {fault : Fault}

/-! ## All items -/

/-- A trail has all its items exactly if no fault cuts it short. -/
theorem all_eq_ok_iff {trail : Trail α} {items : List α} :
    trail.all = .ok items ↔ trail.fault = none ∧ trail.items = items := by
  unfold all
  split
  · rename_i fault hf
    simp [hf]
  · rename_i hf
    simp [hf]

/-- The items of a trail are kept back exactly by its fault. -/
theorem all_eq_error_iff {trail : Trail α} : trail.all = .error fault ↔ trail.fault = some fault := by
  unfold all
  split
  · rename_i fault hf
    simp [hf]
  · rename_i hf
    simp [hf]

/-- Along a trail without a fault, looking for an item is looking through the list. -/
theorem findSome?_of_all {trail : Trail α} {items : List α} (h : trail.all = .ok items) (f : α → Option β) :
    trail.findSome? f = .ok (items.findSome? f) := by
  obtain ⟨hf, rfl⟩ := all_eq_ok_iff.1 h
  unfold findSome?
  split
  · rename_i b hb
    rw [hb]
  · rename_i hn
    rw [hf, hn]

/-! ## One trail behind the other -/

@[simp] theorem empty_append (trail : Trail α) : empty.append trail = trail := rfl

@[simp] theorem one_append (a : α) (trail : Trail α) : (one a).append trail = ⟨a :: trail.items, trail.fault⟩ := rfl

theorem stop_fault (fault : Fault) : (stop fault : Trail α).fault = some fault := rfl

@[simp] theorem stop_append (fault : Fault) (trail : Trail α) : (stop fault).append trail = stop fault := rfl

/-- Putting trails behind each other does not depend on where one starts. -/
theorem append_assoc (a b c : Trail α) : (a.append b).append c = a.append (b.append c) := by
  obtain ⟨items, _ | fault⟩ := a
  · obtain ⟨items', _ | fault'⟩ := b
    · simp [append]
    · simp [append]
  · rfl

/-- The trails of all items are that of the first one with those of the others behind it. -/
theorem through_cons (f : α → Trail β) (a : α) (rest : List α) : through f (a :: rest) = (f a).append (through f rest) := by
  simp only [through]
  split
  · rename_i fault hf
    simp only [append, hf]
  · rfl

/-- The fault of trails one behind the other is that of one of them. -/
theorem through_fault {f : α → Trail β} {items : List α} (h : (through f items).fault = some fault) :
    ∃ a ∈ items, (f a).fault = some fault := by
  induction items with
  | nil => cases h
  | cons a rest ih =>
    rw [through_cons, append] at h
    cases hf : (f a).fault with
    | some e =>
      rw [hf] at h
      exact ⟨a, List.mem_cons_self, h⟩
    | none =>
      rw [hf] at h
      obtain ⟨b, hb, hfb⟩ := ih h
      exact ⟨b, List.mem_cons_of_mem _ hb, hfb⟩

/-- Trails one behind the other come to their end exactly if each of them does. -/
theorem through_fault_eq_none_iff {f : α → Trail β} {items : List α} :
    (through f items).fault = none ↔ ∀ a ∈ items, (f a).fault = none := by
  induction items with
  | nil => simp [through, empty]
  | cons a rest ih =>
    rw [through_cons, append, List.forall_mem_cons]
    cases hf : (f a).fault with
    | some fault => simp [hf]
    | none => simpa using ih

/-- What trails one behind the other meet is met by one of them. -/
theorem exists_of_mem_through {f : α → Trail β} {items : List α} {b : β} (h : b ∈ (through f items).items) :
    ∃ a ∈ items, b ∈ (f a).items := by
  induction items with
  | nil => cases h
  | cons a rest ih =>
    rw [through_cons, append] at h
    cases hf : (f a).fault with
    | some fault =>
      rw [hf] at h
      exact ⟨a, List.mem_cons_self, h⟩
    | none =>
      rw [hf] at h
      rcases List.mem_append.1 h with h | h
      · exact ⟨a, List.mem_cons_self, h⟩
      · obtain ⟨other, hother, hb⟩ := ih h
        exact ⟨other, List.mem_cons_of_mem _ hother, hb⟩

/-- Trails without faults, one behind the other, meet all that each of them meets. -/
theorem through_of_faultless {f : α → Trail β} {items : List α} (h : ∀ a ∈ items, (f a).fault = none) :
    through f items = ⟨items.flatMap fun a => (f a).items, none⟩ := by
  induction items with
  | nil => rfl
  | cons a rest ih =>
    rw [through_cons, ih fun b hb => h b (List.mem_cons_of_mem _ hb), append, h a List.mem_cons_self]
    rfl

/-! ## Passes over a trail -/

/-- What a pass makes of one item. -/
def passed (f : α → Except Fault (Option β)) (a : α) : Trail β :=
  match f a with
  | .ok (some b) => one b
  | .ok none => empty
  | .error fault => stop fault

/-- A pass over no items ends as the trail did. -/
theorem filterMap_nil (f : α → Except Fault (Option β)) (ending : Option Fault) :
    filterMap f ⟨[], ending⟩ = ⟨[], ending⟩ := rfl

/-- A pass deals with the first item and then with the others. -/
theorem filterMap_cons (f : α → Except Fault (Option β)) (a : α) (rest : List α) (ending : Option Fault) :
    filterMap f ⟨a :: rest, ending⟩ = (passed f a).append (filterMap f ⟨rest, ending⟩) := by
  unfold filterMap
  rw [through_cons, append_assoc]
  rfl

/-- A pass that can deal with all items of a trail keeps those that it makes something of, and ends as the trail did. -/
theorem filterMap_of_ok {f : α → Except Fault (Option β)} {g : α → Option β} {trail : Trail α}
    (h : ∀ a ∈ trail.items, f a = .ok (g a)) : trail.filterMap f = ⟨trail.items.filterMap g, trail.fault⟩ := by
  obtain ⟨items, ending⟩ := trail
  induction items with
  | nil => rfl
  | cons a rest ih =>
    rw [filterMap_cons, ih fun b hb => h b (List.mem_cons_of_mem _ hb), passed, h a List.mem_cons_self, List.filterMap_cons]
    cases g a <;> rfl

/-- A pass that comes to its end has met exactly what it makes of the items. -/
theorem mem_filterMap_of_all {f : α → Except Fault (Option β)} {trail : Trail α} {found : List β}
    (h : (trail.filterMap f).all = .ok found) {b : β} : b ∈ found ↔ ∃ a ∈ trail.items, f a = .ok (some b) := by
  obtain ⟨hends, rfl⟩ := all_eq_ok_iff.1 h
  obtain ⟨items, ending⟩ := trail
  clear h
  induction items with
  | nil => simp [filterMap_nil]
  | cons a rest ih =>
    rw [filterMap_cons, passed] at hends ⊢
    cases hf : f a with
    | error fault =>
      rw [hf] at hends
      cases hends
    | ok made =>
      rw [hf] at hends
      cases made with
      | none => simpa [hf] using ih hends
      | some b' => simp [hf, ih hends, eq_comm]

/-- Two passes over a trail are one pass. -/
theorem filterMap_filterMap (f : α → Except Fault (Option β)) (g : β → Except Fault (Option γ)) (trail : Trail α) :
    (trail.filterMap f).filterMap g = trail.filterMap (fun a => do
      match ← f a with
      | some b => g b
      | none => .ok none) := by
  obtain ⟨items, ending⟩ := trail
  induction items with
  | nil => rfl
  | cons a rest ih =>
    rw [filterMap_cons, filterMap_cons, ← ih]
    cases hf : f a with
    | error fault => simp [passed, hf, bind, Except.bind, stop, append, filterMap_nil]
    | ok found =>
      cases found with
      | none => simp [passed, hf, bind, Except.bind]
      | some b => simp [passed, hf, bind, Except.bind, filterMap_cons]

/-- A pass over a trail ends at the first item that it cannot deal with; if it can deal with all of them, it ends as the trail
did. -/
theorem filterMap_fault_iff {f : α → Except Fault (Option β)} {trail : Trail α} :
    (trail.filterMap f).fault = some fault ↔
      Until (fun a => ∃ found, f a = .ok found) (fun a => f a = .error fault) trail.items ∨
        (∀ a ∈ trail.items, ∃ found, f a = .ok found) ∧ trail.fault = some fault := by
  obtain ⟨items, ending⟩ := trail
  induction items with
  | nil => simp [filterMap_nil, not_until_nil]
  | cons a rest ih =>
    rw [filterMap_cons, until_cons_iff, List.forall_mem_cons]
    cases hf : f a with
    | error e => simp [passed, hf, stop_fault]
    | ok found =>
      have hitem : (passed f a).append (filterMap f ⟨rest, ending⟩) = ⟨found.toList ++ (filterMap f ⟨rest, ending⟩).items,
          (filterMap f ⟨rest, ending⟩).fault⟩ := by
        cases found <;> simp [passed, hf]
      rw [hitem, ih]
      simp

end SymbolSearch.Trail
