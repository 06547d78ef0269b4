import SymbolSearch.Fault

/-!
# Answers and faults

How a chain of questions comes to an answer or to a fault: step by step, and the first fault decides. Where items are dealt with
in order, `Until` says which of them that is.
-/

namespace SymbolSearch

variable {ε α β : Type}

/-- A chain has an answer exactly if its first step has one and the rest has one behind that. -/
theorem bind_eq_ok_iff {x : Except ε α} {f : α → Except ε β} {b : β} :
    (x >>= f) = .ok b ↔ ∃ a, x = .ok a ∧ f a = .ok b := by
  cases x with
  | error e => simp [bind, Except.bind]
  | ok a => simp [bind, Except.bind]

/-- A chain ends in a fault exactly if its first step does, or the rest does behind an answer of it. -/
theorem bind_eq_error_iff {x : Except ε α} {f : α → Except ε β} {e : ε} :
    (x >>= f) = .error e ↔ x = .error e ∨ ∃ a, x = .ok a ∧ f a = .error e := by
  cases x with
  | error e' => simp [bind, Except.bind]
  | ok a => simp [bind, Except.bind]

/-- A renamed fault comes from a fault. -/
theorem mapError_eq_error_iff {ε' : Type} {x : Except ε α} {f : ε → ε'} {e : ε'} :
    x.mapError f = .error e ↔ ∃ e', x = .error e' ∧ f e' = e := by
  cases x with
  | error e' =>
    constructor
    · intro h
      cases h
      exact ⟨e', rfl, rfl⟩
    · rintro ⟨e'', h, rfl⟩
      cases h
      rfl
  | ok a =>
    constructor
    · exact nofun
    · rintro ⟨e', h, -⟩
      cases h

/-- Renaming faults changes no answer. -/
theorem mapError_eq_ok_iff {ε' : Type} {x : Except ε α} {f : ε → ε'} {a : α} : x.mapError f = .ok a ↔ x = .ok a := by
  cases x with
  | error e => exact ⟨nofun, nofun⟩
  | ok b =>
    constructor
    · intro h
      cases h
      rfl
    · intro h
      cases h
      rfl

/-- A fault is kept when answers are turned into others. -/
theorem map_eq_error_iff {x : Except ε α} {f : α → β} {e : ε} : x.map f = .error e ↔ x = .error e := by
  cases x <;> simp [Except.map]

/-- An answer turned into another one comes from an answer. -/
theorem map_eq_ok_iff {x : Except ε α} {f : α → β} {b : β} : x.map f = .ok b ↔ ∃ a, x = .ok a ∧ f a = b := by
  cases x <;> simp [Except.map]

/-- A list of questions ends in a fault exactly if one of them does. -/
theorem mapM_error_iff {f : α → Except ε β} {l : List α} :
    (∃ e, l.mapM f = .error e) ↔ ∃ a ∈ l, ∃ e, f a = .error e := by
  induction l with
  | nil => simp [pure, Except.pure]
  | cons a l ih =>
    have htail : (∃ e, (a :: l).mapM f = .error e) ↔
        (∃ e, f a = .error e) ∨ (∃ b, f a = .ok b) ∧ ∃ e, l.mapM f = .error e := by
      simp only [List.mapM_cons, bind_eq_error_iff, pure, Except.pure, reduceCtorEq, and_false, exists_false, or_false,
        exists_or]
      constructor
      · rintro (h | ⟨e, b, hb, he⟩)
        · exact Or.inl h
        · exact Or.inr ⟨⟨b, hb⟩, e, he⟩
      · rintro (h | ⟨⟨b, hb⟩, e, he⟩)
        · exact Or.inl h
        · exact Or.inr ⟨e, b, hb, he⟩
    rw [htail, ih]
    cases hf : f a <;> simp [hf]

/-- A list of questions is answered exactly if the first one and the others are. -/
theorem mapM_cons_eq_ok_iff {f : α → Except ε β} {a : α} {l : List α} {r : List β} :
    (a :: l).mapM f = .ok r ↔ ∃ b bs, f a = .ok b ∧ l.mapM f = .ok bs ∧ r = b :: bs := by
  rw [List.mapM_cons, bind_eq_ok_iff]
  constructor
  · rintro ⟨b, hb, h⟩
    obtain ⟨bs, hbs, h⟩ := bind_eq_ok_iff.1 h
    cases h
    exact ⟨b, bs, hb, hbs, rfl⟩
  · rintro ⟨b, bs, hb, hbs, rfl⟩
    exact ⟨b, hb, bind_eq_ok_iff.2 ⟨bs, hbs, rfl⟩⟩

/-- Each answer to a list of questions is the answer to one of them. -/
theorem exists_of_mem_mapM {f : α → Except ε β} {l : List α} {r : List β} (h : l.mapM f = .ok r) {b : β} (hb : b ∈ r) :
    ∃ a ∈ l, f a = .ok b := by
  induction l generalizing r with
  | nil =>
    cases h
    cases hb
  | cons a l ih =>
    obtain ⟨first, rest, hfirst, hrest, rfl⟩ := mapM_cons_eq_ok_iff.1 h
    rcases List.mem_cons.1 hb with rfl | hb
    · exact ⟨a, List.mem_cons_self, hfirst⟩
    · obtain ⟨a', ha', hfa⟩ := ih hrest hb
      exact ⟨a', List.mem_cons_of_mem _ ha', hfa⟩

/-- Some of the questions, in order, get some of the answers, in order. -/
theorem mapM_sublist {f : α → Except ε β} {l l' : List α} {r r' : List β} (hsub : l'.Sublist l) (h : l.mapM f = .ok r)
    (h' : l'.mapM f = .ok r') : r'.Sublist r := by
  induction hsub generalizing r r' with
  | slnil =>
    cases h
    cases h'
    exact .slnil
  | cons a _ ih =>
    obtain ⟨b, bs, -, hbs, rfl⟩ := mapM_cons_eq_ok_iff.1 h
    exact .cons b (ih hbs h')
  | cons_cons a _ ih =>
    obtain ⟨b, bs, hb, hbs, rfl⟩ := mapM_cons_eq_ok_iff.1 h
    obtain ⟨b', bs', hb', hbs', rfl⟩ := mapM_cons_eq_ok_iff.1 h'
    rw [hb] at hb'
    cases hb'
    exact .cons_cons b (ih hbs hbs')

/-! ## The first of a list -/

/-- Some item satisfies `q`, and all items in front of it satisfy `p`. -/
def Until (p q : α → Prop) (l : List α) : Prop :=
  ∃ before a after, l = before ++ a :: after ∧ (∀ b ∈ before, p b) ∧ q a

/-- There is no first item of an empty list. -/
theorem not_until_nil (p q : α → Prop) : ¬Until p q [] := by
  rintro ⟨before, a, after, hsplit, -⟩
  cases before <;> cases hsplit

/-- Either the item in front is the one, or it is passed and the one is in the rest. -/
theorem until_cons_iff {p q : α → Prop} {a : α} {rest : List α} :
    Until p q (a :: rest) ↔ q a ∨ p a ∧ Until p q rest := by
  constructor
  · rintro ⟨before, b, after, hsplit, hbefore, hb⟩
    cases before with
    | nil =>
      cases hsplit
      exact Or.inl hb
    | cons a' before =>
      cases hsplit
      exact Or.inr ⟨hbefore a List.mem_cons_self, before, b, after, rfl,
        fun c hc => hbefore c (List.mem_cons_of_mem _ hc), hb⟩
  · rintro (ha | ⟨ha, before, b, after, rfl, hbefore, hb⟩)
    · exact ⟨[], a, rest, rfl, by simp, ha⟩
    · refine ⟨a :: before, b, after, rfl, ?_, hb⟩
      intro c hc
      rcases List.mem_cons.1 hc with rfl | hc
      · exact ha
      · exact hbefore c hc

/-- Where some item meets a fault, there is a first one that does. -/
theorem exists_until_iff {q : α → ε → Prop} {l : List α} :
    (∃ e, Until (fun a => ∀ e, ¬q a e) (fun a => q a e) l) ↔ ∃ a ∈ l, ∃ e, q a e := by
  constructor
  · rintro ⟨e, before, a, after, rfl, -, ha⟩
    exact ⟨a, by simp, e, ha⟩
  · rintro ⟨a, hl, ha⟩
    induction l with
    | nil => cases hl
    | cons b rest ih =>
      by_cases hb : ∃ e, q b e
      · obtain ⟨e, hb⟩ := hb
        exact ⟨e, until_cons_iff.2 (Or.inl hb)⟩
      · rcases List.mem_cons.1 hl with rfl | hl
        · exact absurd ha hb
        · obtain ⟨e, he⟩ := ih hl
          exact ⟨e, until_cons_iff.2 (Or.inr ⟨not_exists.1 hb, he⟩)⟩

end SymbolSearch
