import Mathlib.Data.List.Nodup
import Mathlib.Data.List.Forall2
import SymbolSearch.Proofs.Provider.Conjunction

/-!
# What several answers share

`Located.shared` narrows the first answer by one further answer after the other. Said at once: a symbol of the first answer is kept
where it is the first of its identity there and every other answer has one of that identity (`shared_eq`). So the other answers
count only for the identities in them (`shared_congr`), the first one not for symbols that repeat an identity (`firsts_thinned`), and
which identities are shared does not depend on which answer comes first (`mem_identities_shared_iff`).
-/

namespace SymbolSearch.Located

variable {symbols first : List Located} {others : List (List Located)} {identity : Identity}

/-! ## The first of each identity, by places -/

/-- No symbol in front of a place of the list has the identity of the one there. -/
def isFirst (symbols : List Located) (place : Located × Nat) : Bool :=
  !hasIdentity (symbols.take place.2) place.1.identity

/-- An identity is in a list where it is that of one of the symbols. -/
theorem hasIdentity_iff : hasIdentity symbols identity = true ↔ identity ∈ symbols.map Located.identity := by
  simp [hasIdentity]

/-- The last symbol of a list adds its identity to those of the others. -/
theorem hasIdentity_concat (symbols : List Located) (symbol : Located) (identity : Identity) :
    hasIdentity (symbols ++ [symbol]) identity = true ↔ identity = symbol.identity ∨ hasIdentity symbols identity = true := by
  simp only [hasIdentity_iff, List.map_append, List.map_cons, List.map_nil, List.mem_append, List.mem_singleton]
  exact or_comm

/-- The symbols kept are those that are the first of their identity in the whole list, also when the list has been thinned out in such
a way that these stay. The symbols `before` have been passed, and `seen` are their identities. -/
theorem firstsAfter_thinned {seen : List Identity} {keep : Located × Nat → Bool} (before symbols : List Located)
    (hseen : ∀ identity, identity ∈ seen ↔ hasIdentity before identity = true)
    (hkeep : ∀ place ∈ symbols.zipIdx before.length, isFirst (before ++ symbols) place = true → keep place = true) :
    firstsAfter seen (((symbols.zipIdx before.length).filter keep).map (·.1)) =
      ((symbols.zipIdx before.length).filter (isFirst (before ++ symbols))).map (·.1) := by
  induction symbols generalizing seen before with
  | nil => rfl
  | cons symbol rest ih =>
    have hlength : before.length + 1 = (before ++ [symbol]).length := by simp
    have hwhole : before ++ symbol :: rest = (before ++ [symbol]) ++ rest := by simp
    have hrest : ∀ place ∈ rest.zipIdx (before ++ [symbol]).length,
        isFirst ((before ++ [symbol]) ++ rest) place = true → keep place = true := by
      intro place hplace hfirst
      refine hkeep place ?_ (hwhole ▸ hfirst)
      rw [List.zipIdx_cons, hlength]
      exact List.mem_cons_of_mem _ hplace
    -- whether the symbol is the first of its identity is read off what was seen
    have hfirst : isFirst (before ++ symbol :: rest) (symbol, before.length) = true ↔ symbol.identity ∉ seen := by
      rw [isFirst, List.take_left, Bool.not_eq_true', Bool.eq_false_iff, Ne, hseen]
    by_cases hs : symbol.identity ∈ seen
    · have hseen' : ∀ identity, identity ∈ seen ↔ hasIdentity (before ++ [symbol]) identity = true := by
        intro identity
        rw [hasIdentity_concat, ← hseen]
        constructor
        · exact Or.inr
        · rintro (rfl | h)
          · exact hs
          · exact h
      have hskip := ih (before ++ [symbol]) hseen' hrest
      rw [List.zipIdx_cons, hlength, List.filter_cons_of_neg (p := isFirst _) (by rw [hfirst]; simpa using hs), hwhole, ← hskip]
      cases hk : keep (symbol, before.length) with
      | true => rw [List.filter_cons_of_pos hk, List.map_cons, firstsAfter, if_pos (by simpa using hs)]
      | false => rw [List.filter_cons_of_neg (by simp [hk])]
    · have hseen' : ∀ identity, identity ∈ symbol.identity :: seen ↔ hasIdentity (before ++ [symbol]) identity = true := by
        intro identity
        rw [hasIdentity_concat, List.mem_cons, hseen]
      have hk : keep (symbol, before.length) = true :=
        hkeep _ (by rw [List.zipIdx_cons]; exact List.mem_cons_self) (hfirst.2 hs)
      rw [List.zipIdx_cons, hlength, List.filter_cons_of_pos hk, List.filter_cons_of_pos (hfirst.2 hs), List.map_cons,
        List.map_cons, firstsAfter, if_neg (by simpa using hs), ih (before ++ [symbol]) hseen' hrest, hwhole]

/-- The firsts of a list are those of any list that is left when some symbols are taken out that repeat an identity. -/
theorem firsts_thinned {keep : Located × Nat → Bool}
    (hkeep : ∀ place ∈ symbols.zipIdx, isFirst symbols place = true → keep place = true) :
    firsts ((symbols.zipIdx.filter keep).map (·.1)) = (symbols.zipIdx.filter (isFirst symbols)).map (·.1) :=
  firstsAfter_thinned [] symbols (by simp [hasIdentity]) hkeep

/-- The firsts of a list are the symbols at the places where no symbol in front has the same identity. -/
theorem firsts_eq (symbols : List Located) : firsts symbols = (symbols.zipIdx.filter (isFirst symbols)).map (·.1) := by
  have hall : firsts ((symbols.zipIdx.filter (fun _ => true)).map (·.1)) =
      (symbols.zipIdx.filter (isFirst symbols)).map (·.1) := firsts_thinned (fun _ _ _ => rfl)
  rw [List.filter_true, List.zipIdx_map_fst] at hall
  exact hall

/-- No identity comes twice among the firsts. -/
theorem nodup_identities_firstsAfter (seen : List Identity) (symbols : List Located) :
    ((firstsAfter seen symbols).map Located.identity).Nodup := by
  induction symbols generalizing seen with
  | nil => exact List.nodup_nil
  | cons symbol rest ih =>
    rw [firstsAfter]
    split
    · exact ih seen
    · rw [List.map_cons, List.nodup_cons]
      refine ⟨?_, ih _⟩
      intro hmem
      obtain ⟨other, hother, heq⟩ := List.mem_map.1 hmem
      exact identity_not_mem_of_mem_firstsAfter hother (List.mem_cons.2 (Or.inl heq))

/-- The firsts of a list have the identities of the list. -/
theorem mem_identities_firsts_iff : identity ∈ (firsts symbols).map Located.identity ↔ identity ∈ symbols.map Located.identity := by
  simp only [List.mem_map]
  constructor
  · rintro ⟨symbol, hs, rfl⟩
    exact ⟨symbol, mem_of_mem_firstsAfter hs, rfl⟩
  · rintro ⟨symbol, hs, rfl⟩
    exact exists_mem_firsts hs

/-! ## All answers at once -/

/-- Every one of several answers has a symbol of this identity. -/
def inAll (answers : List (List Located)) (identity : Identity) : Bool :=
  answers.all (fun answer => hasIdentity answer identity)

/-- The symbols shared are the firsts of the first answer whose identity every other answer has. -/
theorem shared_cons (first : List Located) (others : List (List Located)) :
    shared (first :: others) = (firsts first).filter (fun symbol => inAll others symbol.identity) := by
  rw [shared, foldl_filter_hasIdentity]
  rfl

/-- The same by places: those of the first answer where no symbol in front has the identity and every other answer has it. -/
theorem shared_eq (first : List Located) (others : List (List Located)) :
    shared (first :: others) =
      (first.zipIdx.filter (fun place => isFirst first place && inAll others place.1.identity)).map (·.1) := by
  rw [shared_cons, firsts_eq, List.filter_map, List.filter_filter]
  simp only [Function.comp_def, Bool.and_comm]

/-- The other answers count only for the identities that all of them have. -/
theorem shared_congr {others' : List (List Located)} (h : ∀ identity, inAll others' identity = inAll others identity) :
    shared (first :: others') = shared (first :: others) := by
  simp only [shared_cons, h]

/-- Answers with the same symbols in them, in any order and any number, have the same identities. -/
theorem inAll_eq_of_forall₂ {others' : List (List Located)}
    (h : List.Forall₂ (fun answer' answer => ∀ symbol, symbol ∈ answer' ↔ symbol ∈ answer) others' others) (identity : Identity) :
    inAll others' identity = inAll others identity := by
  induction h with
  | nil => rfl
  | cons hmem _ ih =>
    simp only [inAll, List.all_cons] at ih ⊢
    rw [ih]
    congr 1
    rw [Bool.eq_iff_iff]
    simp only [hasIdentity_iff, List.mem_map, hmem]

/-- An identity is shared where every answer has it. -/
theorem mem_identities_shared_iff {answers : List (List Located)} (hne : answers ≠ []) :
    identity ∈ (shared answers).map Located.identity ↔ ∀ answer ∈ answers, identity ∈ answer.map Located.identity := by
  cases answers with
  | nil => exact absurd rfl hne
  | cons first others =>
    have hkept : identity ∈ (shared (first :: others)).map Located.identity ↔
        identity ∈ (firsts first).map Located.identity ∧ inAll others identity = true := by
      rw [shared_cons]
      simp only [List.mem_map, List.mem_filter]
      constructor
      · rintro ⟨symbol, ⟨hs, hall⟩, rfl⟩
        exact ⟨⟨symbol, hs, rfl⟩, hall⟩
      · rintro ⟨⟨symbol, hs, rfl⟩, hall⟩
        exact ⟨symbol, ⟨hs, hall⟩, rfl⟩
    rw [hkept, mem_identities_firsts_iff, inAll, List.all_eq_true, List.forall_mem_cons]
    simp only [hasIdentity_iff]

/-- No identity is shared twice. -/
theorem nodup_identities_shared (answers : List (List Located)) : ((shared answers).map Located.identity).Nodup := by
  cases answers with
  | nil => exact List.nodup_nil
  | cons first others =>
    rw [shared_cons]
    exact (nodup_identities_firstsAfter [] first).sublist (List.filter_sublist.map _)

/-- With an empty answer nothing is shared. -/
theorem shared_eq_nil_of_mem {answers : List (List Located)} (h : [] ∈ answers) : shared answers = [] := by
  rw [List.eq_nil_iff_forall_not_mem]
  intro symbol hs
  have hmem := (mem_identities_shared_iff (List.ne_nil_of_mem h)).1 (List.mem_map_of_mem hs) [] h
  exact List.not_mem_nil hmem

/-- Which identities are shared, and so how many, does not depend on the order of the answers. -/
theorem shared_identities_perm {answers answers' : List (List Located)} (h : answers'.Perm answers) :
    ((shared answers').map Located.identity).Perm ((shared answers).map Located.identity) := by
  by_cases hne : answers = []
  · subst hne
    rw [h.eq_nil]
  · have hne' : answers' ≠ [] := fun hnil => hne (hnil ▸ h).symm.eq_nil
    refine (List.perm_ext_iff_of_nodup (nodup_identities_shared _) (nodup_identities_shared _)).2 fun identity => ?_
    rw [mem_identities_shared_iff hne, mem_identities_shared_iff hne']
    simp only [h.mem_iff]

/-- What several answers share: the symbols of the first answer at the places where no symbol in front has the same identity and every
other answer has a symbol of that identity, in the order of the first answer. So no identity is shared twice; with no answers, or an
empty one, nothing is shared; the other answers may come in any order, and so may the symbols in them, repeated or not; symbols of the
first answer that repeat an identity may be taken out; and with another answer in the place of the first one, as many symbols are
shared, of the same identities. -/
theorem shared_spec (first : List Located) (others : List (List Located)) :
    shared (first :: others) =
        (first.zipIdx.filter (fun place => isFirst first place && inAll others place.1.identity)).map (·.1) ∧
      ((shared (first :: others)).map Located.identity).Nodup ∧
      shared [] = [] ∧ ([] ∈ first :: others → shared (first :: others) = []) ∧
      (∀ others', others'.Perm others → shared (first :: others') = shared (first :: others)) ∧
      (∀ others', List.Forall₂ (fun answer' answer => ∀ symbol, symbol ∈ answer' ↔ symbol ∈ answer) others' others →
        shared (first :: others') = shared (first :: others)) ∧
      (∀ keep : Located × Nat → Bool, (∀ place ∈ first.zipIdx, isFirst first place = true → keep place = true) →
        shared ((first.zipIdx.filter keep).map (·.1) :: others) = shared (first :: others)) ∧
      ∀ before other after, others = before ++ other :: after →
        (shared (other :: (before ++ first :: after))).length = (shared (first :: others)).length ∧
          ∀ identity, identity ∈ (shared (other :: (before ++ first :: after))).map Located.identity ↔
            identity ∈ (shared (first :: others)).map Located.identity := by
  refine ⟨shared_eq first others, nodup_identities_shared _, rfl, shared_eq_nil_of_mem, ?_, ?_, ?_, ?_⟩
  · intro others' hperm
    exact shared_congr fun identity => hperm.all_eq
  · intro others' hmem
    exact shared_congr (inAll_eq_of_forall₂ hmem)
  · intro keep hkeep
    rw [shared_cons, shared_cons, firsts_thinned hkeep, firsts_eq]
  · rintro before other after rfl
    have hswap : (other :: (before ++ first :: after)).Perm (first :: (before ++ other :: after)) := by
      have houter : (other :: (before ++ first :: after)).Perm (other :: first :: (before ++ after)) :=
        List.perm_middle.cons other
      have hinner : (first :: other :: (before ++ after)).Perm (first :: (before ++ other :: after)) :=
        List.perm_middle.symm.cons first
      exact (houter.trans (List.Perm.swap first other _)).trans hinner
    have hidentities := shared_identities_perm hswap
    refine ⟨?_, fun identity => hidentities.mem_iff⟩
    have hlength := hidentities.length_eq
    rwa [List.length_map, List.length_map] at hlength

/-- Another provider's answer for the same symbols: one of them twice, in another order and with other classifications. -/
def overloadsAgain : List Located :=
  [⟨"openFile".toList, none, "file:///a.c".toList, ⟨⟨9, 4⟩, ⟨9, 12⟩⟩, none⟩,
    ⟨"open_FILE".toList, none, "file:///a.c".toList, ⟨⟨3, 4⟩, ⟨3, 13⟩⟩, none⟩,
    ⟨"openFile".toList, some (.code 6), "file:///a.c".toList, ⟨⟨9, 4⟩, ⟨9, 12⟩⟩, some "io".toList⟩]

/-- Of the four overloads, two of one identity, the two that the other answer has too are shared, as the first answer has them; the
repeated one may be taken out, the other answer may be turned around, and with the two answers exchanged two are shared again. -/
theorem shared_spec_overloads :
    shared [Provider.overloads, overloadsAgain.reverse] = Provider.overloads.take 2 ∧
      shared [Provider.overloads.take 2 ++ Provider.overloads.drop 3, overloadsAgain] = Provider.overloads.take 2 ∧
      (shared [overloadsAgain, Provider.overloads]).length = 2 ∧ shared [Provider.overloads, overloadsAgain, []] = [] := by
  obtain ⟨heq, -, -, -, -, hmem, hthin, hswap⟩ := shared_spec Provider.overloads [overloadsAgain]
  have hshared : shared [Provider.overloads, overloadsAgain] = Provider.overloads.take 2 := by
    rw [heq]
    decide +kernel
  refine ⟨?_, ?_, ?_, ?_⟩
  · rw [hmem [overloadsAgain.reverse] (.cons (fun symbol => List.mem_reverse) .nil), hshared]
  · have hkeep : ∀ place ∈ Provider.overloads.zipIdx, isFirst Provider.overloads place = true → decide (place.2 ≠ 2) = true := by
      decide +kernel
    rw [← hshared, ← hthin (fun place => decide (place.2 ≠ 2)) hkeep]
    rfl
  · have hlength := (hswap [] overloadsAgain [] rfl).1
    rw [hshared] at hlength
    exact hlength
  · obtain ⟨-, -, -, hempty, -⟩ := shared_spec Provider.overloads [overloadsAgain, []]
    exact hempty (List.mem_cons_of_mem _ (List.mem_cons_of_mem _ List.mem_cons_self))

end SymbolSearch.Located
