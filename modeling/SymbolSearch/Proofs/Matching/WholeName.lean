import Mathlib.Data.List.Infix
import SymbolSearch.Proofs.Disk
import SymbolSearch.Proofs.Matching
import SymbolSearch.Proofs.Provider
import SymbolSearch.Proofs.Symbol

/-!
# Matching on the whole name

Keywords are compared with the segments of a name, each in lower case. Both modes can be read off the lower-case form of the whole name:
an occurrence that holds no underscore lies within one segment (`infix_iff_exists_part`), and one between two underscores is a whole
segment (`mem_splitOn_iff_between`). So the tags tier, which cuts names into segments, and a provider, which does not, accept the same
names for keywords without underscores (`nameMatches_whole`).
-/

namespace SymbolSearch

/-! ## Occurrences and parts -/

namespace Text

variable {sep : Char} {needle s part : Text} {parts : List Text}

/-- A text without the separator starts the whole exactly if it starts the first part. -/
theorem prefix_iff_prefix_part (hsep : sep ∉ needle) (h : splitOn sep s = part :: parts) : needle <+: s ↔ needle <+: part := by
  induction s generalizing needle part parts with
  | nil =>
    rw [splitOn] at h
    cases h
    rfl
  | cons c rest ih =>
    obtain ⟨first, others, hrest⟩ := List.exists_cons_of_ne_nil (splitOn_ne_nil sep rest)
    rw [splitOn, hrest] at h
    cases needle with
    | nil => simp
    | cons d needle =>
      rw [List.mem_cons, not_or] at hsep
      split at h
      · rename_i hc
        cases h
        have hd : d ≠ c := fun hd => hsep.1 (hd.trans hc).symm
        simp [List.cons_prefix_cons, hd]
      · cases h
        rw [List.cons_prefix_cons, List.cons_prefix_cons, ih hsep.2 hrest]

/-- An occurrence without the separator lies within one part. -/
theorem infix_iff_exists_part (hsep : sep ∉ needle) : needle <:+: s ↔ ∃ part ∈ splitOn sep s, needle <:+: part := by
  constructor
  · intro h
    induction s with
    | nil => exact ⟨[], List.mem_singleton_self _, h⟩
    | cons c rest ih =>
      rcases List.infix_cons_iff.1 h with hstart | hlater
      · obtain ⟨part, parts, hparts⟩ := List.exists_cons_of_ne_nil (splitOn_ne_nil sep (c :: rest))
        have hpart : needle <+: part := (prefix_iff_prefix_part hsep hparts).1 hstart
        exact ⟨part, by rw [hparts]; exact List.mem_cons_self, hpart.isInfix⟩
      · obtain ⟨part, hpart, hoccurs⟩ := ih hlater
        obtain ⟨first, others, hrest⟩ := List.exists_cons_of_ne_nil (splitOn_ne_nil sep rest)
        rw [splitOn, hrest]
        rw [hrest] at hpart
        split
        · exact ⟨part, List.mem_cons_of_mem _ hpart, hoccurs⟩
        · rcases List.mem_cons.1 hpart with rfl | hpart
          · exact ⟨c :: part, List.mem_cons_self, List.infix_cons hoccurs⟩
          · exact ⟨part, List.mem_cons_of_mem _ hpart, hoccurs⟩
  · rintro ⟨part, hpart, hoccurs⟩
    exact hoccurs.trans (infix_of_mem_splitOn hpart)

/-- With a separator put at the end of both, a text without the separator starts the whole exactly if it is the first part. -/
theorem prefix_concat_iff_eq_part (hsep : sep ∉ needle) (h : splitOn sep s = part :: parts) :
    needle ++ [sep] <+: s ++ [sep] ↔ needle = part := by
  induction s generalizing needle part parts with
  | nil =>
    rw [splitOn] at h
    cases h
    cases needle with
    | nil => simp
    | cons d needle =>
      rw [List.mem_cons, not_or] at hsep
      simp [List.cons_prefix_cons, Ne.symm hsep.1]
  | cons c rest ih =>
    obtain ⟨first, others, hrest⟩ := List.exists_cons_of_ne_nil (splitOn_ne_nil sep rest)
    rw [splitOn, hrest] at h
    cases needle with
    | nil =>
      split at h
      · rename_i hc
        cases h
        simp [List.cons_prefix_cons, hc]
      · rename_i hc
        cases h
        simp [List.cons_prefix_cons, Ne.symm hc]
    | cons d needle =>
      rw [List.mem_cons, not_or] at hsep
      split at h
      · rename_i hc
        cases h
        have hd : d ≠ c := fun hd => hsep.1 (hd.trans hc).symm
        simp [List.cons_prefix_cons, hd]
      · cases h
        rw [List.cons_append, List.cons_append, List.cons_prefix_cons, ih hsep.2 hrest, List.cons.injEq]

/-- Between two separators, the second of which may be the end, stand the parts behind the first one. -/
theorem infix_concat_iff_mem_parts (hsep : sep ∉ needle) (h : splitOn sep s = part :: parts) :
    sep :: (needle ++ [sep]) <:+: s ++ [sep] ↔ needle ∈ parts := by
  induction s generalizing part parts with
  | nil =>
    rw [splitOn] at h
    cases h
    simp [List.infix_cons_iff, List.cons_prefix_cons]
  | cons c rest ih =>
    obtain ⟨first, others, hrest⟩ := List.exists_cons_of_ne_nil (splitOn_ne_nil sep rest)
    have hlater := ih hrest
    have hstart := prefix_concat_iff_eq_part hsep hrest
    rw [splitOn, hrest] at h
    rw [List.cons_append, List.infix_cons_iff, hlater, List.cons_prefix_cons, hstart]
    split at h
    · rename_i hc
      cases h
      rw [List.mem_cons]
      exact or_congr_left (and_iff_right hc.symm)
    · rename_i hc
      cases h
      exact or_iff_right fun hand => hc hand.1.symm

/-- A text without the separator is a part exactly if it stands between two separators, where the ends count as separators. -/
theorem mem_splitOn_iff_between (hsep : sep ∉ needle) :
    needle ∈ splitOn sep s ↔ sep :: (needle ++ [sep]) <:+: sep :: (s ++ [sep]) := by
  obtain ⟨part, parts, hparts⟩ := List.exists_cons_of_ne_nil (splitOn_ne_nil sep s)
  rw [hparts, List.mem_cons, List.infix_cons_iff, infix_concat_iff_mem_parts hsep hparts, List.cons_prefix_cons,
    prefix_concat_iff_eq_part hsep hparts]
  exact or_congr_left (and_iff_right rfl).symm

end Text

/-! ## Both modes -/

variable {keyword name : Text}

/-- A keyword stands in a segment exactly if it holds no underscore and stands in the lower-case name. -/
theorem any_accepts_inside_iff :
    (segments name).any (MatchMode.inside.accepts keyword) = true ↔ '_' ∉ keyword ∧ keyword <:+: Text.lower name := by
  rw [List.any_eq_true, segments, ← Text.splitOn_lower]
  constructor
  · rintro ⟨segment, hsegment, haccepts⟩
    have hoccurs : keyword <:+: segment := Text.occursIn_iff_infix.1 haccepts
    have hfree : '_' ∉ keyword := fun hmem => Text.not_mem_of_mem_splitOn hsegment (hoccurs.subset hmem)
    exact ⟨hfree, hoccurs.trans (Text.infix_of_mem_splitOn hsegment)⟩
  · rintro ⟨hfree, hoccurs⟩
    obtain ⟨segment, hsegment, hstands⟩ := (Text.infix_iff_exists_part hfree).1 hoccurs
    exact ⟨segment, hsegment, Text.occursIn_iff_infix.2 hstands⟩

/-- A keyword is a segment exactly if it holds no underscore and stands between two underscores in the lower-case name, where the
ends of the name count as underscores. -/
theorem any_accepts_exact_iff :
    (segments name).any (MatchMode.exact.accepts keyword) = true ↔
      '_' ∉ keyword ∧ '_' :: (keyword ++ ['_']) <:+: '_' :: (Text.lower name ++ ['_']) := by
  have hmem : (segments name).any (MatchMode.exact.accepts keyword) = true ↔ keyword ∈ Text.splitOn '_' (Text.lower name) := by
    rw [List.any_eq_true, segments, ← Text.splitOn_lower]
    constructor
    · rintro ⟨segment, hsegment, haccepts⟩
      rw [of_decide_eq_true haccepts]
      exact hsegment
    · intro hk
      exact ⟨keyword, hk, decide_eq_true rfl⟩
  rw [hmem]
  constructor
  · intro hk
    have hfree := Text.not_mem_of_mem_splitOn hk
    exact ⟨hfree, (Text.mem_splitOn_iff_between hfree).1 hk⟩
  · rintro ⟨hfree, hoccurs⟩
    exact (Text.mem_splitOn_iff_between hfree).2 hoccurs

/-- A symbol that a provider holds is in its answer exactly if its name holds the text, both in lower case. -/
theorem Provider.mem_query_held_iff {host : Host} {memory : DumpMemory} {symbols : List Located} {symbol : Located}
    (h : symbol ∈ symbols) (text : Text) :
    symbol ∈ ((Provider.held symbols).query host memory text).1.symbols ↔ Text.lower text <:+: Text.lower symbol.name := by
  simp only [query, Response.symbols, named, List.mem_filter, Text.occursIn_iff_infix, and_iff_right h]

/-- Both modes on the whole name: a keyword matches by part of a segment exactly if it holds no underscore and stands in the lower-case
name, and by a whole segment exactly if it stands there between underscores or ends. So what matches by whole segments matches by parts
of them; and for keywords in lower case that hold no underscore and are not blank, the tags tier accepts by parts exactly the names of
which a provider with a symbol of that name returns it for every keyword. -/
theorem nameMatches_whole (name : Text) (keywords : List Text) :
    (nameMatches .inside keywords name = true ↔
        ∀ keyword ∈ keywords, '_' ∉ keyword ∧ keyword <:+: Text.lower name) ∧
      (nameMatches .exact keywords name = true ↔
        ∀ keyword ∈ keywords, '_' ∉ keyword ∧ '_' :: (keyword ++ ['_']) <:+: '_' :: (Text.lower name ++ ['_'])) ∧
      (nameMatches .exact keywords name = true → nameMatches .inside keywords name = true) ∧
      ((∀ keyword ∈ keywords, keyword.strip ≠ [] ∧ Text.lower keyword = keyword ∧ '_' ∉ keyword) →
        ∀ (symbols : List Symbol) (held : List Located) (host : Host) (memory : DumpMemory), ∀ symbol ∈ symbols, ∀ located ∈ held,
          symbol.name = name → located.name = name →
            (symbol ∈ (Index.mk symbols).filter keywords .inside ↔
              ∀ keyword ∈ keywords, located ∈ ((Provider.held held).query host memory keyword).1.symbols)) := by
  have hinside : nameMatches .inside keywords name = true ↔
      ∀ keyword ∈ keywords, '_' ∉ keyword ∧ keyword <:+: Text.lower name := by
    simp only [nameMatches, List.all_eq_true, any_accepts_inside_iff]
  refine ⟨hinside, ?_, nameMatches_mono (Or.inr ⟨rfl, rfl⟩) (List.Subset.refl _), ?_⟩
  · simp only [nameMatches, List.all_eq_true, any_accepts_exact_iff]
  · intro hkeywords symbols held host memory symbol hs located hl hname hname'
    have hnormal : normalizeKeywords keywords = keywords :=
      normalizeKeywords_eq_self (fun k hk => (hkeywords k hk).1) (fun k hk => (hkeywords k hk).2.1)
    have hfilter : symbol ∈ (Index.mk symbols).filter keywords .inside ↔ nameMatches .inside keywords name = true := by
      rw [Index.filter, hnormal, List.mem_filter, hname, and_iff_right hs]
    rw [hfilter, hinside]
    refine forall₂_congr fun keyword hk => ?_
    rw [Provider.mem_query_held_iff hl, hname', (hkeywords keyword hk).2.1, and_iff_right (hkeywords keyword hk).2.2]

/-- A symbol of an index in whose name a capital sigma ends the first segment. -/
def streetSymbol : Symbol := .ofLetters 'Ο' "ΔΟΣ_Α".toList none none .empty

/-- The same symbol as a provider has it. -/
def streetLocated : Located := ⟨"ΟΔΟΣ_Α".toList, none, "file:///a.c".toList, ⟨⟨0, 0⟩, ⟨0, 6⟩⟩, none⟩

/-- The sigma at the end of a segment becomes a final sigma also in the whole name: the keyword that ends in one is a whole segment,
and so both the index and the provider find the symbol. -/
theorem nameMatches_whole_sigma :
    nameMatches .exact ["οδος".toList] streetSymbol.name = true ∧
      (streetSymbol ∈ (Index.mk [streetSymbol]).filter ["οδος".toList] .inside ↔
        ∀ keyword ∈ ["οδος".toList], streetLocated ∈
          ((Provider.held [streetLocated]).query .empty .fresh keyword).1.symbols) := by
  obtain ⟨-, hexact, -, hboth⟩ := nameMatches_whole streetSymbol.name ["οδος".toList]
  have hkeyword : ∀ keyword ∈ ["οδος".toList], Text.strip keyword ≠ [] ∧ Text.lower keyword = keyword ∧ '_' ∉ keyword := by
    intro keyword hk
    rw [List.mem_singleton.1 hk]
    decide +kernel
  have hstands : '_' :: ("οδος".toList ++ ['_']) <:+: '_' :: (Text.lower streetSymbol.name ++ ['_']) := by
    have hlower : Text.lower streetSymbol.name = "οδος_α".toList := by decide +kernel
    rw [hlower]
    exact ⟨[], "α_".toList, rfl⟩
  refine ⟨hexact.2 fun keyword hk => ⟨(hkeyword keyword hk).2.2, List.mem_singleton.1 hk ▸ hstands⟩, ?_⟩
  exact hboth hkeyword _ _ _ _ _ (List.mem_singleton_self _) _ (List.mem_singleton_self _) rfl rfl

end SymbolSearch
