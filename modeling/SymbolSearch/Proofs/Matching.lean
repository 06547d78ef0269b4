import Mathlib.Data.List.Basic
import SymbolSearch.Definition
import SymbolSearch.Index
import SymbolSearch.Proofs.LowerCase

/-!
# Keywords and names

The keywords of a query are in lower case and hold no blanks (`keyword_spec`), so that comparing them once more in lower case
changes nothing. Each way to compare them with a name is a filter that more keywords only narrow, and what passes it holds every
keyword in its lower-case form: by segments (`infix_of_nameMatches`) and letter for letter (`infix_of_mem_filterNames`).
-/

namespace SymbolSearch

/-! ## The keywords of a query -/

/-- A keyword is not empty, holds no blanks and is in lower case. -/
theorem Query.keyword_spec {s keyword : Text} (h : keyword ∈ (Query.ofText s).keywords) :
    keyword ≠ [] ∧ (∀ c ∈ keyword, Text.isBlank c = false) ∧ ∀ c ∈ keyword, Text.IsLowered c := by
  obtain ⟨field, hfield, rfl⟩ := List.mem_map.1 h
  obtain ⟨hne, hblank⟩ := Text.of_mem_words hfield
  exact ⟨Text.lower_ne_nil hne, fun c hc => Text.isBlank_of_mem_lower hblank hc, fun c hc => Text.isLowered_of_mem_lower hc⟩

/-- A keyword is its own lower-case form. -/
theorem Query.lower_keyword {s keyword : Text} (h : keyword ∈ (Query.ofText s).keywords) : Text.lower keyword = keyword :=
  Text.lowerFrom_eq_self (keyword_spec h).2.2 false

/-- Keywords that are not blank and in lower case are normal already: none is dropped and none is changed. -/
theorem normalizeKeywords_eq_self {keywords : List Text} (hblank : ∀ keyword ∈ keywords, keyword.strip ≠ [])
    (hlower : ∀ keyword ∈ keywords, Text.lower keyword = keyword) : normalizeKeywords keywords = keywords := by
  have hkept : ∀ keyword ∈ keywords, (!keyword.strip.isEmpty) = true := by
    intro keyword hk
    simpa using hblank keyword hk
  rw [normalizeKeywords, List.filter_eq_self.2 hkept, List.map_congr_left hlower, List.map_id']

/-- The keywords of a query are normal already. -/
theorem normalizeKeywords_keywords (s : Text) : normalizeKeywords (Query.ofText s).keywords = (Query.ofText s).keywords := by
  refine normalizeKeywords_eq_self (fun keyword hk => ?_) (fun keyword hk => Query.lower_keyword hk)
  obtain ⟨hne, hblank, -⟩ := Query.keyword_spec hk
  rw [Text.strip, Text.trim_eq_self (fun c hc => hblank c (List.mem_of_head? hc))
    (fun c hc => hblank c (List.mem_of_getLast? hc))]
  exact hne

/-! ## By segments -/

/-- A keyword that matches a segment stands in it. -/
theorem MatchMode.infix_of_accepts {mode : MatchMode} {keyword segment : Text} (h : mode.accepts keyword segment = true) :
    keyword <:+: segment := by
  cases mode with
  | exact =>
    obtain rfl := of_decide_eq_true h
    exact List.infix_rfl
  | inside => exact Text.occursIn_iff_infix.1 h

/-- A keyword that is the segment stands in it, so it matches in either mode. -/
theorem MatchMode.accepts_inside {mode : MatchMode} {keyword segment : Text} (h : mode.accepts keyword segment = true) :
    MatchMode.inside.accepts keyword segment = true :=
  Text.occursIn_iff_infix.2 (infix_of_accepts h)

/-- A name that matches by its segments holds every keyword in its lower-case form. -/
theorem infix_of_nameMatches {mode : MatchMode} {keywords : List Text} {name keyword : Text}
    (h : nameMatches mode keywords name = true) (hk : keyword ∈ keywords) : keyword <:+: Text.lower name := by
  obtain ⟨segment, hsegment, haccepts⟩ := List.any_eq_true.1 (List.all_eq_true.1 h keyword hk)
  rw [segments, ← Text.splitOn_lower] at hsegment
  exact (MatchMode.infix_of_accepts haccepts).trans (Text.infix_of_mem_splitOn hsegment)

/-- Fewer keywords, or a laxer mode, let more names pass. -/
theorem nameMatches_mono {mode mode' : MatchMode} {keywords keywords' : List Text} {name : Text}
    (hmode : mode = mode' ∨ mode' = .exact ∧ mode = .inside) (hsub : keywords ⊆ keywords')
    (h : nameMatches mode' keywords' name = true) : nameMatches mode keywords name = true := by
  refine List.all_eq_true.2 fun keyword hk => ?_
  obtain ⟨segment, hsegment, haccepts⟩ := List.any_eq_true.1 (List.all_eq_true.1 h keyword (hsub hk))
  refine List.any_eq_true.2 ⟨segment, hsegment, ?_⟩
  rcases hmode with rfl | ⟨rfl, rfl⟩
  · exact haccepts
  · exact MatchMode.accepts_inside haccepts

/-- What an index finds with more keywords is among what it finds with fewer, in the same order. -/
theorem Index.filter_sublist {mode mode' : MatchMode} {keywords keywords' : List Text}
    (hmode : mode = mode' ∨ mode' = .exact ∧ mode = .inside) (hsub : keywords ⊆ keywords') (index : Index) :
    (index.filter keywords' mode').Sublist (index.filter keywords mode) := by
  have hnormal : normalizeKeywords keywords ⊆ normalizeKeywords keywords' :=
    List.map_subset _ (List.filter_subset _ hsub)
  exact List.monotone_filter_right _ (fun symbol h => nameMatches_mono hmode hnormal h)

/-! ## Letter for letter -/

/-- A name that holds every keyword letter for letter holds them in its lower-case form. -/
theorem Definition.infix_of_mem_filterNames {names keywords : List Text} {name keyword : Text}
    (h : name ∈ filterNames names keywords) (hk : keyword ∈ keywords) (hlow : ∀ c ∈ keyword, Text.IsLowered c) :
    keyword <:+: Text.lower name := by
  have hholds := List.all_eq_true.1 (List.mem_filter.1 h).2 keyword hk
  exact Text.infix_lowerFrom hlow (Text.occursIn_iff_infix.1 hholds) false

/-- What is found among names with more keywords is among what is found with fewer, in the same order. -/
theorem Definition.filterNames_sublist {keywords keywords' : List Text} (hsub : keywords ⊆ keywords') (names : List Text) :
    (filterNames names keywords').Sublist (filterNames names keywords) := by
  refine List.monotone_filter_right names fun name h => ?_
  rw [List.all_eq_true] at h ⊢
  exact fun keyword hk => h keyword (hsub hk)

end SymbolSearch
