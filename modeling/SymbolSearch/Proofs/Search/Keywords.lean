import Mathlib
import SymbolSearch.Proofs.Disk
import SymbolSearch.Proofs.Search.FirstMatch
import SymbolSearch.Proofs.Search.Session
import SymbolSearch.Proofs.Search.Trace

/-!
# Keywords and the results of a search

Whichever source answers, a result holds every keyword in its lower-case name (`keywords_infix_of_search`). More keywords narrow a
search: they never bring a match from an earlier source, and from the same source only some of the results, in the same order; so
the order of keywords and their repetition do not matter (`search_narrows`). Both are said of searchers whose provider, if any, has
symbols of its own.
-/

namespace SymbolSearch.Searcher

variable {searcher : Searcher} {host : Host} {memory memory' : DumpMemory} {query query' : Query} {mode mode' : MatchMode}

/-! ## Every result holds every keyword -/

/-- What a source has for the keywords of a text holds each of them in its lower-case name. -/
theorem infix_of_mem_matchesIn (hown : searcher.OwnsSymbols) {text : Text} {tier : Tier} {results : List Symbol}
    (h : searcher.matchesIn host memory (.ofText text) mode tier = .ok results) {symbol : Symbol} (hs : symbol ∈ results)
    {keyword : Text} (hk : keyword ∈ (Query.ofText text).keywords) : keyword <:+: Text.lower symbol.name := by
  cases tier with
  | tags =>
    rw [matchesIn_tags h, Index.filter, normalizeKeywords_keywords] at hs
    exact infix_of_nameMatches (List.mem_filter.1 hs).2 hk
  | provider =>
    obtain ⟨located, hlocated, hconverted⟩ := exists_of_mem_mapM (matchesIn_provider hown (List.ne_nil_of_mem hk) h) hs
    have hholds := List.all_eq_true.1 (List.mem_filter.1 hlocated).2 keyword hk
    rw [Query.lower_keyword hk, Text.occursIn_iff_infix] at hholds
    rw [name_of_toSymbol hconverted]
    exact hholds
  | scan =>
    obtain ⟨name, hname, hfound⟩ := exists_of_mem_mapM (matchesIn_scan h) hs
    rw [name_of_scannedSymbol hfound]
    exact Definition.infix_of_mem_filterNames hname hk (Query.keyword_spec hk).2.2

/-- No source brings a false match: every keyword of the query stands in the lower-case name of every result. -/
theorem keywords_infix_of_search (searcher : Searcher) (hown : searcher.OwnsSymbols) (host : Host) (memory : DumpMemory)
    (text : Text) (mode : MatchMode) (outcome : Outcome) (h : (searcher.search host memory text mode).1 = .ok outcome) :
    ∀ symbol ∈ outcome.results, ∀ keyword ∈ (Query.ofText text).keywords, keyword <:+: Text.lower symbol.name := by
  intro symbol hs keyword hk
  have hran := ran_of_search h
  have hq : (Query.ofText text).isEmpty = false := by
    rw [Query.isEmpty, List.isEmpty_eq_false_iff]
    exact List.ne_nil_of_mem hk
  rcases hran.first_match hq with ⟨tier, -, -, hmatches, -⟩ | ⟨-, hnone, -⟩
  · exact infix_of_mem_matchesIn hown hmatches hs hk
  · rw [hnone] at hs
    cases hs

/-- A disk with a tags file for one symbol, in whose name a capital sigma ends the first segment. -/
def sigmaHost : Host :=
  .ofRoot [("t".toList,
    .file [0xCE, 0x9F, 0xCE, 0x94, 0xCE, 0x9F, 0xCE, 0xA3, 0x5F, 0x62, 0x09, 0x61, 0x09, 0x31] 0 false)] rfl

/-- A searcher that asks this tags file, and behind it a provider that holds one symbol with the same first segment. -/
def sigmaSearcher : Searcher :=
  ⟨some ⟨.slash, ["t".toList]⟩, some (.held [⟨"ΟΔΟΣ_x".toList, none, "u".toList, ⟨⟨0, 0⟩, ⟨0, 0⟩⟩, none⟩]), none, none, false, 1⟩

/-- The provider of this searcher has symbols of its own. -/
theorem sigmaSearcher_ownsSymbols : sigmaSearcher.OwnsSymbols := by
  intro provider hp
  cases hp
  rfl

/-- The outcome of a search for the first segment. -/
def sigmaOutcome : Outcome where
  results := [.ofLetters 'Ο' "ΔΟΣ_b".toList (some (.after "/a".toList 0)) none .empty]
  echo := "ΟΔΟΣ".toList
  stage := .matched
  tier := some .tags
  trace := [.idle, .parsing, .matched, .done]
  error := none

set_option maxRecDepth 4000 in
/-- The tags file on this disk has its one symbol for the keywords that it matches. -/
theorem sigmaSearcher_askTags (query : Query) (mode : MatchMode) :
    sigmaSearcher.askTags sigmaHost query mode =
      let results := (Index.mk sigmaOutcome.results).filter query.keywords mode
      .ok ⟨[.parsing, if results.isEmpty then .emptyIndex else .matched], results, true⟩ := by
  have hfile : sigmaHost.isFile (Path.text ⟨.slash, ["t".toList]⟩) = .ok true := by cbv
  have hload : Tags.load sigmaHost (Path.text ⟨.slash, ["t".toList]⟩) false = .ok sigmaOutcome.results := by cbv
  simp only [askTags, sigmaSearcher, hfile, hload]
  rfl

set_option maxRecDepth 4000 in
/-- The tags file answers a search for the first segment in either mode. -/
theorem sigmaSearcher_search (memory : DumpMemory) (mode : MatchMode) :
    sigmaSearcher.search sigmaHost memory "ΟΔΟΣ".toList mode = (.ok sigmaOutcome, memory) := by
  have hquery : Query.ofText "ΟΔΟΣ".toList = ⟨"ΟΔΟΣ".toList, ["οδος".toList]⟩ := by cbv
  have hfilter : (Index.mk sigmaOutcome.results).filter ["οδος".toList] mode = sigmaOutcome.results := by
    cases mode <;> cbv
  rw [search, hquery]
  simp only [run, sigmaSearcher_askTags, hfilter]
  rfl

/-- Where the sigma of a segment becomes a final one, it does so in the whole name too. -/
theorem keywords_infix_sigma :
    (sigmaSearcher.search sigmaHost .fresh "ΟΔΟΣ".toList .exact).1 = .ok sigmaOutcome ∧
      ∀ symbol ∈ sigmaOutcome.results, ∀ keyword ∈ (Query.ofText "ΟΔΟΣ".toList).keywords,
        keyword <:+: Text.lower symbol.name := by
  have h : (sigmaSearcher.search sigmaHost .fresh "ΟΔΟΣ".toList .exact).1 = .ok sigmaOutcome := by
    rw [sigmaSearcher_search]
  exact ⟨h, keywords_infix_of_search sigmaSearcher sigmaSearcher_ownsSymbols sigmaHost .fresh _ _ sigmaOutcome h⟩

/-! ## More keywords narrow a search -/

/-- The memory after searches one after the other. -/
def memoryAfter (searcher : Searcher) (host : Host) (memory : DumpMemory) (searches : List (Text × MatchMode)) : DumpMemory :=
  searches.foldl (fun memory (text, mode) => (searcher.search host memory text mode).2) memory

/-- With either memory the provider, if there is one, gives the same responses. -/
def RecallsAlike (searcher : Searcher) (host : Host) (memory memory' : DumpMemory) : Prop :=
  ∀ provider, searcher.provider = some provider → provider.AnswersAlike host memory memory'

/-- A search on a disk changes no response of the provider to later searches on it. -/
theorem recallsAlike_search (searcher : Searcher) (host : Host) (memory : DumpMemory) (text : Text) (mode : MatchMode) :
    searcher.RecallsAlike host (searcher.search host memory text mode).2 memory := by
  intro provider hp
  cases provider with
  | held symbols => exact fun _ => rfl
  | asked respond => exact fun _ => rfl
  | dump path =>
    -- only a refreshed memory is ever stored, and refreshing it once more gives the same
    have hkeeps : ∀ m m' : DumpMemory, m.refresh host path = memory.refresh host path → m.refresh host path = .ok m' →
        m'.refresh host path = memory.refresh host path := by
      intro m m' hm hr
      rw [DumpMemory.refresh_refresh hr, ← hm, hr]
    have hrefresh := search_keeps hp hkeeps (rfl : memory.refresh host path = memory.refresh host path) text mode
    intro later
    simp only [Provider.query]
    rw [hrefresh]
    cases memory.refresh host path <;> rfl

/-- Searches on a disk change no response of the provider to later searches on it. -/
theorem recallsAlike_memoryAfter (searcher : Searcher) (host : Host) (memory : DumpMemory)
    (searches : List (Text × MatchMode)) : searcher.RecallsAlike host (searcher.memoryAfter host memory searches) memory := by
  induction searches generalizing memory with
  | nil => exact fun _ _ _ => rfl
  | cons first rest ih =>
    intro provider hp text
    exact (ih _ provider hp text).trans (recallsAlike_search searcher host memory first.1 first.2 provider hp text)

/-- Alike memories have the same to offer. -/
theorem RecallsAlike.offered_eq (h : searcher.RecallsAlike host memory memory') :
    searcher.offered host memory = searcher.offered host memory' := by
  unfold offered
  cases hp : searcher.provider with
  | none => rfl
  | some provider => simp only [Provider.stock, h provider hp []]

/-- A symbol that holds more keywords holds fewer. -/
theorem holds_mono {keywords keywords' : List Text} (hsub : keywords ⊆ keywords') {symbol : Located}
    (h : symbol.holds keywords' = true) : symbol.holds keywords = true := by
  rw [Located.holds, List.all_eq_true] at h ⊢
  exact fun keyword hk => h keyword (hsub hk)

/-- What a source has for more keywords is among what it has for fewer, in the same order. -/
theorem matchesIn_sublist (hown : searcher.OwnsSymbols) (hrecall : searcher.RecallsAlike host memory memory')
    (hne : query.keywords ≠ []) (hsub : query.keywords ⊆ query'.keywords)
    (hmode : mode = mode' ∨ mode' = .exact ∧ mode = .inside) {tier : Tier} {results results' : List Symbol}
    (h : searcher.matchesIn host memory query mode tier = .ok results)
    (h' : searcher.matchesIn host memory' query' mode' tier = .ok results') : results'.Sublist results := by
  cases tier with
  | tags =>
    rw [matchesIn_tags h, matchesIn_tags h']
    exact Index.filter_sublist hmode hsub _
  | provider =>
    have hne' : query'.keywords ≠ [] := fun hnil => hne (List.eq_nil_of_subset_nil (hnil ▸ hsub))
    have hmatches := matchesIn_provider hown hne h
    have hmatches' := matchesIn_provider hown hne' h'
    rw [← hrecall.offered_eq] at hmatches'
    exact mapM_sublist (List.monotone_filter_right _ fun symbol hs => holds_mono hsub hs) hmatches hmatches'
  | scan =>
    exact mapM_sublist (Definition.filterNames_sublist hsub _) (matchesIn_scan h) (matchesIn_scan h')

/-- Where a search with more keywords has a match, a search with fewer has one, from the same source or an earlier one, and from
the same source it has at least those results. -/
theorem Ran.narrows (hown : searcher.OwnsSymbols) (hrecall : searcher.RecallsAlike host memory memory')
    {outcome outcome' : Outcome} (h : Ran searcher host memory query mode (.ok outcome))
    (h' : Ran searcher host memory' query' mode' (.ok outcome')) (hne : query.keywords ≠ [])
    (hsub : query.keywords ⊆ query'.keywords) (hmode : mode = mode' ∨ mode' = .exact ∧ mode = .inside) {tier' : Tier}
    (ht' : outcome'.tier = some tier') :
    ∃ tier, outcome.tier = some tier ∧ tier.rank ≤ tier'.rank ∧ (tier = tier' → outcome'.results.Sublist outcome.results) := by
  have hq : query.isEmpty = false := List.isEmpty_eq_false_iff.2 hne
  have hq' : query'.isEmpty = false :=
    List.isEmpty_eq_false_iff.2 fun hnil => hne (List.eq_nil_of_subset_nil (hnil ▸ hsub))
  rcases h'.first_match hq' with ⟨t', ht, hresults', hmatches', -⟩ | ⟨hnone, -⟩
  · rw [ht] at ht'
    cases ht'
    -- the search with fewer keywords cannot have passed this source without a match
    have hpassed : searcher.matchesIn host memory query mode tier' ≠ .ok [] := by
      intro hempty
      exact hresults' (List.sublist_nil.1 (matchesIn_sublist hown hrecall hne hsub hmode hempty hmatches'))
    rcases h.first_match hq with ⟨tier, htier, -, hmatches, hearlier⟩ | ⟨-, -, hall⟩
    · refine ⟨tier, htier, ?_, ?_⟩
      · by_contra hlt
        exact hpassed (hearlier tier' (Nat.lt_of_not_le hlt))
      · rintro rfl
        exact matchesIn_sublist hown hrecall hne hsub hmode hmatches hmatches'
    · exact absurd (hall tier') hpassed
  · rw [hnone] at ht'
    cases ht'

/-- Two sources asked at the same place are the same. -/
theorem rank_injective : Function.Injective Tier.rank := by
  intro tier tier' h
  cases tier <;> cases tier' <;> cases h <;> rfl

/-- Searches for the same keywords, in whatever order and however often, have the same source and the same results. -/
theorem Ran.same (hown : searcher.OwnsSymbols) (hrecall : searcher.RecallsAlike host memory memory')
    (hrecall' : searcher.RecallsAlike host memory' memory) {outcome outcome' : Outcome}
    (h : Ran searcher host memory query mode (.ok outcome)) (h' : Ran searcher host memory' query' mode (.ok outcome'))
    (hne : query.keywords ≠ []) (hsub : query.keywords ⊆ query'.keywords) (hsub' : query'.keywords ⊆ query.keywords) :
    outcome.tier = outcome'.tier ∧ outcome.results = outcome'.results := by
  have hne' : query'.keywords ≠ [] := fun hnil => hne (List.eq_nil_of_subset_nil (hnil ▸ hsub))
  cases ht' : outcome'.tier with
  | some tier' =>
    obtain ⟨tier, ht, hle, hresults⟩ := h.narrows hown hrecall h' hne hsub (Or.inl rfl) ht'
    obtain ⟨t', ht'', hle', hresults'⟩ := h'.narrows hown hrecall' h hne' hsub' (Or.inl rfl) ht
    rw [ht'] at ht''
    cases ht''
    obtain rfl : tier = tier' := rank_injective (Nat.le_antisymm hle hle')
    exact ⟨ht, (hresults' rfl).antisymm (hresults rfl)⟩
  | none =>
    have ht : outcome.tier = none := by
      cases ht : outcome.tier with
      | none => rfl
      | some tier =>
        obtain ⟨t', ht'', -⟩ := h'.narrows hown hrecall' h hne' hsub' (Or.inl rfl) ht
        rw [ht'] at ht''
        cases ht''
    have hresults : outcome.results = [] := not_not.1 fun hr => h.consistent.results_iff.1 hr ht
    have hresults' : outcome'.results = [] := not_not.1 fun hr => h'.consistent.results_iff.1 hr ht'
    exact ⟨ht, hresults.trans hresults'.symm⟩

/-- A search without keywords has neither a source nor results. -/
theorem Ran.none_of_isEmpty {outcome : Outcome} (h : Ran searcher host memory query mode (.ok outcome))
    (hq : query.isEmpty = true) : outcome.tier = none ∧ outcome.results = [] := by
  have hstage := (h.consistent.withoutKeywords hq).2
  have ht : outcome.tier = none := by
    cases ht : outcome.tier with
    | none => rfl
    | some tier =>
      have hmatch := (h.consistent.tier_iff tier).1 ht
      rw [hstage] at hmatch
      cases tier <;> cases hmatch
  exact ⟨ht, not_not.1 fun hr => h.consistent.results_iff.1 hr ht⟩

/-- More keywords narrow a search. On one disk, at any two moments of a row of searches: where a search with more keywords has a
match, a search with some of them, in the same mode or in the laxer one, has a match from the same source or an earlier one, and
from the same source all those results, in the same order. Searches for the same keywords in one mode have the same source and
the same results. -/
theorem search_narrows (searcher : Searcher) (hown : searcher.OwnsSymbols) (host : Host) (memory : DumpMemory)
    (past past' : List (Text × MatchMode)) (text text' : Text) (mode mode' : MatchMode) (outcome outcome' : Outcome)
    (h : (searcher.search host (searcher.memoryAfter host memory past) text mode).1 = .ok outcome)
    (h' : (searcher.search host (searcher.memoryAfter host memory past') text' mode').1 = .ok outcome') :
    ((Query.ofText text).keywords ≠ [] → (Query.ofText text).keywords ⊆ (Query.ofText text').keywords →
      (mode = mode' ∨ mode' = .exact ∧ mode = .inside) → ∀ tier', outcome'.tier = some tier' →
        ∃ tier, outcome.tier = some tier ∧ tier.rank ≤ tier'.rank ∧
          (tier = tier' → outcome'.results.Sublist outcome.results)) ∧
    ((∀ keyword, keyword ∈ (Query.ofText text).keywords ↔ keyword ∈ (Query.ofText text').keywords) → mode = mode' →
      outcome.tier = outcome'.tier ∧ outcome.results = outcome'.results) := by
  have hran := ran_of_search h
  have hran' := ran_of_search h'
  have halike := recallsAlike_memoryAfter searcher host memory
  have hrecall : ∀ a b, searcher.RecallsAlike host (searcher.memoryAfter host memory a) (searcher.memoryAfter host memory b) :=
    fun a b provider hp text => (halike a provider hp text).trans (halike b provider hp text).symm
  refine ⟨fun hne hsub hmode tier' ht' => hran.narrows hown (hrecall _ _) hran' hne hsub hmode ht', ?_⟩
  rintro hiff rfl
  have hsub : (Query.ofText text).keywords ⊆ (Query.ofText text').keywords := fun keyword hk => (hiff keyword).1 hk
  have hsub' : (Query.ofText text').keywords ⊆ (Query.ofText text).keywords := fun keyword hk => (hiff keyword).2 hk
  by_cases hne : (Query.ofText text).keywords = []
  · have hne' : (Query.ofText text').keywords = [] := List.eq_nil_of_subset_nil (hne ▸ hsub')
    obtain ⟨ht, hresults⟩ := hran.none_of_isEmpty (List.isEmpty_iff.2 hne)
    obtain ⟨ht', hresults'⟩ := hran'.none_of_isEmpty (List.isEmpty_iff.2 hne')
    exact ⟨ht.trans ht'.symm, hresults.trans hresults'.symm⟩
  · exact hran.same hown (hrecall _ _) (hrecall _ _) hran' hne hsub hsub'

/-- The outcome of a search for both segments of the symbol that the provider holds. -/
def narrowOutcome : Outcome where
  results := [.ofLetters 'Ο' "ΔΟΣ_x".toList (some (.after "u".toList 0)) none (.ofPairs [("uri".toList, "u".toList)])]
  echo := "x ΟΔΟΣ x".toList
  stage := .providerMatched
  tier := some .provider
  trace := [.idle, .parsing, .emptyIndex, .queryingProvider, .providerMatched, .done]
  error := none

set_option maxRecDepth 4000 in
/-- A search for both segments passes the tags file and is answered by the provider. -/
theorem sigmaSearcher_search_both :
    sigmaSearcher.search sigmaHost .fresh "x ΟΔΟΣ x".toList .exact = (.ok narrowOutcome, .fresh) := by
  have hquery : Query.ofText "x ΟΔΟΣ x".toList = ⟨"x ΟΔΟΣ x".toList, ["x".toList, "οδος".toList, "x".toList]⟩ := by cbv
  have hfilter : (Index.mk sigmaOutcome.results).filter ["x".toList, "οδος".toList, "x".toList] .exact = [] := by cbv
  have hprovider : sigmaSearcher.askProvider sigmaHost .fresh
      ⟨"x ΟΔΟΣ x".toList, ["x".toList, "οδος".toList, "x".toList]⟩ =
      (.ok ⟨[.queryingProvider, .providerMatched], narrowOutcome.results, true⟩, .fresh) := by rfl
  rw [search, hquery]
  simp only [run, sigmaSearcher_askTags, hfilter, hprovider]
  rfl

/-- With fewer keywords and in the laxer mode an earlier source answers. -/
theorem search_narrows_sigma :
    (sigmaSearcher.search sigmaHost (sigmaSearcher.memoryAfter sigmaHost .fresh []) "ΟΔΟΣ".toList .inside).1 =
        .ok sigmaOutcome ∧
      (sigmaSearcher.search sigmaHost (sigmaSearcher.memoryAfter sigmaHost .fresh [("ΟΔΟΣ".toList, .inside)])
        "x ΟΔΟΣ x".toList .exact).1 = .ok narrowOutcome ∧
      ∃ tier, sigmaOutcome.tier = some tier ∧ tier.rank ≤ Tier.provider.rank := by
  have h : (sigmaSearcher.search sigmaHost (sigmaSearcher.memoryAfter sigmaHost .fresh []) "ΟΔΟΣ".toList .inside).1 =
      .ok sigmaOutcome := by
    rw [sigmaSearcher_search]
  have h' : (sigmaSearcher.search sigmaHost (sigmaSearcher.memoryAfter sigmaHost .fresh [("ΟΔΟΣ".toList, .inside)])
      "x ΟΔΟΣ x".toList .exact).1 = .ok narrowOutcome := by
    simp only [memoryAfter, List.foldl_cons, List.foldl_nil, sigmaSearcher_search, sigmaSearcher_search_both]
  have hquery : (Query.ofText "ΟΔΟΣ".toList).keywords = ["οδος".toList] := by cbv
  have hquery' : (Query.ofText "x ΟΔΟΣ x".toList).keywords = ["x".toList, "οδος".toList, "x".toList] := by cbv
  have hsub : (Query.ofText "ΟΔΟΣ".toList).keywords ⊆ (Query.ofText "x ΟΔΟΣ x".toList).keywords := by
    rw [hquery, hquery']
    exact List.cons_subset.2 ⟨List.mem_cons_of_mem _ List.mem_cons_self, List.nil_subset _⟩
  obtain ⟨tier, ht, hle, -⟩ := (search_narrows sigmaSearcher sigmaSearcher_ownsSymbols sigmaHost .fresh _ _ _ _ _ _ _ _ h h').1
    (by rw [hquery]; exact List.cons_ne_nil _ _) hsub (Or.inr ⟨rfl, rfl⟩) .provider rfl
  exact ⟨h, h', tier, ht, hle⟩

end SymbolSearch.Searcher
