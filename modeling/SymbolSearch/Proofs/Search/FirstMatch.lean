import SymbolSearch.Proofs.Matching
import SymbolSearch.Proofs.Provider
import SymbolSearch.Proofs.Search.Tiers
import SymbolSearch.Proofs.Symbol

/-!
# The first source that has a match

The outcome of a search is what the first source with a match has, and the sources before it have none (`Ran.first_match`). What a
source has for a query is a filter on something that does not depend on the query: the symbols of the tags file
(`matchesIn_tags`), the symbols that the provider offers (`matchesIn_provider`), the names that the sources define
(`matchesIn_scan`).
-/

namespace SymbolSearch

/-- The place of a source in the order in which they are asked. -/
def Tier.rank : Tier → Nat
  | tags => 0
  | provider => 1
  | scan => 2

namespace Searcher

variable {searcher : Searcher} {host : Host} {memory : DumpMemory} {query : Query} {mode : MatchMode}

/-- What a source has for a query, whether a search comes to ask it or not. -/
def matchesIn (searcher : Searcher) (host : Host) (memory : DumpMemory) (query : Query) (mode : MatchMode) :
    Tier → Except Fault (List Symbol)
  | .tags => (searcher.askTags host query mode).map (·.results)
  | .provider => (searcher.askProvider host memory query).1.map (·.results)
  | .scan => (searcher.askSources host query).map (fun asked => (asked.map (·.results)).getD [])

/-- A search for keywords ends with what the first source with a match has, or without a result if none has a match. All
sources up to that one have been asked and have answered. -/
theorem Ran.first_match {outcome : Outcome} (h : Ran searcher host memory query mode (.ok outcome))
    (hq : query.isEmpty = false) :
    (∃ tier, outcome.tier = some tier ∧ outcome.results ≠ [] ∧
        searcher.matchesIn host memory query mode tier = .ok outcome.results ∧
        ∀ earlier : Tier, earlier.rank < tier.rank → searcher.matchesIn host memory query mode earlier = .ok []) ∨
      outcome.tier = none ∧ outcome.results = [] ∧ ∀ tier, searcher.matchesIn host memory query mode tier = .ok [] := by
  cases h with
  | noKeywords hempty =>
    rw [hempty] at hq
    cases hq
  | @tagsMatch tags _ ht hr =>
    refine Or.inl ⟨.tags, rfl, hr, map_eq_ok_iff.2 ⟨tags, ht, rfl⟩, ?_⟩
    intro earlier hrank
    cases hrank
  | @providerMatch tags provided _ ht hr hp hr' =>
    refine Or.inl ⟨.provider, rfl, hr', map_eq_ok_iff.2 ⟨provided, hp, rfl⟩, ?_⟩
    intro earlier hrank
    cases earlier with
    | tags => exact map_eq_ok_iff.2 ⟨tags, ht, hr⟩
    | provider => exact absurd hrank (by decide)
    | scan => exact absurd hrank (by decide)
  | @scanned tags provided scanned _ ht hr hp hr' hs =>
    have htags : searcher.matchesIn host memory query mode .tags = .ok [] := map_eq_ok_iff.2 ⟨tags, ht, hr⟩
    have hprovider : searcher.matchesIn host memory query mode .provider = .ok [] := map_eq_ok_iff.2 ⟨provided, hp, hr'⟩
    have hscan : searcher.matchesIn host memory query mode .scan = .ok scanned.results :=
      map_eq_ok_iff.2 ⟨some scanned, hs, rfl⟩
    by_cases hempty : scanned.results = []
    · refine Or.inr ⟨?_, hempty, ?_⟩
      · rw [ending, Outcome.finish, hempty]
        rfl
      · intro tier
        cases tier with
        | tags => exact htags
        | provider => exact hprovider
        | scan => rw [hscan, hempty]
    · refine Or.inl ⟨.scan, ?_, hempty, hscan, ?_⟩
      · rw [ending, Outcome.finish, List.isEmpty_eq_false_iff.2 hempty]
        rfl
      · intro earlier hrank
        cases earlier with
        | tags => exact htags
        | provider => exact hprovider
        | scan => exact absurd hrank (by decide)
  | @noMatch tags provided _ ht hr hp hr' hs _ =>
    refine Or.inr ⟨rfl, rfl, ?_⟩
    intro tier
    cases tier with
    | tags => exact map_eq_ok_iff.2 ⟨tags, ht, hr⟩
    | provider => exact map_eq_ok_iff.2 ⟨provided, hp, hr'⟩
    | scan => exact map_eq_ok_iff.2 ⟨none, hs, rfl⟩
  | @unavailable tags provided _ ht hr hp hr' hs _ _ _ =>
    refine Or.inr ⟨rfl, rfl, ?_⟩
    intro tier
    cases tier with
    | tags => exact map_eq_ok_iff.2 ⟨tags, ht, hr⟩
    | provider => exact map_eq_ok_iff.2 ⟨provided, hp, hr'⟩
    | scan => exact map_eq_ok_iff.2 ⟨none, hs, rfl⟩

/-! ## The tags file -/

/-- The symbols of the tags file; none if it is not there or cannot be read. -/
def indexed (searcher : Searcher) (host : Host) : List Symbol :=
  match searcher.tagsPath with
  | none => []
  | some path =>
    match host.isFile path.text with
    | .ok true => (Tags.load host path.text searcher.resolvePatterns).toOption.getD []
    | _ => []

/-- The tags file has the symbols in it whose names match. -/
theorem matchesIn_tags {results : List Symbol} (h : searcher.matchesIn host memory query mode .tags = .ok results) :
    results = (Index.mk (searcher.indexed host)).filter query.keywords mode := by
  obtain ⟨attempt, hask, rfl⟩ := map_eq_ok_iff.1 h
  unfold indexed
  rcases askTags_eq_ok hask with ⟨rfl, hpath | ⟨path, hpath, hfile⟩⟩ | ⟨path, hpath, hfile, hread⟩
  · simp only [hpath]
    rfl
  · simp only [hpath, hfile]
    rfl
  · simp only [hpath, hfile]
    rcases hread with ⟨rfl, file, hload⟩ | ⟨symbols, results, hload, hresults, rfl⟩
    · rw [hload]
      rfl
    · rw [hload]
      exact hresults

/-! ## The provider -/

/-- The provider, if there is one, has symbols of its own. -/
def OwnsSymbols (searcher : Searcher) : Prop :=
  ∀ provider, searcher.provider = some provider → provider.hasOwnSymbols = true

/-- What the provider has to offer: its stock, each identity once. -/
def offered (searcher : Searcher) (host : Host) (memory : DumpMemory) : List Located :=
  match searcher.provider with
  | none => []
  | some provider => Located.firsts (provider.stock host memory)

/-- A provider with symbols of its own has those of its offer that hold every keyword. -/
theorem matchesIn_provider (hown : searcher.OwnsSymbols) (hne : query.keywords ≠ []) {results : List Symbol}
    (h : searcher.matchesIn host memory query mode .provider = .ok results) :
    ((searcher.offered host memory).filter (Located.holds query.keywords)).mapM Located.toSymbol = .ok results := by
  obtain ⟨attempt, hask, rfl⟩ := map_eq_ok_iff.1 h
  cases hp : searcher.provider with
  | none =>
    simp only [askProvider, hp] at hask
    cases hask
    simp only [offered, hp]
    rfl
  | some provider =>
    simp only [askProvider, hp] at hask
    obtain ⟨symbols, hsymbols, hask⟩ := bind_eq_ok_iff.1 hask
    cases hask
    rw [Provider.shared_queryKeywords (hown provider hp) hne] at hsymbols
    simp only [offered, hp]
    exact hsymbols

/-- A converted symbol keeps its name. -/
theorem name_of_toSymbol {located : Located} {symbol : Symbol} (h : located.toSymbol = .ok symbol) :
    symbol.name = located.name := by
  obtain ⟨path, -, h⟩ := bind_eq_ok_iff.1 h
  obtain ⟨kind, -, h⟩ := bind_eq_ok_iff.1 h
  obtain ⟨location, -, h⟩ := bind_eq_ok_iff.1 (mapError_eq_ok_iff.1 h)
  by_cases hname : located.name = []
  · rw [hname] at h
    cases h
  · rw [Symbol.make_of_ne_nil hname] at h
    cases h
    rfl

/-! ## The sources -/

/-- The names that the sources define; none if there is nothing to scan. -/
def scannable (searcher : Searcher) (host : Host) : List Text :=
  match searcher.scanner, searcher.scanRoot with
  | some scanner, some root =>
    match scanner.hasRoot host root.text with
    | .ok true => (scannedNames scanner host root).toOption.getD []
    | _ => []
  | _, _ => []

/-- The sources have the names they define that hold every keyword. -/
theorem matchesIn_scan {results : List Symbol} (h : searcher.matchesIn host memory query mode .scan = .ok results) :
    (Definition.filterNames (searcher.scannable host) query.keywords).mapM scannedSymbol = .ok results := by
  obtain ⟨asked, hask, rfl⟩ := map_eq_ok_iff.1 h
  unfold scannable
  rcases askSources_eq_ok hask with ⟨rfl, hnone | hnone | ⟨scanner, root, hscanner, hroot, hfound⟩⟩ |
      ⟨scanner, root, names, attempt, hscanner, hroot, hfound, hnames, rfl, hresults, -⟩
  · simp only [hnone]
    rfl
  · simp only [hnone]
    cases searcher.scanner <;> rfl
  · simp only [hscanner, hroot, hfound]
    rfl
  · simp only [hscanner, hroot, hfound, hnames]
    exact hresults

end Searcher

end SymbolSearch
