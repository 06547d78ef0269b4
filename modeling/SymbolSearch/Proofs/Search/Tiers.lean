import SymbolSearch.Proofs.Answer
import SymbolSearch.Proofs.Symbol
import SymbolSearch.Search.Searcher

/-!
# The ways through a search

`Ran` lists every way a search can go, with the answers of the sources that lead there. The statements on outcomes, on faults
and on traces all start from it (`run_ran`), and from what a source can come to when it is asked (`askTags_ok`, `askProvider_ok`,
`askSources_ok`).
-/

namespace SymbolSearch.Searcher

variable {searcher : Searcher} {host : Host} {memory : DumpMemory} {query : Query} {mode : MatchMode}

/-! ## What asking one source comes to -/

/-- What asking the tags file comes to, with what decides it: there is no file at its path, or the file cannot be read, or it is
loaded and filtered. -/
theorem askTags_eq_ok {attempt : Attempt} (h : searcher.askTags host query mode = .ok attempt) :
    (attempt = .skipped ∧
        (searcher.tagsPath = none ∨ ∃ path, searcher.tagsPath = some path ∧ host.isFile path.text = .ok false)) ∨
      ∃ path, searcher.tagsPath = some path ∧ host.isFile path.text = .ok true ∧
        ((attempt = ⟨[.parsing], [], false⟩ ∧
            ∃ file, Tags.load host path.text searcher.resolvePatterns = .error (.tagsUnreadable file)) ∨
          ∃ symbols results, Tags.load host path.text searcher.resolvePatterns = .ok symbols ∧
            results = (Index.mk symbols).filter query.keywords mode ∧
            attempt = ⟨[.parsing, if results.isEmpty then .emptyIndex else .matched], results, true⟩) := by
  unfold askTags at h
  split at h
  · rename_i hpath
    cases h
    exact Or.inl ⟨rfl, Or.inl hpath⟩
  · rename_i path hpath
    obtain ⟨found, hfound, h⟩ := bind_eq_ok_iff.1 h
    have hfile := mapError_eq_ok_iff.1 hfound
    cases found with
    | false =>
      cases h
      exact Or.inl ⟨rfl, Or.inr ⟨path, hpath, hfile⟩⟩
    | true =>
      refine Or.inr ⟨path, hpath, hfile, ?_⟩
      simp only [Bool.not_true, Bool.false_eq_true, if_false] at h
      split at h
      · rename_i file hload
        cases h
        exact Or.inl ⟨rfl, file, hload⟩
      · cases h
      · rename_i symbols hload
        cases h
        exact Or.inr ⟨symbols, _, hload, rfl, rfl⟩

/-- The tags file is skipped, is found unreadable, or is parsed and has matches or none. -/
theorem askTags_ok {attempt : Attempt} (h : searcher.askTags host query mode = .ok attempt) :
    attempt = .skipped ∨ attempt = ⟨[.parsing], [], false⟩ ∨
      ∃ results : List Symbol, attempt = ⟨[.parsing, if results.isEmpty then .emptyIndex else .matched], results, true⟩ := by
  rcases askTags_eq_ok h with ⟨hskipped, -⟩ | ⟨path, -, -, ⟨hunreadable, -⟩ | ⟨symbols, results, -, -, hparsed⟩⟩
  · exact Or.inl hskipped
  · exact Or.inr (Or.inl hunreadable)
  · exact Or.inr (Or.inr ⟨results, hparsed⟩)

/-- A provider that is asked is queried and has symbols in common or none; without one there is nothing to ask. -/
theorem askProvider_ok {attempt : Attempt} (h : (searcher.askProvider host memory query).1 = .ok attempt) :
    (searcher.provider = none ∧ attempt = .skipped) ∨ (searcher.provider ≠ none ∧ ∃ (results : List Symbol) (alive : Bool),
      attempt = ⟨[.queryingProvider, if results.isEmpty then .providerEmpty else .providerMatched], results, alive⟩) := by
  unfold askProvider at h
  split at h
  · rename_i hp
    cases h
    exact Or.inl ⟨hp, rfl⟩
  · rename_i provider hp
    obtain ⟨results, -, h⟩ := bind_eq_ok_iff.1 h
    cases h
    exact Or.inr ⟨by rw [hp]; exact Option.some_ne_none provider, results, _, rfl⟩

/-- The names that a scan answers with are those of the sources, or none if it fails in a contained way. -/
theorem scannedNames_ok {scanner : Scanner} {root : Path} {names : List Text}
    (h : scannedNames scanner host root = .ok names) : scanner.scan host root.text = .ok names ∨ names = [] := by
  unfold scannedNames at h
  split at h
  · rename_i found hscan
    cases h
    exact Or.inl hscan
  · split at h
    · cases h
      exact Or.inr rfl
    · cases h

/-- A function whose name is not empty is a symbol. -/
theorem scannedSymbol_of_ne_nil {name : Text} (h : name ≠ []) :
    scannedSymbol name = .ok ⟨name, none, some "function".toList, .empty, h⟩ := by
  rw [scannedSymbol, Symbol.make_of_ne_nil h, mapError_eq_ok_iff]

/-- Functions are symbols exactly if their names are not empty. -/
theorem scannedSymbol_error_iff {name : Text} : (∃ fault, scannedSymbol name = .error fault) ↔ name = [] := by
  constructor
  · rintro ⟨fault, hfault⟩
    refine Decidable.byContradiction fun hname => ?_
    rw [scannedSymbol_of_ne_nil hname] at hfault
    cases hfault
  · rintro rfl
    exact ⟨_, rfl⟩

/-- The symbol of a function has its name and nothing else. -/
theorem name_of_scannedSymbol {name : Text} {symbol : Symbol} (h : scannedSymbol name = .ok symbol) : symbol.name = name := by
  by_cases hname : name = []
  · obtain ⟨fault, hfault⟩ := scannedSymbol_error_iff.2 hname
    rw [hfault] at h
    cases h
  · rw [scannedSymbol_of_ne_nil hname] at h
    cases h
    rfl

/-- What asking the sources comes to, with what decides it: a scanner or a root is missing, or the root is no directory, or the
sources are scanned. -/
theorem askSources_eq_ok {asked : Option Attempt} (h : searcher.askSources host query = .ok asked) :
    (asked = none ∧ (searcher.scanner = none ∨ searcher.scanRoot = none ∨
        ∃ scanner root, searcher.scanner = some scanner ∧ searcher.scanRoot = some root ∧
          scanner.hasRoot host root.text = .ok false)) ∨
      ∃ scanner root names attempt, searcher.scanner = some scanner ∧ searcher.scanRoot = some root ∧
        scanner.hasRoot host root.text = .ok true ∧ scannedNames scanner host root = .ok names ∧ asked = some attempt ∧
        (Definition.filterNames names query.keywords).mapM scannedSymbol = .ok attempt.results ∧
        attempt.stages = [.scanning, if attempt.results.isEmpty then .scanEmpty else .scanMatched] := by
  unfold askSources at h
  cases hscanner : searcher.scanner with
  | none =>
    simp only [hscanner] at h
    cases h
    exact Or.inl ⟨rfl, Or.inl rfl⟩
  | some scanner =>
    cases hroot : searcher.scanRoot with
    | none =>
      simp only [hscanner, hroot] at h
      cases h
      exact Or.inl ⟨rfl, Or.inr (Or.inl rfl)⟩
    | some root =>
      simp only [hscanner, hroot] at h
      obtain ⟨found, hfound, h⟩ := bind_eq_ok_iff.1 h
      cases found with
      | false =>
        cases h
        exact Or.inl ⟨rfl, Or.inr (Or.inr ⟨scanner, root, rfl, rfl, hfound⟩)⟩
      | true =>
        obtain ⟨names, hnames, h⟩ := bind_eq_ok_iff.1 h
        obtain ⟨results, hresults, h⟩ := bind_eq_ok_iff.1 h
        cases h
        exact Or.inr ⟨scanner, root, names, _, rfl, rfl, hfound, hnames, rfl, hresults, rfl⟩

/-- Sources that are there are scanned, and have definitions whose names hold all keywords or none. -/
theorem askSources_ok {attempt : Attempt} (h : searcher.askSources host query = .ok (some attempt)) :
    ∃ scanner root names, searcher.scanner = some scanner ∧ searcher.scanRoot = some root ∧
      scannedNames scanner host root = .ok names ∧
      (Definition.filterNames names query.keywords).mapM scannedSymbol = .ok attempt.results ∧
      attempt.stages = [.scanning, if attempt.results.isEmpty then .scanEmpty else .scanMatched] := by
  rcases askSources_eq_ok h with ⟨hnone, -⟩ | ⟨scanner, root, names, scanned, hs, hr, -, hnames, hasked, hresults, hstages⟩
  · cases hnone
  · cases hasked
    exact ⟨scanner, root, names, hs, hr, hnames, hresults, hstages⟩

/-! ## All ways -/

/-- Every way a search can go: which sources were asked, what they answered, and what the search ends with. -/
inductive Ran (searcher : Searcher) (host : Host) (memory : DumpMemory) (query : Query) (mode : MatchMode) :
    Except Fault Outcome → Prop where
  | noKeywords (hq : query.isEmpty = true) :
      Ran searcher host memory query mode (.ok (.finish query [.idle] .done [] none none))
  | tagsFault {fault : Fault} (hq : query.isEmpty = false) (ht : searcher.askTags host query mode = .error fault) :
      Ran searcher host memory query mode (.error fault)
  | tagsMatch {tags : Attempt} (hq : query.isEmpty = false) (ht : searcher.askTags host query mode = .ok tags)
      (hr : tags.results ≠ []) :
      Ran searcher host memory query mode (.ok (ending query (.idle :: tags.stages) tags.results (some .tags)))
  | providerFault {tags : Attempt} {fault : Fault} (hq : query.isEmpty = false)
      (ht : searcher.askTags host query mode = .ok tags) (hr : tags.results = [])
      (hp : (searcher.askProvider host memory query).1 = .error fault) : Ran searcher host memory query mode (.error fault)
  | providerMatch {tags provided : Attempt} (hq : query.isEmpty = false)
      (ht : searcher.askTags host query mode = .ok tags) (hr : tags.results = [])
      (hp : (searcher.askProvider host memory query).1 = .ok provided) (hr' : provided.results ≠ []) :
      Ran searcher host memory query mode
        (.ok (ending query (.idle :: tags.stages ++ provided.stages) provided.results (some .provider)))
  | sourcesFault {tags provided : Attempt} {fault : Fault} (hq : query.isEmpty = false)
      (ht : searcher.askTags host query mode = .ok tags) (hr : tags.results = [])
      (hp : (searcher.askProvider host memory query).1 = .ok provided) (hr' : provided.results = [])
      (hs : searcher.askSources host query = .error fault) : Ran searcher host memory query mode (.error fault)
  | scanned {tags provided scanned : Attempt} (hq : query.isEmpty = false)
      (ht : searcher.askTags host query mode = .ok tags) (hr : tags.results = [])
      (hp : (searcher.askProvider host memory query).1 = .ok provided) (hr' : provided.results = [])
      (hs : searcher.askSources host query = .ok (some scanned)) :
      Ran searcher host memory query mode (.ok (ending query (.idle :: tags.stages ++ provided.stages ++ scanned.stages)
        scanned.results (if scanned.results.isEmpty then none else some .scan)))
  | noMatch {tags provided : Attempt} (hq : query.isEmpty = false)
      (ht : searcher.askTags host query mode = .ok tags) (hr : tags.results = [])
      (hp : (searcher.askProvider host memory query).1 = .ok provided) (hr' : provided.results = [])
      (hs : searcher.askSources host query = .ok none)
      (ha : tags.alive = true ∨ provided.alive = true ∨
        (searcher.providerAnswers host (searcher.askProvider host memory query).2).1 = .ok true) :
      Ran searcher host memory query mode (.ok (ending query (.idle :: tags.stages ++ provided.stages) [] none))
  | probeFault {tags provided : Attempt} {fault : Fault} (hq : query.isEmpty = false)
      (ht : searcher.askTags host query mode = .ok tags) (hr : tags.results = [])
      (hp : (searcher.askProvider host memory query).1 = .ok provided) (hr' : provided.results = [])
      (hs : searcher.askSources host query = .ok none) (ha : tags.alive = false) (ha' : provided.alive = false)
      (hn : (searcher.providerAnswers host (searcher.askProvider host memory query).2).1 = .error fault) :
      Ran searcher host memory query mode (.error fault)
  | unavailable {tags provided : Attempt} (hq : query.isEmpty = false)
      (ht : searcher.askTags host query mode = .ok tags) (hr : tags.results = [])
      (hp : (searcher.askProvider host memory query).1 = .ok provided) (hr' : provided.results = [])
      (hs : searcher.askSources host query = .ok none) (ha : tags.alive = false) (ha' : provided.alive = false)
      (hn : (searcher.providerAnswers host (searcher.askProvider host memory query).2).1 = .ok false) :
      Ran searcher host memory query mode
        (.ok (.finish query (.idle :: tags.stages ++ provided.stages) .unavailable [] none (some unavailableMessage)))

/-- A search goes one of the listed ways. -/
theorem run_ran (searcher : Searcher) (host : Host) (memory : DumpMemory) (query : Query) (mode : MatchMode) :
    Ran searcher host memory query mode (searcher.run host memory query mode).1 := by
  unfold run
  split
  · rename_i hq
    exact .noKeywords hq
  · rename_i hq
    rw [Bool.not_eq_true] at hq
    split
    · rename_i fault ht
      exact .tagsFault hq ht
    · rename_i tags ht
      split
      · rename_i hr
        exact .tagsMatch hq ht (by simpa using hr)
      · rename_i hr
        have hr : tags.results = [] := by simpa using hr
        rcases hask : searcher.askProvider host memory query with ⟨asked, after⟩
        have hfst : (searcher.askProvider host memory query).1 = asked := by rw [hask]
        have hsnd : (searcher.askProvider host memory query).2 = after := by rw [hask]
        cases asked with
        | error fault => exact .providerFault hq ht hr hfst
        | ok provided =>
          simp only
          split
          · rename_i hr'
            exact .providerMatch hq ht hr hfst (by simpa using hr')
          · rename_i hr'
            have hr' : provided.results = [] := by simpa using hr'
            split
            · rename_i fault hs
              exact .sourcesFault hq ht hr hfst hr' hs
            · rename_i scanned hs
              exact .scanned hq ht hr hfst hr' hs
            · rename_i hs
              split
              · rename_i ha
                rw [Bool.or_eq_true] at ha
                exact .noMatch hq ht hr hfst hr' hs (ha.imp_right Or.inl)
              · rename_i ha
                simp only [Bool.or_eq_true, not_or, Bool.not_eq_true] at ha
                split
                · rename_i hn
                  exact .probeFault hq ht hr hfst hr' hs ha.1 ha.2 (by rw [hsnd, hn])
                · rename_i hn
                  exact .noMatch hq ht hr hfst hr' hs (Or.inr (Or.inr (by rw [hsnd, hn])))
                · rename_i hn
                  exact .unavailable hq ht hr hfst hr' hs ha.1 ha.2 (by rw [hsnd, hn])

/-- A search for a text that has an outcome goes one of the ways that end with it. -/
theorem ran_of_search {text : Text} {outcome : Outcome} (h : (searcher.search host memory text mode).1 = .ok outcome) :
    Ran searcher host memory (.ofText text) mode (.ok outcome) := by
  have hran := run_ran searcher host memory (.ofText text) mode
  rw [search] at h
  rw [h] at hran
  exact hran

end SymbolSearch.Searcher
