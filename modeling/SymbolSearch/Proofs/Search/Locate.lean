import Mathlib
import SymbolSearch.Proofs.Disk
import SymbolSearch.Proofs.Scanner
import SymbolSearch.Proofs.Search.Tiers

/-!
# Locating what a search has found

Symbols found by scanning have no location until it is asked for. On the same sources it is always found.
-/

namespace SymbolSearch.Searcher

variable {searcher : Searcher} {host : Host} {memory : DumpMemory} {query : Query} {mode : MatchMode}

/-- A symbol found by scanning stands for a name that the scan of the searcher's own sources lists. -/
theorem Ran.scanned_symbol {outcome : Outcome} (h : Ran searcher host memory query mode (.ok outcome))
    (ht : outcome.tier = some .scan) {symbol : Symbol} (hs : symbol ∈ outcome.results) :
    ∃ scanner root names, searcher.scanner = some scanner ∧ searcher.scanRoot = some root ∧
      scanner.scan host root.text = .ok names ∧ scannedSymbol symbol.name = .ok symbol ∧ symbol.name ∈ names := by
  cases h with
  | noKeywords hq => cases ht
  | tagsMatch hq _ _ => cases ht
  | providerMatch hq _ _ _ _ => cases ht
  | noMatch hq _ _ _ _ _ _ => cases ht
  | unavailable hq _ _ _ _ _ _ _ _ => cases ht
  | @scanned tags provided scanned hq _ _ _ _ hsources =>
    obtain ⟨scanner, root, names, hscanner, hroot, hnames, hresults, -⟩ := askSources_ok hsources
    have hs : symbol ∈ scanned.results := hs
    obtain ⟨name, hname, hsymbol⟩ := exists_of_mem_mapM hresults hs
    obtain rfl := name_of_scannedSymbol hsymbol
    have hmem : symbol.name ∈ names := (List.mem_filter.1 hname).1
    rcases scannedNames_ok hnames with hscan | rfl
    · exact ⟨scanner, root, names, hscanner, hroot, hscan, hsymbol, hmem⟩
    · cases hmem

/-- Scanning and locating agree. Wherever a scan has an answer, every word that is no control word is located exactly if the scan
lists it, and then in the first source that defines it, at the first place that holds it, which comes no later than any line
that defines it. So every symbol that a search finds by scanning has a location. -/
theorem scan_locate_agree :
    (∀ (scanner : Scanner) (host : Host) (root : Text) (names : List Text), scanner.scan host root = .ok names →
      ∀ name, Definition.IsWord name → name ∉ Definition.controlWords →
        ∃ found, scanner.locate host root name = .ok found ∧ (found.isSome = true ↔ name ∈ names) ∧
          ∀ location, found = some location → Scanner.FoundIn (scanner.sources host root).items name location) ∧
    (∀ (searcher : Searcher) (host : Host) (memory : DumpMemory) (text : Text) (mode : MatchMode) (outcome : Outcome),
      (searcher.search host memory text mode).1 = .ok outcome → outcome.tier = some .scan →
        ∀ symbol ∈ outcome.results, ∃ location, searcher.resolve host symbol = .ok (some location)) := by
  refine ⟨fun scanner host root names h name hn hc => Scanner.locate_of_scan h hn hc, ?_⟩
  intro searcher host memory text mode outcome h ht symbol hs
  have hran := run_ran searcher host memory (.ofText text) mode
  rw [show (searcher.run host memory (.ofText text) mode).1 = .ok outcome from h] at hran
  obtain ⟨scanner, root, names, hscanner, hroot, hscan, hsymbol, hmem⟩ := hran.scanned_symbol ht hs
  obtain ⟨hn, hc⟩ := Scanner.isWord_of_mem_scan hscan hmem
  obtain ⟨found, hfound, hiff, -⟩ := Scanner.locate_of_scan hscan hn hc
  obtain ⟨location, rfl⟩ := Option.isSome_iff_exists.1 (hiff.2 hmem)
  refine ⟨location, ?_⟩
  rw [scannedSymbol_of_ne_nil symbol.name_ne_nil] at hsymbol
  have hlocation : symbol.location = none := congrArg Symbol.location (Except.ok.inj hsymbol).symm
  rw [resolve, hlocation, hscanner, hroot]
  exact hfound

/-- A disk with one source that defines one function. -/
def oneSourceHost : Host :=
  .ofRoot [("ws".toList, .folder [("a.c".toList, .ofAscii "int foo() \x7b\x7d".toList 0)])] (by cbv)

/-- A scanner of sources on a disk. -/
def plainScanner : Scanner :=
  ⟨.disk, ⟨Source.defaultSuffixes, [], [], false⟩⟩

/-- A searcher that only scans. -/
def scanningSearcher : Searcher :=
  ⟨none, none, some plainScanner, some ⟨.slash, ["ws".toList]⟩, false, 1⟩

/-- The one function as a symbol. -/
def scannedFoo : Symbol :=
  .ofLetters 'f' "oo".toList none (some "function".toList) .empty

/-- The outcome of a search for the one function. -/
def scannedOutcome : Outcome :=
  ⟨[scannedFoo], "foo".toList, .scanMatched, some .scan, [.idle, .scanning, .scanMatched, .done], none⟩

set_option maxRecDepth 4000 in
/-- The one function is listed and located, and what a search finds of it is resolved. -/
theorem scan_locate_agree_foo :
    plainScanner.scan oneSourceHost "/ws".toList = .ok ["foo".toList] ∧
      (∃ found, plainScanner.locate oneSourceHost "/ws".toList "foo".toList = .ok found ∧
        (found.isSome = true ↔ "foo".toList ∈ ["foo".toList])) ∧
      (scanningSearcher.search oneSourceHost .fresh "foo".toList .exact).1 = .ok scannedOutcome ∧
      ∃ location, scanningSearcher.resolve oneSourceHost scannedFoo = .ok (some location) := by
  have hscan : plainScanner.scan oneSourceHost "/ws".toList = .ok ["foo".toList] := by cbv
  have hroot : plainScanner.hasRoot oneSourceHost "/ws".toList = .ok true := by cbv
  have hquery : Query.ofText "foo".toList = ⟨"foo".toList, ["foo".toList]⟩ := by cbv
  have hnames : Definition.filterNames ["foo".toList] ["foo".toList] = ["foo".toList] := by cbv
  have hsources : scanningSearcher.askSources oneSourceHost ⟨"foo".toList, ["foo".toList]⟩ =
      .ok (some ⟨[.scanning, .scanMatched], [scannedFoo], true⟩) := by
    have hpath : Path.text ⟨.slash, ["ws".toList]⟩ = "/ws".toList := by cbv
    unfold askSources scanningSearcher scannedNames
    simp only [hpath, hroot, hscan]
    simp only [bind, Except.bind, Bool.not_true, Bool.false_eq_true, if_false, hnames]
    rfl
  have hsearch : (scanningSearcher.search oneSourceHost .fresh "foo".toList .exact).1 = .ok scannedOutcome := by
    rw [search, hquery]
    simp only [run, hsources]
    rfl
  obtain ⟨hn, hc⟩ := Scanner.isWord_of_mem_scan hscan (List.mem_singleton_self _)
  obtain ⟨found, hfound, hiff, -⟩ := scan_locate_agree.1 plainScanner oneSourceHost "/ws".toList _ hscan "foo".toList hn hc
  exact ⟨hscan, ⟨found, hfound, hiff⟩, hsearch,
    scan_locate_agree.2 scanningSearcher oneSourceHost .fresh "foo".toList .exact _ hsearch rfl _ (List.mem_singleton_self _)⟩

end SymbolSearch.Searcher
