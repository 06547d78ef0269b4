import Mathlib
import SymbolSearch.Proofs.Disk
import SymbolSearch.Proofs.Scanner
import SymbolSearch.Proofs.Search.Tiers
import SymbolSearch.Proofs.Source
import SymbolSearch.Proofs.Tags

/-!
# What a search does not survive

Most failures of a source only make it yield nothing, and the search goes on to the next one. The exceptions are `TagsBreak`,
`ProviderBreaks`, `SourcesBreak` and `ProbeHangs`: a search ends in a fault exactly if one of them is met before a source has a
match (`search_fault_iff`).
-/

namespace SymbolSearch

/-! ## Symbols of a provider -/

/-- A provider's symbol stands for no symbol: its document has an authority that is none, it has no name, or it is classified
by a number with too many digits. -/
def Located.IsRefused (symbol : Located) : Prop :=
  Uri.isAuthority (Uri.split symbol.uri).authority = false ∨ symbol.name = [] ∨
    ∃ n, symbol.kind = some (.code n) ∧ Number.digitLimit < (Text.ofNat n.natAbs).length

/-- The path of a document is refused exactly for its authority. -/
theorem Uri.toPath_error_iff {s : Text} :
    (∃ fault, Uri.toPath s = .error fault) ↔ Uri.isAuthority (Uri.split s).authority = false := by
  simp only [Uri.toPath]
  cases Uri.isAuthority (Uri.split s).authority with
  | false => simp
  | true =>
    simp only [Bool.not_true, Bool.false_eq_true, if_false, reduceCtorEq, iff_false, not_exists]
    intro fault
    split
    · exact fun h => nomatch h
    · exact fun h => nomatch h

/-- A classification is refused exactly for the number of its digits. -/
theorem Kind.text_error_iff {kind : Option Kind} :
    (∃ fault, kind.mapM Kind.text = .error fault) ↔
      ∃ n, kind = some (.code n) ∧ Number.digitLimit < (Text.ofNat n.natAbs).length := by
  cases kind with
  | none => simp [pure, Except.pure]
  | some kind =>
    cases kind with
    | word s => simp [Kind.text, Functor.map, Except.map]
    | code n =>
      simp only [Option.mapM_some, Kind.text, decimalText, Functor.map, map_eq_error_iff]
      split <;> simp_all

/-- A provider's symbol is converted unless it is refused. -/
theorem Located.toSymbol_error_iff {symbol : Located} : (∃ fault, symbol.toSymbol = .error fault) ↔ symbol.IsRefused := by
  rw [IsRefused, ← Uri.toPath_error_iff, ← Kind.text_error_iff]
  unfold toSymbol
  cases Uri.toPath symbol.uri with
  | error e => simp [bind, Except.bind]
  | ok path =>
    cases symbol.kind.mapM Kind.text with
    | error e => simp [bind, Except.bind]
    | ok kind =>
      have hmade : (∃ fault, Except.mapError Fault.invalid (do
          let location ← Location.make path (symbol.range.start.line + 1)
          Symbol.make symbol.name (some location) kind symbol.attributes) = .error fault) ↔ symbol.name = [] := by
        have hlocation := Location.make_of_le (Nat.le_add_left 1 symbol.range.start.line) path
        rw [Int.natCast_add, Int.natCast_one] at hlocation
        simp only [hlocation, mapError_eq_error_iff, bind, Except.bind]
        by_cases hname : symbol.name = []
        · simp [hname, Symbol.make, Symbol.checkName, Checked.under, Checked.fail, bind, Except.bind]
        · simp [hname, Symbol.make_of_ne_nil]
      simp only [bind, Except.bind] at hmade ⊢
      rw [hmade]
      simp

namespace Searcher

variable {searcher : Searcher} {host : Host} {memory : DumpMemory} {query : Query} {mode : MatchMode}

/-! ## Asking one source -/

/-- A source file is refused on a disk exactly if its path holds a NUL character. -/
theorem refuses_iff {path : Text} {fault : Fault} :
    Tags.Resolving.Refuses (.reading (fun s => (host.readText s).mapError Fault.disk)) path fault ↔
      '\x00' ∈ path ∧ fault = .disk .nulCharacter := by
  rw [← Host.readText_error_nul_iff]
  simp only [Tags.Resolving.Refuses, mapError_eq_error_iff]
  constructor
  · rintro ⟨⟨e, he, rfl⟩, hd⟩
    cases e <;> cases hd
    exact ⟨he, rfl⟩
  · rintro ⟨he, rfl⟩
    exact ⟨⟨_, he, rfl⟩, rfl⟩

/-- The directory from which the files of a tags file are seen. -/
def tagsDirectory (host : Host) (path : Path) : Text :=
  Path.directoryOf (Path.absolute host.workingDir.text path.text)

/-- What asking the tags file does not survive: a path of which the disk does not say whether a file is there, because a directory
on its way may not be searched or a name is too long, or a tag line with a search that has to be resolved in a file whose path holds
a NUL character. -/
def TagsBreak (searcher : Searcher) (host : Host) : Prop :=
  ∃ path, searcher.tagsPath = some path ∧
    (host.isFile path.text = .error .denied ∨ host.isFile path.text = .error .nameTooLong ∨
      searcher.resolvePatterns = true ∧ ∃ text, host.readText path.text = .ok text ∧
        ∃ line ∈ Tags.linesOf text, line.isSearch = true ∧ '\x00' ∈ Tags.pathOf (tagsDirectory host path) line.file)

/-- Loading a tags file that can be read fails exactly for a search in a file whose path holds a NUL character. -/
theorem load_error_iff {path : Path} {text : Text} (ht : host.readText path.text = .ok text) (resolvePatterns : Bool) :
    (∃ fault, Tags.load host path.text resolvePatterns = .error fault) ↔
      resolvePatterns = true ∧
        ∃ line ∈ Tags.linesOf text, line.isSearch = true ∧ '\x00' ∈ Tags.pathOf (tagsDirectory host path) line.file := by
  simp only [Tags.load, ht, Tags.parse_error_iff, exists_until_iff, Tags.Line.Stuck]
  cases resolvePatterns with
  | false => simp [Tags.Resolving.Refuses]
  | true => simp [refuses_iff, tagsDirectory]

/-- Loading a tags file that can be read never says that it cannot be. -/
theorem load_error {path : Path} {text : Text} {resolvePatterns : Bool} {fault : Fault}
    (ht : host.readText path.text = .ok text) (h : Tags.load host path.text resolvePatterns = .error fault) :
    fault = .disk .nulCharacter := by
  simp only [Tags.load, ht, Tags.parse_error_iff] at h
  obtain ⟨before, line, after, -, -, -, hrefuses⟩ := h
  cases resolvePatterns with
  | false => exact hrefuses.elim
  | true => exact (refuses_iff.1 hrefuses).2

/-- Asking the tags file ends in a fault exactly in these ways. -/
theorem askTags_error_iff :
    (∃ fault, searcher.askTags host query mode = .error fault) ↔ searcher.TagsBreak host := by
  unfold askTags TagsBreak
  cases searcher.tagsPath with
  | none => simp
  | some path =>
    simp only [Option.some.injEq, exists_eq_left']
    cases hf : host.isFile path.text with
    | error e =>
      rcases Host.isFile_error hf with rfl | rfl
      · simp [bind, Except.bind, Except.mapError]
      · simp [bind, Except.bind, Except.mapError]
    | ok found =>
      cases found with
      | false =>
        have hread : ∀ text, host.readText path.text ≠ .ok text := by
          intro text ht
          rw [Host.isFile_of_readText ht] at hf
          cases hf
        simp [bind, Except.bind, Except.mapError, hread]
      | true =>
        cases ht : host.readText path.text with
        | error e =>
          have hnul : e ≠ .nulCharacter := by
            rintro rfl
            rw [Host.isFile_of_nul (Host.readText_error_nul_iff.1 ht)] at hf
            cases hf
          have hload : Tags.load host path.text searcher.resolvePatterns = .error (.tagsUnreadable path.text) := by
            simp only [Tags.load, ht]
          simp [bind, Except.bind, Except.mapError, hload]
        | ok text =>
          simp only [reduceCtorEq, false_or, Except.ok.injEq, exists_eq_left', ← load_error_iff ht]
          cases hload : Tags.load host path.text searcher.resolvePatterns with
          | error e =>
            obtain rfl := load_error ht hload
            simp [bind, Except.bind, Except.mapError]
          | ok symbols => simp [bind, Except.bind, Except.mapError]

/-- What asking the provider does not survive: a symbol that all its answers share and that is refused. -/
def ProviderBreaks (searcher : Searcher) (host : Host) (memory : DumpMemory) (query : Query) : Prop :=
  ∃ provider, searcher.provider = some provider ∧
    ∃ symbol ∈ Located.shared (provider.queryKeywords host memory query.keywords searcher.mostWorkers).1, symbol.IsRefused

/-- Asking the provider ends in a fault exactly if a symbol that its answers share is refused. -/
theorem askProvider_error_iff :
    (∃ fault, (searcher.askProvider host memory query).1 = .error fault) ↔ searcher.ProviderBreaks host memory query := by
  unfold askProvider ProviderBreaks
  cases searcher.provider with
  | none => simp
  | some provider =>
    simp only [bind_eq_error_iff, reduceCtorEq, and_false, exists_false, or_false, mapM_error_iff,
      Located.toSymbol_error_iff, Option.some.injEq, exists_eq_left']

/-- What asking the sources does not survive: a root of which the tree cannot say whether it is a directory, for another reason
than a failure of the disk, and whatever breaks a scan. -/
def SourcesBreak (searcher : Searcher) (host : Host) : Prop :=
  ∃ scanner root, searcher.scanner = some scanner ∧ searcher.scanRoot = some root ∧
    ((∃ fault, (scanner.tree host).isDir (Scanner.rootPath host root.text) = .error fault ∧ fault.isDiskFailure = false) ∨
      (scanner.tree host).isDir (Scanner.rootPath host root.text) = .ok true ∧ scanner.Breaks host root.text)

/-- What callers promise: a tree of files that they give fails only as trees do. -/
def Promised (searcher : Searcher) : Prop :=
  ∀ scanner tree, searcher.scanner = some scanner → scanner.origin = .given tree → tree.Fails

/-- The tree that a scanner walks fails only as trees do. -/
theorem Promised.fails (hs : searcher.Promised) {scanner : Scanner} (h : searcher.scanner = some scanner) (host : Host) :
    (scanner.tree host).Fails := by
  unfold Scanner.tree
  split
  · exact FileTree.fails_ofHost host
  · rename_i tree ho
    exact hs scanner tree h ho

/-- A scan that is not survived is a fault of asking the sources. -/
theorem scannedNames_error_iff {scanner : Scanner} {root : Path} (ht : (scanner.tree host).Fails) :
    (∃ fault, scannedNames scanner host root = .error fault) ↔ scanner.Breaks host root.text := by
  rw [← Scanner.scan_uncontained_iff ht]
  unfold scannedNames
  cases scanner.scan host root.text with
  | ok names => simp
  | error e => cases hc : e.isContained <;> simp [hc]

/-- The functions that a scan answers with are symbols. -/
theorem scannedSymbols_ne_error {scanner : Scanner} {root : Path} {names : List Text}
    (h : scannedNames scanner host root = .ok names) (keywords : List Text) :
    ¬∃ fault, (Definition.filterNames names keywords).mapM scannedSymbol = .error fault := by
  rw [mapM_error_iff]
  rintro ⟨name, hmem, hfault⟩
  have hname : name ∈ names := (List.mem_filter.1 hmem).1
  rcases scannedNames_ok h with hscan | rfl
  · exact (Scanner.isWord_of_mem_scan hscan hname).1.ne_nil (scannedSymbol_error_iff.1 hfault)
  · cases hname

/-- Asking the sources ends in a fault exactly in these ways. -/
theorem askSources_error_iff (hs : searcher.Promised) :
    (∃ fault, searcher.askSources host query = .error fault) ↔ searcher.SourcesBreak host := by
  unfold askSources SourcesBreak
  cases hscanner : searcher.scanner with
  | none => simp
  | some scanner =>
    cases searcher.scanRoot with
    | none => simp
    | some root =>
      simp only [Option.some.injEq, exists_eq_left', exists_and_left, ← scannedNames_error_iff (hs.fails hscanner host),
        Scanner.hasRoot]
      cases (scanner.tree host).isDir (Scanner.rootPath host root.text) with
      | error e => cases hd : e.isDiskFailure <;> simp [hd, bind, Except.bind]
      | ok found =>
        cases found with
        | false => simp [bind, Except.bind]
        | true =>
          cases hnames : scannedNames scanner host root with
          | error e => simp [bind, Except.bind]
          | ok names =>
            have hsymbols := scannedSymbols_ne_error hnames query.keywords
            simp only [Bool.not_true, Bool.false_eq_true, if_false, bind_eq_error_iff, Except.ok.injEq, reduceCtorEq, and_false,
              false_and, exists_eq_left', false_or, exists_false, or_false, hsymbols]

/-- The provider, if there is one, is probed in vain exactly if it never answers the empty question. -/
theorem providerAnswers_error_iff :
    (∃ fault, (searcher.providerAnswers host memory).1 = .error fault) ↔
      ∃ respond, searcher.provider = some (.asked respond) ∧ respond [] = .hanging := by
  unfold providerAnswers
  cases searcher.provider with
  | none => simp
  | some provider =>
    cases provider with
    | held symbols => simp [Provider.isAvailable, Provider.query]
    | dump path =>
      simp only [Provider.isAvailable, Provider.query]
      cases memory.refresh host path <;> simp
    | asked respond =>
      simp only [Provider.isAvailable, Provider.query, Option.some.injEq, Provider.asked.injEq, exists_eq_left']
      cases respond [] <;> simp

/-! ## The whole search -/

/-- The tags file is asked and yields nothing. -/
def TagsYieldNone (searcher : Searcher) (host : Host) (query : Query) (mode : MatchMode) : Prop :=
  ∃ tags, searcher.askTags host query mode = .ok tags ∧ tags.results = []

/-- The provider is asked and yields nothing. -/
def ProviderYieldsNone (searcher : Searcher) (host : Host) (memory : DumpMemory) (query : Query) : Prop :=
  ∃ provided, (searcher.askProvider host memory query).1 = .ok provided ∧ provided.results = []

/-- What probing the provider does not survive: no source has given a sign of life, there is no tree to scan, and the provider never
answers the empty question, for which nobody limits the time. -/
def ProbeHangs (searcher : Searcher) (host : Host) (memory : DumpMemory) (query : Query) (mode : MatchMode) : Prop :=
  (∃ tags, searcher.askTags host query mode = .ok tags ∧ tags.alive = false) ∧
    (∃ provided, (searcher.askProvider host memory query).1 = .ok provided ∧ provided.alive = false) ∧
    searcher.askSources host query = .ok none ∧ ∃ respond, searcher.provider = some (.asked respond) ∧ respond [] = .hanging

/-- A query with keywords ends in a fault exactly if asking some source does, after all sources before it yielded nothing, or if
probing the provider hangs. -/
theorem run_error_iff :
    (∃ fault, (searcher.run host memory query mode).1 = .error fault) ↔
      query.isEmpty = false ∧
        ((∃ fault, searcher.askTags host query mode = .error fault) ∨
          searcher.TagsYieldNone host query mode ∧
            ((∃ fault, (searcher.askProvider host memory query).1 = .error fault) ∨
              searcher.ProviderYieldsNone host memory query ∧
                ((∃ fault, searcher.askSources host query = .error fault) ∨ searcher.ProbeHangs host memory query mode))) := by
  have hran := run_ran searcher host memory query mode
  generalize (searcher.run host memory query mode).1 = ended at hran
  unfold TagsYieldNone ProviderYieldsNone ProbeHangs
  have hprobe : (∃ fault, (searcher.providerAnswers host (searcher.askProvider host memory query).2).1 = .error fault) ↔
      ∃ respond, searcher.provider = some (.asked respond) ∧ respond [] = .hanging := providerAnswers_error_iff
  rw [← hprobe]
  cases hran with
  | noKeywords hq => simp [hq]
  | tagsFault hq ht => simp [hq, ht]
  | tagsMatch hq ht hr => simp [ht, hr]
  | providerFault hq ht hr hp => simp [hq, ht, hr, hp]
  | providerMatch hq ht hr hp hr' => simp [ht, hp, hr']
  | sourcesFault hq ht hr hp hr' hs => simp [hq, ht, hr, hp, hr', hs]
  | scanned hq ht hr hp hr' hs => simp [ht, hp, hs]
  | noMatch hq ht hr hp hr' hs ha =>
    rcases ha with ha | ha | ha
    · simp [ht, hp, hs, ha]
    · simp [ht, hp, hs, ha]
    · simp [ht, hp, hs, ha]
  | probeFault hq ht hr hp hr' hs ha ha' hn => simp [hq, ht, hr, hp, hr', hs, ha, ha', hn]
  | unavailable hq ht hr hp hr' hs ha ha' hn => simp [ht, hp, hs, hn]

/-- A search ends in a fault exactly if its query has keywords and a source breaks before one has a match, or the provider hangs when
it is probed at the end. Every other failure only makes a source yield nothing. -/
theorem search_fault_iff (hs : searcher.Promised) (host : Host) (memory : DumpMemory) (text : Text) (mode : MatchMode) :
    (∃ fault, (searcher.search host memory text mode).1 = .error fault) ↔
      (Query.ofText text).isEmpty = false ∧
        (searcher.TagsBreak host ∨
          searcher.TagsYieldNone host (.ofText text) mode ∧
            (searcher.ProviderBreaks host memory (.ofText text) ∨
              searcher.ProviderYieldsNone host memory (.ofText text) ∧
                (searcher.SourcesBreak host ∨ searcher.ProbeHangs host memory (.ofText text) mode))) := by
  rw [search, run_error_iff, askTags_error_iff, askProvider_error_iff, askSources_error_iff hs]

/-- A disk with one source, beside an ignore file that holds an exclamation mark and nothing else. -/
def loneMarkHost : Host :=
  .ofRoot [("ws".toList, .folder
    [(Ignore.fileName, .ofAscii ['!'] 0), ("a.c".toList, .ofAscii "int foo() \x7b\x7d".toList 0)])] (by cbv)

/-- A searcher that only scans that disk. -/
def loneMarkSearcher : Searcher :=
  ⟨none, none, some ⟨.disk, ⟨Source.defaultSuffixes, [], [], false⟩⟩, some ⟨.slash, ["ws".toList]⟩, true, 1⟩

set_option maxRecDepth 4000 in
/-- One exclamation mark in an ignore file, with no name behind it, ends every search that comes to scan the tree. -/
theorem search_fault_lone_mark :
    loneMarkSearcher.Promised ∧
      ∃ fault, (loneMarkSearcher.search loneMarkHost .fresh "foo".toList .exact).1 = .error fault := by
  have hs : loneMarkSearcher.Promised := by
    intro scanner tree hscanner horigin
    cases hscanner
    cases horigin
  have hroot : Scanner.rootPath loneMarkHost (Path.text ⟨.slash, ["ws".toList]⟩) = ⟨.slash, ["ws".toList]⟩ := by cbv
  have hobeyed : Ignore.obeyed loneMarkHost false ⟨.slash, ["ws".toList]⟩ = [⟨.slash, ["ws".toList, Ignore.fileName]⟩] := by cbv
  have hlines : Ignore.linesRead loneMarkHost ⟨.slash, ["ws".toList, Ignore.fileName]⟩ = [['!']] := by cbv
  have hshort : Ignore.HasShortRule loneMarkHost ⟨.slash, ["ws".toList, Ignore.fileName]⟩ := by
    refine ⟨['!'], ?_, by cbv⟩
    rw [hlines]
    exact List.mem_singleton_self _
  have hdir : (FileTree.ofHost loneMarkHost).isDir ⟨.slash, ["ws".toList]⟩ = .ok true := by cbv
  have hbreaks : loneMarkSearcher.SourcesBreak loneMarkHost := by
    refine ⟨_, _, rfl, rfl, Or.inr ⟨?_, .shortRule ?_ hshort⟩⟩
    · rw [hroot]
      exact hdir
    · rw [hroot, hobeyed]
      exact List.mem_singleton_self _
  have hquery : (Query.ofText "foo".toList).isEmpty = false := by cbv
  exact ⟨hs, (search_fault_iff hs loneMarkHost .fresh "foo".toList .exact).2
    ⟨hquery, Or.inr ⟨⟨_, rfl, rfl⟩, Or.inr ⟨⟨_, rfl, rfl⟩, Or.inl hbreaks⟩⟩⟩⟩

end Searcher

end SymbolSearch
