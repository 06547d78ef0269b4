import Mathlib
import SymbolSearch.Proofs.Provider
import SymbolSearch.Proofs.Search.Failure
import SymbolSearch.Proofs.Search.Trace

/-!
# When no source is available

A search that finds nothing says whether it had anything to look in. The three ways in which a source is missing are said here of
the disk and of the provider's responses (`NoTags`, `NoAnswers`, the negation of `HasRoot`), and a search is at the unavailable
stage exactly if all three hold (`Ran.unavailable_iff`). A search that had a source and found nothing ends at the last source that
it could ask (`Ran.unmatched`). `search_unmatched` says both of every text with keywords.
-/

namespace SymbolSearch.Searcher

variable {searcher : Searcher} {host : Host} {memory : DumpMemory} {query : Query} {mode : MatchMode} {outcome : Outcome}

/-- There is no tags file to read: no path is given, it leads to no file, or the file cannot be opened. -/
def NoTags (searcher : Searcher) (host : Host) : Prop :=
  searcher.tagsPath = none ∨ ∃ path, searcher.tagsPath = some path ∧
    (host.isFile path.text ≠ .ok true ∨ ∃ e, host.readText path.text = .error e)

/-- No provider gives a sign of life: there is none, or the questions for the keywords bring no symbol and neither does the empty
question. -/
def NoAnswers (searcher : Searcher) (host : Host) (memory : DumpMemory) (keywords : List Text) : Prop :=
  searcher.provider = none ∨ ∃ provider, searcher.provider = some provider ∧
    Provider.NoneServed (Provider.workers searcher.mostWorkers keywords.length)
      (keywords.map (fun keyword => (provider.query host memory keyword).1)) ∧
    (provider.query host memory []).1.symbols = []

/-- There are sources to scan: a scanner and a root are given, and the root is a directory that can be looked into. -/
def HasRoot (searcher : Searcher) (host : Host) : Prop :=
  ∃ scanner root, searcher.scanner = some scanner ∧ searcher.scanRoot = some root ∧
    (scanner.tree host).isDir (Scanner.rootPath host root.text) = .ok true

/-! ## What an attempt says about its source -/

/-- A tags file with matches is alive. -/
theorem alive_of_tagsMatch {tags : Attempt} (h : searcher.askTags host query mode = .ok tags) (hr : tags.results ≠ []) :
    tags.alive = true := by
  rcases askTags_ok h with rfl | rfl | ⟨results, rfl⟩
  · exact absurd rfl hr
  · exact absurd rfl hr
  · rfl

/-- Asking the tags file finds it alive unless there is none to read. -/
theorem tags_alive_iff {tags : Attempt} (h : searcher.askTags host query mode = .ok tags) :
    tags.alive = false ↔ searcher.NoTags host := by
  rcases askTags_eq_ok h with ⟨rfl, hnone | ⟨path, hpath, hfile⟩⟩ | ⟨path, hpath, hfile, hload⟩
  · exact iff_of_true rfl (Or.inl hnone)
  · refine iff_of_true rfl (Or.inr ⟨path, hpath, Or.inl ?_⟩)
    rw [hfile]
    simp
  · rcases hload with ⟨rfl, file, hload⟩ | ⟨symbols, results, hload, -, rfl⟩
    · refine iff_of_true rfl (Or.inr ⟨path, hpath, Or.inr ?_⟩)
      cases hread : host.readText path.text with
      | error e => exact ⟨e, rfl⟩
      | ok text => cases load_error hread hload
    · refine iff_of_false nofun ?_
      rintro (hnone | ⟨path', hpath', hno⟩)
      · rw [hpath] at hnone
        cases hnone
      · rw [hpath, Option.some.injEq] at hpath'
        subst hpath'
        rcases hno with hno | ⟨e, he⟩
        · exact hno hfile
        · unfold Tags.load at hload
          rw [he] at hload
          cases e <;> cases hload

/-- A provider that has not been alive shares no symbol. -/
theorem alive_of_providerMatch {provided : Attempt} (h : (searcher.askProvider host memory query).1 = .ok provided)
    (hr : provided.results ≠ []) : provided.alive = true := by
  unfold askProvider at h
  split at h
  · cases h
    exact absurd rfl hr
  · rename_i provider _
    obtain ⟨results, hresults, h⟩ := bind_eq_ok_iff.1 h
    cases h
    -- the results come from the first set, so it is not empty
    cases hsets : (provider.queryKeywords host memory query.keywords searcher.mostWorkers).1 with
    | nil =>
      rw [hsets] at hresults
      cases hresults
      exact absurd rfl hr
    | cons first others =>
      cases first with
      | cons symbol first => simp
      | nil =>
        rw [hsets, Located.shared, Located.foldl_filter_hasIdentity] at hresults
        cases hresults
        exact absurd rfl hr

/-- Neither the questions for the keywords nor the empty one show the provider alive, exactly if it gives no answers. -/
theorem provider_silent_iff {provided : Attempt} (h : (searcher.askProvider host memory query).1 = .ok provided) :
    provided.alive = false ∧ (searcher.providerAnswers host (searcher.askProvider host memory query).2).1 ≠ .ok true ↔
      searcher.NoAnswers host memory query.keywords := by
  unfold NoAnswers
  cases hp : searcher.provider with
  | none =>
    simp only [askProvider, hp] at h
    cases h
    simp [providerAnswers, hp, Attempt.skipped]
  | some provider =>
    obtain ⟨hresponses, hafter⟩ := Provider.queryAll_responses provider host memory query.keywords
    simp only [askProvider, hp] at h
    obtain ⟨results, -, h⟩ := bind_eq_ok_iff.1 h
    cases h
    simp only [reduceCtorEq, Option.some.injEq, exists_eq_left', false_or]
    refine and_congr ?_ ?_
    · rw [← Provider.served_eq_nil_iff, ← hresponses]
      simp [Provider.queryKeywords]
    · have hprobe := hafter []
      simp only [providerAnswers, hp, askProvider, Provider.queryKeywords, ne_eq, Provider.isAvailable_iff, hprobe, not_not]

/-- Asking the sources skips them exactly if there are none to scan. -/
theorem asked_none_iff {asked : Option Attempt} (h : searcher.askSources host query = .ok asked) :
    asked = none ↔ ¬searcher.HasRoot host := by
  rcases askSources_eq_ok h with ⟨rfl, hmissing⟩ | ⟨scanner, root, names, attempt, hscanner, hroot, hfound, -, rfl, -⟩
  · refine iff_of_true rfl ?_
    rintro ⟨scanner, root, hscanner, hroot, hdir⟩
    rcases hmissing with hnone | hnone | ⟨scanner', root', hscanner', hroot', hfound⟩
    · rw [hscanner] at hnone
      cases hnone
    · rw [hroot] at hnone
      cases hnone
    · rw [hscanner, Option.some.injEq] at hscanner'
      rw [hroot, Option.some.injEq] at hroot'
      subst hscanner' hroot'
      simp only [Scanner.hasRoot, hdir] at hfound
      cases hfound
  · refine iff_of_false (Option.some_ne_none attempt) (not_not_intro ⟨scanner, root, hscanner, hroot, ?_⟩)
    unfold Scanner.hasRoot at hfound
    split at hfound
    · rename_i found hdir
      cases hfound
      exact hdir
    · split at hfound <;> cases hfound

/-! ## Along every way through a search -/

/-- A search for keywords says that no source is available exactly if none is. -/
theorem Ran.unavailable_iff (h : Ran searcher host memory query mode (.ok outcome)) (hq : query.isEmpty = false) :
    outcome.stage = .unavailable ↔
      searcher.NoTags host ∧ searcher.NoAnswers host memory query.keywords ∧ ¬searcher.HasRoot host := by
  -- only the last way ends with an error, and the error goes with the stage
  rw [← h.consistent.error_iff]
  cases h with
  | noKeywords hempty =>
    rw [hempty] at hq
    cases hq
  | tagsMatch _ ht hr =>
    refine iff_of_false (not_not_intro rfl) ?_
    rintro ⟨hno, -⟩
    have halive := alive_of_tagsMatch ht hr
    rw [(tags_alive_iff ht).2 hno] at halive
    cases halive
  | providerMatch _ ht hr hp hr' =>
    refine iff_of_false (not_not_intro rfl) ?_
    rintro ⟨-, hno, -⟩
    have halive := alive_of_providerMatch hp hr'
    rw [((provider_silent_iff hp).2 hno).1] at halive
    cases halive
  | scanned _ ht hr hp hr' hs =>
    refine iff_of_false (not_not_intro rfl) ?_
    rintro ⟨-, -, hno⟩
    cases (asked_none_iff hs).2 hno
  | noMatch _ ht hr hp hr' hs ha =>
    refine iff_of_false (not_not_intro rfl) ?_
    rintro ⟨hnoTags, hnoAnswers, -⟩
    obtain ⟨hsilent, hprobe⟩ := (provider_silent_iff hp).2 hnoAnswers
    rw [(tags_alive_iff ht).2 hnoTags, hsilent] at ha
    simp [hprobe] at ha
  | unavailable _ ht hr hp hr' hs ha ha' hn =>
    exact iff_of_true (Option.some_ne_none _)
      ⟨(tags_alive_iff ht).1 ha, (provider_silent_iff hp).1 ⟨ha', by rw [hn]; exact nofun⟩, (asked_none_iff hs).1 rfl⟩

/-- A search ends at the stage that was added last. -/
theorem ending_stage (query : Query) (front : List Stage) (passing stage : Stage) (results : List Symbol)
    (tier : Option Tier) : (ending query (front ++ [passing, stage]) results tier).stage = stage := by
  simp [ending, Outcome.finish]

/-- A search for keywords that finds nothing, and had where to look, ends without a complaint at the last source that it could
ask. -/
theorem Ran.unmatched (h : Ran searcher host memory query mode (.ok outcome)) (hq : query.isEmpty = false)
    (hr : outcome.results = []) (hstage : outcome.stage ≠ .unavailable) :
    outcome.error = none ∧ (searcher.HasRoot host → outcome.stage = .scanEmpty) ∧
      (¬searcher.HasRoot host → searcher.provider ≠ none → outcome.stage = .providerEmpty) ∧
      (¬searcher.HasRoot host → searcher.provider = none → outcome.stage = .emptyIndex) := by
  cases h with
  | noKeywords hempty =>
    rw [hempty] at hq
    cases hq
  | tagsMatch _ ht hne => exact absurd hr hne
  | providerMatch _ ht _ hp hne => exact absurd hr hne
  | @scanned tags provided scanned _ ht _ hp _ hs =>
    have hroot : searcher.HasRoot host := not_not.1 fun hno => Option.some_ne_none _ ((asked_none_iff hs).2 hno)
    obtain ⟨-, -, -, -, -, -, -, hstages⟩ := askSources_ok hs
    have hempty : scanned.results = [] := hr
    refine ⟨rfl, fun _ => ?_, fun hno => absurd hroot hno, fun hno => absurd hroot hno⟩
    simp only [hstages, hempty, List.isEmpty_nil, if_true]
    exact ending_stage query _ _ _ _ _
  | @noMatch tags provided _ ht htags hp hprovided hs ha =>
    have hnoRoot := (asked_none_iff hs).1 rfl
    refine ⟨rfl, fun hroot => absurd hroot hnoRoot, fun _ hsome => ?_, fun _ hnone => ?_⟩
    · rcases askProvider_noMatch hp hprovided with ⟨hnone, -⟩ | hstages
      · exact absurd hnone hsome
      · rw [hstages]
        exact ending_stage query _ _ _ _ _
    · rcases stages_alive ht htags hp hprovided ha with ⟨htagsStages, hstages⟩ | hstages
      · rw [htagsStages, hstages, List.append_nil]
        exact ending_stage query [.idle] _ _ _ _
      · rcases askProvider_ok hp with ⟨-, rfl⟩ | ⟨hsome, -⟩
        · cases hstages
        · exact absurd hnone hsome
  | unavailable => exact absurd rfl hstage

/-- What a search for keywords says where it finds nothing: that no source is available exactly if there is no tags file to read,
no sign of life from a provider and no root to scan; and otherwise only that the last source it could ask is empty. -/
theorem search_unmatched (searcher : Searcher) (host : Host) (memory : DumpMemory) (text : Text) (mode : MatchMode)
    (outcome : Outcome) (hk : (Query.ofText text).keywords ≠ [])
    (h : (searcher.search host memory text mode).1 = .ok outcome) :
    (outcome.stage = .unavailable ↔
        searcher.NoTags host ∧ searcher.NoAnswers host memory (Query.ofText text).keywords ∧ ¬searcher.HasRoot host) ∧
      (outcome.results = [] → outcome.stage ≠ .unavailable →
        outcome.error = none ∧ (searcher.HasRoot host → outcome.stage = .scanEmpty) ∧
          (¬searcher.HasRoot host → searcher.provider ≠ none → outcome.stage = .providerEmpty) ∧
          (¬searcher.HasRoot host → searcher.provider = none → outcome.stage = .emptyIndex)) := by
  have hran := ran_of_search h
  have hq : (Query.ofText text).isEmpty = false := List.isEmpty_eq_false_iff.2 hk
  exact ⟨hran.unavailable_iff hq, hran.unmatched hq⟩

/-- A disk with a tags file that cannot be opened. -/
def deniedHost : Host :=
  .ofRoot [("t".toList, .file [] 0 true)] rfl

/-- A provider that never answers the question for one text, and any other but the empty one with a symbol of that name. -/
def stuckProvider : Provider :=
  .asked fun text =>
    if text = "foo".toList then .hanging
    else if text.isEmpty then .answer []
    else .answer [⟨text, none, "u".toList, ⟨⟨0, 0⟩, ⟨0, 0⟩⟩, none⟩]

/-- A searcher that asks this tags file and, with one worker, this provider, and has a root that is not there. -/
def stuckSearcher : Searcher :=
  ⟨some ⟨.slash, ["t".toList]⟩, some stuckProvider, some ⟨.disk, ⟨Source.defaultSuffixes, [], [], false⟩⟩,
    some ⟨.slash, ["ws".toList]⟩, false, 1⟩

/-- The outcome of a search whose first keyword is never answered. -/
def stuckOutcome : Outcome where
  results := []
  echo := "foo bar".toList
  stage := .unavailable
  tier := none
  trace := [.idle, .parsing, .queryingProvider, .providerEmpty, .unavailable, .done]
  error := some unavailableMessage

set_option maxRecDepth 4000 in
/-- A provider that has a symbol for the second keyword gives no sign of life as long as the first keeps its only worker. -/
theorem search_unmatched_stuck :
    (Query.ofText "foo bar".toList).keywords ≠ [] ∧
      (stuckSearcher.search deniedHost .fresh "foo bar".toList .exact).1 = .ok stuckOutcome ∧
      stuckSearcher.NoTags deniedHost ∧
      stuckSearcher.NoAnswers deniedHost .fresh (Query.ofText "foo bar".toList).keywords ∧
      ¬stuckSearcher.HasRoot deniedHost := by
  have hk : (Query.ofText "foo bar".toList).keywords ≠ [] := by
    have hkeywords : (Query.ofText "foo bar".toList).keywords = ["foo".toList, "bar".toList] := by cbv
    rw [hkeywords]
    exact List.cons_ne_nil _ _
  have h : (stuckSearcher.search deniedHost .fresh "foo bar".toList .exact).1 = .ok stuckOutcome := by cbv
  exact ⟨hk, h, (search_unmatched stuckSearcher deniedHost .fresh _ _ stuckOutcome hk h).1.1 rfl⟩

/-! ## A root without a scanner -/

/-- A disk with a directory that holds an empty tags file. -/
def emptyTagsHost : Host :=
  .ofRoot [("ws".toList, .folder [("t".toList, .file [] 0 false)])] (by cbv)

/-- A searcher that asks this tags file and has the directory as its root, and no scanner. -/
def rootOnlySearcher : Searcher :=
  ⟨some ⟨.slash, ["ws".toList, "t".toList]⟩, none, none, some ⟨.slash, ["ws".toList]⟩, false, 1⟩

/-- The outcome of a search in the empty tags file. -/
def emptyTagsOutcome : Outcome :=
  ⟨[], "foo".toList, .emptyIndex, none, [.idle, .parsing, .emptyIndex, .done], none⟩

set_option maxRecDepth 4000 in
/-- That the root is a directory is not enough for a search to end at the empty sources: without a scanner they are not asked. -/
theorem search_root_without_scanner :
    (rootOnlySearcher.search emptyTagsHost .fresh "foo".toList .exact).1 = .ok emptyTagsOutcome ∧
      rootOnlySearcher.scanRoot.map (fun root => emptyTagsHost.isDir root.text) = some (.ok true) ∧
      emptyTagsOutcome.results = [] ∧ emptyTagsOutcome.stage ≠ .unavailable ∧ emptyTagsOutcome.stage ≠ .scanEmpty := by
  refine ⟨?_, ?_, rfl, nofun, nofun⟩ <;> cbv

end SymbolSearch.Searcher
