import SymbolSearch.Proofs.Disk
import SymbolSearch.Proofs.Search.Tiers

/-!
# The trace of a search

What the stages, the source, the results and the error of an outcome have to do with each other. `Consistent` says it part by
part; `search_consistent` says it of every search that has an outcome.
-/

namespace SymbolSearch

/-- The stage at which a source has matches. -/
def Tier.matchStage : Tier → Stage
  | tags => .matched
  | provider => .providerMatched
  | scan => .scanMatched

namespace Stage

/-- A stage behind which a search does nothing but end. -/
def isLast : Stage → Bool
  | matched | providerMatched | scanMatched | scanEmpty | unavailable => true
  | idle | parsing | emptyIndex | queryingProvider | providerEmpty | scanning | done => false

/-- A stage at which a source is being asked, or none yet. -/
def isPassing : Stage → Bool
  | idle | parsing | queryingProvider | scanning => true
  | matched | emptyIndex | providerMatched | providerEmpty | scanMatched | scanEmpty | unavailable | done => false

/-- What the tags file may add to a trace. -/
def tagsParts : List (List Stage) := [[], [parsing], [parsing, emptyIndex], [parsing, matched]]

/-- What a provider may add to a trace. -/
def providerParts : List (List Stage) := [[], [queryingProvider, providerEmpty], [queryingProvider, providerMatched]]

/-- What the sources may add to a trace. -/
def scanParts : List (List Stage) := [[], [scanning, scanEmpty], [scanning, scanMatched]]

/-- What may stand in a trace before its end. -/
def endParts : List (List Stage) := [[], [unavailable]]

/-- A trace is written from the parts of the sources in their order, each of which may be left out. -/
def IsTrace (trace : List Stage) : Prop :=
  ∃ tags ∈ tagsParts, ∃ provided ∈ providerParts, ∃ scanned ∈ scanParts, ∃ ending ∈ endParts,
    trace = idle :: (tags ++ provided ++ scanned ++ ending ++ [done])

/-- What a trace and the stage that a search with keywords ends at satisfy, as a check of the list. -/
structure Sound (trace : List Stage) (stage : Stage) : Prop where
  isTrace : IsTrace trace
  starts : trace.head? = some idle
  nodup : trace.Nodup
  open_ : ∀ s ∈ trace.dropLast.dropLast, s.isLast = false
  ends : trace.dropLast.getLast? = some stage ∧ trace.getLast? = some done
  passed : stage.isPassing = false

instance (trace : List Stage) : Decidable (IsTrace trace) :=
  inferInstanceAs (Decidable (∃ tags ∈ tagsParts, ∃ provided ∈ providerParts, ∃ scanned ∈ scanParts, ∃ ending ∈ endParts,
    trace = idle :: (tags ++ provided ++ scanned ++ ending ++ [done])))

instance (trace : List Stage) (stage : Stage) : Decidable (Sound trace stage) :=
  decidable_of_iff (IsTrace trace ∧ trace.head? = some idle ∧ trace.Nodup ∧
      (∀ s ∈ trace.dropLast.dropLast, s.isLast = false) ∧
      (trace.dropLast.getLast? = some stage ∧ trace.getLast? = some done) ∧ stage.isPassing = false)
    ⟨fun ⟨h1, h2, h3, h4, h5, h6⟩ => ⟨h1, h2, h3, h4, h5, h6⟩, fun ⟨h1, h2, h3, h4, h5, h6⟩ => ⟨h1, h2, h3, h4, h5, h6⟩⟩

end Stage

/-- The parts of an outcome fit together. -/
structure Outcome.Consistent (query : Query) (outcome : Outcome) : Prop where
  isTrace : Stage.IsTrace outcome.trace
  starts : outcome.trace.head? = some .idle
  /-- The search is done once, at the very end. -/
  ends : ∃ front, outcome.trace = front ++ [.done] ∧ .done ∉ front
  nodup : outcome.trace.Nodup
  closed : ∀ front stage rest, outcome.trace = front ++ stage :: rest → stage.isLast = true → rest = [.done]
  withKeywords : query.isEmpty = false →
    (∃ front, outcome.trace = front ++ [outcome.stage, .done]) ∧ outcome.stage.isPassing = false
  withoutKeywords : query.isEmpty = true → outcome.trace = [.idle, .done] ∧ outcome.stage = .done
  results_iff : outcome.results ≠ [] ↔ outcome.tier ≠ none
  tier_iff : ∀ tier, outcome.tier = some tier ↔ outcome.stage = tier.matchStage
  error_iff : outcome.error ≠ none ↔ outcome.stage = .unavailable

namespace Outcome

/-! ## From the check of a trace to its parts -/

/-- A list that ends with an item has it behind all others. -/
theorem eq_dropLast_append {trace : List Stage} {stage : Stage} (h : trace.getLast? = some stage) :
    trace = trace.dropLast ++ [stage] := by
  obtain ⟨front, last, rfl⟩ := (List.eq_nil_or_concat trace).resolve_left (by rintro rfl; cases h)
  simp only [List.concat_eq_append, List.getLast?_append, List.getLast?_singleton, Option.some_or, Option.some.injEq] at h
  subst h
  simp

/-- In a sound trace only the end follows a last stage. -/
theorem closed_of_sound {trace : List Stage} {stage : Stage} (h : Stage.Sound trace stage) :
    ∀ front s rest, trace = front ++ s :: rest → s.isLast = true → rest = [.done] := by
  intro front s rest he hs
  have hlast := h.ends.2
  subst he
  match rest with
  | [] =>
    simp only [List.getLast?_append, List.getLast?_singleton, Option.some_or, Option.some.injEq] at hlast
    subst hlast
    cases hs
  | [last] =>
    simp only [List.getLast?_append, List.getLast?_cons_cons, List.getLast?_singleton, Option.some_or,
      Option.some.injEq] at hlast
    rw [hlast]
  | a :: b :: rest =>
    have hmem : s ∈ (front ++ s :: a :: b :: rest).dropLast.dropLast := by
      rw [List.dropLast_append_of_ne_nil (by simp), List.dropLast_append_of_ne_nil (by simp)]
      simp
    rw [h.open_ s hmem] at hs
    cases hs

/-- An outcome with a sound trace is consistent as soon as its results, source and error fit its stage. -/
theorem consistent_of_sound {query : Query} {results : List Symbol} {stage : Stage} {tier : Option Tier}
    {trace : List Stage} {error : Option Text} (hq : query.isEmpty = false) (hs : Stage.Sound trace stage)
    (hresults : results ≠ [] ↔ tier ≠ none) (htier : ∀ t, tier = some t ↔ stage = t.matchStage)
    (herror : error ≠ none ↔ stage = .unavailable) :
    Consistent query ⟨results, query.text, stage, tier, trace, error⟩ := by
  have hdone := eq_dropLast_append hs.ends.2
  have hstage := eq_dropLast_append hs.ends.1
  refine ⟨hs.isTrace, hs.starts, ⟨trace.dropLast, hdone, ?_⟩, hs.nodup, closed_of_sound hs,
    fun _ => ⟨⟨trace.dropLast.dropLast, ?_⟩, hs.passed⟩, fun he => ?_, hresults, htier, herror⟩
  · have hnodup := hs.nodup
    rw [hdone] at hnodup
    intro hmem
    exact (List.nodup_append.1 hnodup).2.2 .done hmem .done (by simp) rfl
  · rw [List.append_cons, ← hstage]
    exact hdone
  · rw [hq] at he
    cases he

/-! ## The ends of a search -/

/-- A search that ends at the last of its stages is consistent as soon as its trace is sound and its results fit that stage. -/
theorem consistent_ending {query : Query} {trace : List Stage} {results : List Symbol} {tier : Option Tier} (stage : Stage)
    (hq : query.isEmpty = false) (hs : Stage.Sound (trace ++ [.done]) stage) (hne : stage ≠ .unavailable)
    (hresults : results ≠ [] ↔ tier ≠ none) (htier : ∀ t, tier = some t ↔ stage = t.matchStage) :
    Consistent query (Searcher.ending query trace results tier) := by
  have hlast : trace.getLast? = some stage := by simpa using hs.ends.1
  have hdone : stage ≠ .done := by
    rintro rfl
    have hmem := List.mem_of_getLast? hlast
    exact (List.nodup_append.1 hs.nodup).2.2 .done hmem .done (by simp) rfl
  have he : Searcher.ending query trace results tier = ⟨results, query.text, stage, tier, trace ++ [.done], none⟩ := by
    simp [Searcher.ending, finish, enter, hlast, hdone]
  rw [he]
  exact consistent_of_sound hq hs hresults htier (by simp [hne])

/-- A search that finds no source at all says so before it is done. -/
theorem consistent_unavailable {query : Query} {trace : List Stage} {error : Text} (hq : query.isEmpty = false)
    (hs : Stage.Sound (trace ++ [.unavailable, .done]) .unavailable) :
    Consistent query (finish query trace .unavailable [] none (some error)) := by
  have hlast : trace.getLast? ≠ some .unavailable := fun he =>
    (List.nodup_append.1 hs.nodup).2.2 .unavailable (List.mem_of_getLast? he) .unavailable (by simp) rfl
  have he : finish query trace .unavailable [] none (some error) =
      ⟨[], query.text, .unavailable, none, trace ++ [.unavailable, .done], some error⟩ := by
    simp [finish, enter, hlast]
  rw [he]
  exact consistent_of_sound hq hs (by simp) (fun t => by cases t <;> simp [Tier.matchStage]) (by simp)

/-- A search without keywords is consistent: it asks nothing. -/
theorem consistent_noKeywords {query : Query} (hq : query.isEmpty = true) :
    Consistent query ⟨[], query.text, .done, none, [.idle, .done], none⟩ := by
  refine ⟨(by decide : Stage.IsTrace [.idle, .done]), rfl, ⟨[.idle], rfl, by decide⟩,
    (by decide : [Stage.idle, .done].Nodup), ?_, fun h => ?_, fun _ => ⟨rfl, rfl⟩, by simp,
    fun tier => by cases tier <;> simp [Tier.matchStage], by simp⟩
  · intro front stage rest he hlast
    have hmem : stage ∈ [Stage.idle, .done] := by
      rw [show [Stage.idle, .done] = front ++ stage :: rest from he]
      simp
    simp only [List.mem_cons, List.not_mem_nil, or_false] at hmem
    rcases hmem with rfl | rfl <;> cases hlast
  · rw [hq] at h
    cases h

end Outcome

namespace Searcher

variable {searcher : Searcher} {host : Host} {memory : DumpMemory} {query : Query} {mode : MatchMode}

/-! ## What each source adds -/

/-- A tags file with matches ends its part of the trace with them. -/
theorem askTags_match {tags : Attempt} (h : searcher.askTags host query mode = .ok tags) (hr : tags.results ≠ []) :
    tags.stages = [.parsing, .matched] := by
  rcases askTags_ok h with rfl | rfl | ⟨results, rfl⟩
  · exact absurd rfl hr
  · exact absurd rfl hr
  · simp only at hr
    simp [hr]

/-- A tags file without matches is alive only if it could be parsed. -/
theorem askTags_noMatch {tags : Attempt} (h : searcher.askTags host query mode = .ok tags) (hr : tags.results = []) :
    ((tags.stages = [] ∨ tags.stages = [.parsing]) ∧ tags.alive = false) ∨ tags.stages = [.parsing, .emptyIndex] := by
  rcases askTags_ok h with rfl | rfl | ⟨results, rfl⟩
  · exact Or.inl ⟨Or.inl rfl, rfl⟩
  · exact Or.inl ⟨Or.inr rfl, rfl⟩
  · simp only at hr
    subst hr
    exact Or.inr rfl

/-- A provider with matches ends its part of the trace with them. -/
theorem askProvider_match {provided : Attempt} (h : (searcher.askProvider host memory query).1 = .ok provided)
    (hr : provided.results ≠ []) : provided.stages = [.queryingProvider, .providerMatched] := by
  rcases askProvider_ok h with ⟨-, rfl⟩ | ⟨-, results, alive, rfl⟩
  · exact absurd rfl hr
  · simp only at hr
    simp [hr]

/-- A provider without matches is found empty; one that is not there adds nothing and is not alive. -/
theorem askProvider_noMatch {provided : Attempt} (h : (searcher.askProvider host memory query).1 = .ok provided)
    (hr : provided.results = []) :
    (searcher.provider = none ∧ provided.stages = [] ∧ provided.alive = false) ∨
      provided.stages = [.queryingProvider, .providerEmpty] := by
  rcases askProvider_ok h with ⟨hp, rfl⟩ | ⟨-, results, alive, rfl⟩
  · exact Or.inl ⟨hp, rfl, rfl⟩
  · simp only at hr
    subst hr
    exact Or.inr rfl

/-- The parts of a trace behind which a search goes on to its provider. -/
def openTags : List (List Stage) := [[], [.parsing], [.parsing, .emptyIndex]]

/-- The parts of a trace behind which a search goes on to its sources. -/
def openProvider : List (List Stage) := [[], [.queryingProvider, .providerEmpty]]

/-- A search goes on from its first stage only over parts without matches. -/
theorem mem_openTags {tags : Attempt} (h : searcher.askTags host query mode = .ok tags) (hr : tags.results = []) :
    tags.stages ∈ openTags := by
  rcases askTags_noMatch h hr with ⟨h | h, -⟩ | h <;> simp [openTags, h]

/-- A search goes on from its provider only over parts without matches. -/
theorem mem_openProvider {provided : Attempt} (h : (searcher.askProvider host memory query).1 = .ok provided)
    (hr : provided.results = []) : provided.stages ∈ openProvider := by
  rcases askProvider_noMatch h hr with ⟨-, h, -⟩ | h <;> simp [openProvider, h]

/-- A search that ends without a match and without a complaint ends at a source that was found empty. -/
theorem stages_alive {tags provided : Attempt} (ht : searcher.askTags host query mode = .ok tags)
    (hr : tags.results = []) (hp : (searcher.askProvider host memory query).1 = .ok provided) (hr' : provided.results = [])
    (ha : tags.alive = true ∨ provided.alive = true ∨
      (searcher.providerAnswers host (searcher.askProvider host memory query).2).1 = .ok true) :
    (tags.stages = [.parsing, .emptyIndex] ∧ provided.stages = []) ∨ provided.stages = [.queryingProvider, .providerEmpty] := by
  rcases askProvider_noMatch hp hr' with ⟨hnone, hstages, halive⟩ | h
  · rcases ha with ha | ha | ha
    · rcases askTags_noMatch ht hr with ⟨-, h⟩ | h
      · rw [h] at ha
        cases ha
      · exact Or.inl ⟨h, hstages⟩
    · rw [halive] at ha
      cases ha
    · simp only [providerAnswers, hnone] at ha
      cases ha
  · exact Or.inr h

/-! ## Every outcome is consistent -/

/-- A search along any of its ways ends with a consistent outcome. -/
theorem Ran.consistent {outcome : Outcome} (h : Ran searcher host memory query mode (.ok outcome)) :
    outcome.Consistent query := by
  cases h with
  | noKeywords hq => exact Outcome.consistent_noKeywords hq
  | @tagsMatch tags hq ht hr =>
    rw [askTags_match ht hr]
    exact Outcome.consistent_ending .matched hq (by decide) (by decide) (by simp [hr]) (fun t => by cases t <;> decide)
  | @providerMatch tags provided hq ht hr hp hr' =>
    have sound : ∀ t ∈ openTags,
        Stage.Sound (.idle :: t ++ [.queryingProvider, .providerMatched] ++ [.done]) .providerMatched := by
      decide
    rw [askProvider_match hp hr']
    exact Outcome.consistent_ending .providerMatched hq (sound _ (mem_openTags ht hr)) (by decide) (by simp [hr'])
      (fun t => by cases t <;> decide)
  | @scanned tags provided scanned hq ht hr hp hr' hs =>
    have sound : ∀ t ∈ openTags, ∀ p ∈ openProvider, ∀ s ∈ [Stage.scanEmpty, .scanMatched],
        Stage.Sound (.idle :: t ++ p ++ [.scanning, s] ++ [.done]) s := by
      decide
    obtain ⟨-, -, -, -, -, -, -, hstages⟩ := askSources_ok hs
    rw [hstages]
    by_cases hempty : scanned.results = []
    · simp only [hempty, List.isEmpty_nil, if_true]
      exact Outcome.consistent_ending .scanEmpty hq (sound _ (mem_openTags ht hr) _ (mem_openProvider hp hr') _ (by simp))
        (by decide) (by simp) (fun t => by cases t <;> decide)
    · simp only [List.isEmpty_eq_false_iff.2 hempty, Bool.false_eq_true, if_false]
      exact Outcome.consistent_ending .scanMatched hq (sound _ (mem_openTags ht hr) _ (mem_openProvider hp hr') _ (by simp))
        (by decide) (by simp [hempty]) (fun t => by cases t <;> decide)
  | @noMatch tags provided hq ht hr hp hr' hs ha =>
    have sound : ∀ t ∈ openTags,
        Stage.Sound (.idle :: t ++ [.queryingProvider, .providerEmpty] ++ [.done]) .providerEmpty := by
      decide
    rcases stages_alive ht hr hp hr' ha with ⟨htags, hprovided⟩ | hprovided
    · rw [htags, hprovided]
      exact Outcome.consistent_ending .emptyIndex hq (by decide) (by decide) (by simp) (fun t => by cases t <;> decide)
    · rw [hprovided]
      exact Outcome.consistent_ending .providerEmpty hq (sound _ (mem_openTags ht hr)) (by decide) (by simp)
        (fun t => by cases t <;> decide)
  | @unavailable tags provided hq ht hr hp hr' hs ha ha' hn =>
    have sound : ∀ t ∈ openTags, ∀ p ∈ openProvider,
        Stage.Sound (.idle :: t ++ p ++ [.unavailable, .done]) .unavailable := by
      decide
    exact Outcome.consistent_unavailable hq (sound _ (mem_openTags ht hr) _ (mem_openProvider hp hr'))

/-- Every search that has an outcome has a consistent one. -/
theorem search_consistent (searcher : Searcher) (host : Host) (memory : DumpMemory) (text : Text) (mode : MatchMode)
    (outcome : Outcome) (h : (searcher.search host memory text mode).1 = .ok outcome) :
    outcome.Consistent (Query.ofText text) := by
  have hran := run_ran searcher host memory (.ofText text) mode
  rw [show (searcher.run host memory (.ofText text) mode).1 = .ok outcome from h] at hran
  exact hran.consistent

/-- A searcher whose provider holds one symbol. -/
def heldSearcher : Searcher :=
  ⟨none, some (.held [⟨"foo".toList, none, "u".toList, ⟨⟨0, 0⟩, ⟨0, 0⟩⟩, none⟩]), none, none, false, 1⟩

/-- The outcome of a search for the one symbol. -/
def heldOutcome : Outcome where
  results := [.ofLetters 'f' "oo".toList (some (.after "u".toList 0)) none (.ofPairs [("uri".toList, "u".toList)])]
  echo := "foo".toList
  stage := .providerMatched
  tier := some .provider
  trace := [.idle, .queryingProvider, .providerMatched, .done]
  error := none

set_option maxRecDepth 4000 in
/-- A search that the provider answers has an outcome, and a consistent one. -/
theorem search_consistent_held :
    (heldSearcher.search .empty .fresh "foo".toList .exact).1 = .ok heldOutcome ∧
      heldOutcome.Consistent (Query.ofText "foo".toList) := by
  have h : (heldSearcher.search .empty .fresh "foo".toList .exact).1 = .ok heldOutcome := rfl
  exact ⟨h, search_consistent heldSearcher .empty .fresh "foo".toList .exact heldOutcome h⟩

end Searcher

end SymbolSearch
