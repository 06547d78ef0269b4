import Mathlib
import SymbolSearch.Command.Run
import SymbolSearch.Proofs.Disk
import SymbolSearch.Proofs.Json.RoundTrip
import SymbolSearch.Proofs.Symbol

/-!
# The document of a search

A search that is asked for a document prints one that shows its outcome (`ShownIn`): read back, it has the results with all that is
known of them, and the rest of the outcome, under their keys. The one exception is a result whose line takes more than 64 bits, over
which the search fails (`run_search_json`).
-/

namespace SymbolSearch

/-! ## What a document shows -/

/-- The record has the name, the place, the kind and the attributes of the symbol under their keys. -/
structure Symbol.ShownIn (symbol : Symbol) (record : Pairs) : Prop where
  name : record.get? "name".toList = some (.text symbol.name)
  location : ∀ location, symbol.location = some location → ∃ place : Pairs,
    record.get? "location".toList = some (.table place) ∧ place.get? "path".toList = some (.text location.path) ∧
      place.get? "line".toList = some (.int location.line)
  noLocation : symbol.location = none → record.get? "location".toList = some .null
  kind : record.get? "kind".toList = some ((symbol.kind.map Value.text).getD .null)
  attributes : ∃ table : Pairs, record.get? "attributes".toList = some (.table table) ∧
    ∀ key, table.get? key = (symbol.attributes.get? key).map Value.text

/-- The document has the records of the results, in order, and what else the outcome says under their keys. -/
structure Outcome.ShownIn (outcome : Outcome) (document : Pairs) : Prop where
  results : ∃ records : List Pairs, document.get? "results".toList = some (.list (records.map Value.table)) ∧
    List.Forall₂ Symbol.ShownIn outcome.results records
  echo : document.get? "query_echo".toList = some (.text outcome.echo)
  state : document.get? "state".toList = some (.text outcome.stage.text)
  tier : document.get? "tier".toList = some ((outcome.tier.map fun tier => Value.text tier.text).getD .null)
  trace : document.get? "trace".toList = some (.list (outcome.trace.map fun stage => Value.text stage.text))
  error : document.get? "error".toList = some ((outcome.error.map Value.text).getD .null)

/-- The line of the symbol, if it has one, takes no more than 64 bits. -/
def Symbol.LineFits (symbol : Symbol) : Prop :=
  ∀ location, symbol.location = some location → (location.line : Int) < Number.unsignedBound

namespace Outcome

/-! ## Records in order -/

/-- A text or null is in order. -/
theorem sorted_optionalText (text : Option Text) : (optionalText text).sorted = (text.map Value.text).getD .null := by
  cases text <;> rfl

/-- Texts are in order. -/
theorem sorted_texts {α : Type} (f : α → Text) (items : List α) :
    (Value.list (items.map fun item => .text (f item))).sorted = .list (items.map fun item => .text (f item)) := by
  rw [Value.sorted, Value.sortedItems_eq, List.map_map]
  rfl

/-- The record of a location, in order, has its path and its line. -/
theorem exists_sorted_locationValue (location : Location) :
    ∃ place : Pairs, (locationValue location).sorted = .table place ∧ place.get? "path".toList = some (.text location.path) ∧
      place.get? "line".toList = some (.int location.line) := by
  obtain ⟨place, hplace, hget⟩ := Value.exists_sorted_table
    [("path".toList, .text location.path), ("line".toList, .int location.line)]
    (by decide : ["path".toList, "line".toList].Nodup)
  refine ⟨place, hplace, ?_, ?_⟩
  · rw [hget]
    rfl
  · rw [hget]
    rfl

/-- The record of a symbol, in order, shows the symbol. -/
theorem exists_sorted_symbolValue (symbol : Symbol) :
    ∃ record : Pairs, (symbolValue symbol).sorted = .table record ∧ symbol.ShownIn record := by
  obtain ⟨record, hrecord, hget⟩ := Value.exists_sorted_table
    [("name".toList, .text symbol.name), ("location".toList, (symbol.location.map locationValue).getD .null),
      ("kind".toList, optionalText symbol.kind),
      ("attributes".toList, .table (symbol.attributes.pairs.map fun entry => (entry.1, .text entry.2)))]
    (by decide : ["name".toList, "location".toList, "kind".toList, "attributes".toList].Nodup)
  have hplace : record.get? "location".toList = some ((symbol.location.map locationValue).getD .null).sorted := by
    rw [hget]
    rfl
  refine ⟨record, hrecord, ?_, ?_, ?_, ?_, ?_⟩
  · rw [hget]
    rfl
  · intro location hlocation
    obtain ⟨place, hsorted, hpath, hline⟩ := exists_sorted_locationValue location
    rw [hplace, hlocation, Option.map_some, Option.getD_some, hsorted]
    exact ⟨place, rfl, hpath, hline⟩
  · intro hnone
    rw [hplace, hnone]
    rfl
  · rw [hget, ← sorted_optionalText]
    rfl
  · obtain ⟨table, htable, hvalue⟩ := Value.exists_sorted_table (symbol.attributes.pairs.map fun entry => (entry.1, .text entry.2))
      (by rw [List.map_map]; exact symbol.attributes.nodup)
    refine ⟨table, ?_, ?_⟩
    · rw [hget, ← htable]
      rfl
    · intro key
      rw [hvalue, Pairs.get?_map, Option.map_map]
      rfl

/-- The records of symbols, in order, show the symbols. -/
theorem exists_sorted_symbolValues (symbols : List Symbol) :
    ∃ records : List Pairs, (Value.list (symbols.map symbolValue)).sorted = .list (records.map Value.table) ∧
      List.Forall₂ Symbol.ShownIn symbols records := by
  simp only [Value.sorted, Value.sortedItems_eq, Value.list.injEq]
  induction symbols with
  | nil => exact ⟨[], rfl, .nil⟩
  | cons symbol symbols ih =>
    obtain ⟨record, hrecord, hshown⟩ := exists_sorted_symbolValue symbol
    obtain ⟨records, hrecords, hshowns⟩ := ih
    refine ⟨record :: records, ?_, .cons hshown hshowns⟩
    rw [List.map_cons, List.map_cons, List.map_cons, hrecord, hrecords]

/-- The record of an outcome, in order, shows the outcome. -/
theorem exists_sorted_toValue (outcome : Outcome) :
    ∃ document : Pairs, outcome.toValue.sorted = .table document ∧ outcome.ShownIn document := by
  obtain ⟨document, hdocument, hget⟩ := Value.exists_sorted_table
    [("results".toList, .list (outcome.results.map symbolValue)), ("query_echo".toList, .text outcome.echo),
      ("state".toList, .text outcome.stage.text), ("tier".toList, optionalText (outcome.tier.map Tier.text)),
      ("trace".toList, .list (outcome.trace.map fun stage => .text stage.text)), ("error".toList, optionalText outcome.error)]
    (by decide : ["results".toList, "query_echo".toList, "state".toList, "tier".toList, "trace".toList, "error".toList].Nodup)
  refine ⟨document, hdocument, ?_, ?_, ?_, ?_, ?_, ?_⟩
  · obtain ⟨records, hrecords, hshown⟩ := exists_sorted_symbolValues outcome.results
    refine ⟨records, ?_, hshown⟩
    rw [hget, ← hrecords]
    rfl
  · rw [hget]
    rfl
  · rw [hget]
    rfl
  · have htier : (outcome.tier.map fun tier => Value.text tier.text) = (outcome.tier.map Tier.text).map Value.text := by
      rw [Option.map_map]
      rfl
    rw [hget, htier, ← sorted_optionalText]
    rfl
  · rw [hget]
    exact congrArg some (sorted_texts Stage.text outcome.trace)
  · rw [hget, ← sorted_optionalText]
    rfl

/-! ## What can be written -/

/-- A text or null fits anywhere. -/
theorem fits_optionalText (room : Nat) (text : Option Text) : Json.Fits room (optionalText text) := by
  cases text with
  | none => exact .null room
  | some s => exact .text room s

/-- The record of a symbol fits where its line does. -/
theorem fits_symbolValue (room : Nat) {symbol : Symbol} (hline : symbol.LineFits) :
    Json.Fits (room + 2) (symbolValue symbol) := by
  have hplace : Json.Fits (room + 1) ((symbol.location.map locationValue).getD .null) := by
    cases hlocation : symbol.location with
    | none => exact .null (room + 1)
    | some location =>
      refine .table (by decide : ["path".toList, "line".toList].Nodup) ?_
      intro pair hpair
      rcases List.mem_cons.1 hpair with rfl | hpair
      · exact .text room location.path
      · rw [List.mem_singleton.1 hpair]
        exact .int room (by simp only [Number.signedBound]; omega) (hline location hlocation)
  have hattributes : Json.Fits (room + 1) (.table (symbol.attributes.pairs.map fun entry => (entry.1, .text entry.2))) := by
    refine .table (by rw [List.map_map]; exact symbol.attributes.nodup) ?_
    intro pair hpair
    obtain ⟨entry, -, rfl⟩ := List.mem_map.1 hpair
    exact .text room entry.2
  refine .table (by decide : ["name".toList, "location".toList, "kind".toList, "attributes".toList].Nodup) ?_
  intro pair hpair
  simp only [List.mem_cons, List.not_mem_nil, or_false] at hpair
  rcases hpair with rfl | rfl | rfl | rfl
  · exact .text (room + 1) symbol.name
  · exact hplace
  · exact fits_optionalText (room + 1) symbol.kind
  · exact hattributes

/-- The record of an outcome fits where the lines of its results do. -/
theorem fits_toValue (room : Nat) {outcome : Outcome}
    (hlines : ∀ symbol ∈ outcome.results, symbol.LineFits) : Json.Fits (room + 4) outcome.toValue := by
  have hresults : Json.Fits (room + 3) (.list (outcome.results.map symbolValue)) := by
    refine .list ?_
    intro v hv
    obtain ⟨symbol, hsymbol, rfl⟩ := List.mem_map.1 hv
    exact fits_symbolValue room (hlines symbol hsymbol)
  have htrace : Json.Fits (room + 3) (.list (outcome.trace.map fun stage => .text stage.text)) := by
    refine .list ?_
    intro v hv
    obtain ⟨stage, -, rfl⟩ := List.mem_map.1 hv
    exact .text (room + 2) stage.text
  refine .table
    (by decide : ["results".toList, "query_echo".toList, "state".toList, "tier".toList, "trace".toList, "error".toList].Nodup) ?_
  intro pair hpair
  simp only [List.mem_cons, List.not_mem_nil, or_false] at hpair
  rcases hpair with rfl | rfl | rfl | rfl | rfl | rfl
  · exact hresults
  · exact .text (room + 3) outcome.echo
  · exact .text (room + 3) outcome.stage.text
  · exact fits_optionalText (room + 3) _
  · exact htrace
  · exact fits_optionalText (room + 3) _

/-- The record of a symbol whose line does not fit cannot be written. -/
theorem isWide_symbolValue {symbol : Symbol} (h : ¬symbol.LineFits) : (symbolValue symbol).isWide = true := by
  obtain ⟨location, h⟩ := not_forall.1 h
  obtain ⟨hlocation, hline⟩ := Classical.not_imp.1 h
  have hwide : (Value.int location.line).isWide = true := by
    rw [Value.isWide, Bool.not_eq_true', Bool.and_eq_false_iff]
    exact Or.inr (decide_eq_false hline)
  rw [symbolValue, Value.isWide, Value.anyPairWide_eq]
  refine List.any_eq_true.2 ⟨("location".toList, locationValue location), ?_, ?_⟩
  · rw [hlocation]
    exact List.mem_cons_of_mem _ List.mem_cons_self
  · rw [locationValue, Value.isWide, Value.anyPairWide_eq]
    exact List.any_eq_true.2 ⟨_, List.mem_cons_of_mem _ List.mem_cons_self, hwide⟩

/-- The record of an outcome with a line that does not fit cannot be written. -/
theorem isWide_toValue {outcome : Outcome} {symbol : Symbol} (hmem : symbol ∈ outcome.results) (h : ¬symbol.LineFits) :
    outcome.toValue.isWide = true := by
  rw [toValue, Value.isWide, Value.anyPairWide_eq]
  refine List.any_eq_true.2 ⟨_, List.mem_cons_self, ?_⟩
  rw [Value.isWide, Value.anyWide_eq]
  exact List.any_eq_true.2 ⟨_, List.mem_map_of_mem hmem, isWide_symbolValue h⟩

end Outcome

namespace Command

/-! ## What a search prints -/

variable {host : Host} {root : Path} {settings : Settings} {words : List Text} {options : Options} {outcome : Outcome}

/-- In a workspace with settings a search replies with its outcome. -/
theorem run_search (hroot : pathOf host options.root = .ok root) (hsettings : Settings.load host root = .ok settings)
    (houtcome : outcomeOf host root settings words options = .ok outcome) :
    (Invocation.search words options).run host = outcomeReply options.json outcome := by
  unfold Invocation.run
  rw [Invocation.options, hroot]
  simp only [bind, Except.bind, hsettings, search, houtcome]

/-- The exit code says whether there was something to search in and whether there are results. -/
theorem outcomeExit_eq (outcome : Outcome) :
    outcomeExit outcome = if outcome.stage = .unavailable then 2 else if outcome.results ≠ [] then 0 else 1 := by
  unfold outcomeExit Outcome.isMatch
  cases outcome.results <;> rfl

/-- A search that is asked for a document and has an outcome prints one document that shows the outcome, and leaves two if there was
nothing to search in, zero if there are results and one if there are none. It fails, though, if the line of a result takes more than
64 bits. -/
theorem run_search_json (hjson : options.json = true) (hroot : pathOf host options.root = .ok root)
    (hsettings : Settings.load host root = .ok settings) (houtcome : outcomeOf host root settings words options = .ok outcome) :
    ((∀ symbol ∈ outcome.results, symbol.LineFits) →
        ∃ reply document, (Invocation.search words options).run host = .ok reply ∧
          Json.parse? .unbounded reply.out = some (.table document) ∧ outcome.ShownIn document ∧
          reply.exitCode = if outcome.stage = .unavailable then 2 else if outcome.results ≠ [] then 0 else 1) ∧
      ((∃ symbol ∈ outcome.results, ¬symbol.LineFits) →
        (Invocation.search words options).run host = .error .integerTooWide) := by
  have hrun := run_search hroot hsettings houtcome
  rw [hjson] at hrun
  constructor
  · intro hlines
    -- the four levels of an outcome's record and the levels left make up what the reader allows
    obtain ⟨text, hwrite, hparse⟩ := Json.parse?_write (Outcome.fits_toValue 1073741820 hlines)
    obtain ⟨document, hsorted, hshown⟩ := Outcome.exists_sorted_toValue outcome
    refine ⟨⟨text ++ ['\n'], outcomeComplaint outcome, outcomeExit outcome⟩, document, ?_, ?_, hshown, ?_⟩
    · rw [hrun, outcomeReply, Outcome.toJson, hwrite]
      rfl
    · rw [hparse, hsorted]
    · exact outcomeExit_eq outcome
  · rintro ⟨symbol, hmem, hline⟩
    have hwrite := (Json.write_error_iff 0 outcome.toValue .integerTooWide).2 ⟨Outcome.isWide_toValue hmem hline, rfl⟩
    rw [hrun, outcomeReply, Outcome.toJson, hwrite]
    rfl

/-- The root of a workspace. -/
def taggedRoot : Path := ⟨.slash, ["ws".toList]⟩

/-- A workspace with a tags file for one symbol, whose line is given in digits. -/
def taggedHost (digits : Text) : Host :=
  .ofRoot [("ws".toList, .folder [(".tags".toList,
    .ofAscii ("foo\t\"a\".c\t".toList ++ digits ++ ";\"\tf\tscope:C\n".toList) 0)])] rfl

/-- The options of a search in this workspace that asks for a document. -/
def documentOptions : Options := ⟨.value "/ws".toList, none, none, none, true⟩

/-- The outcome of a search for the symbol. -/
def taggedOutcome (line : Nat) (h : 1 ≤ line) : Outcome where
  results := [.ofLetters 'f' "oo".toList (some ⟨"/ws/\"a\".c".toList, line, h⟩) (some "f".toList)
    (.ofPairs [("scope".toList, "C".toList)])]
  echo := "foo".toList
  stage := .matched
  tier := some .tags
  trace := [.idle, .parsing, .matched, .done]
  error := none

/-- The workspace has no settings. -/
theorem load_taggedHost (digits : Text) : Settings.load (taggedHost digits) taggedRoot = .ok .unset := by
  have hfile : (taggedHost digits).isFile (taggedRoot.child Settings.fileName).text = .ok false := by cbv
  rw [Settings.load, hfile]
  rfl

/-- The tags file answers a search for the symbol. -/
theorem outcomeOf_taggedHost (digits : Text) (line : Nat) (h : 1 ≤ line)
    (hload : Tags.load (taggedHost digits) (taggedRoot.child ".tags".toList).text false = .ok (taggedOutcome line h).results) :
    outcomeOf (taggedHost digits) taggedRoot .unset ["foo".toList] documentOptions = .ok (taggedOutcome line h) := by
  have hfile : (taggedHost digits).isFile (taggedRoot.child ".tags".toList).text = .ok true := by cbv
  have hquery : Query.ofText (Text.joinWith [' '] ["foo".toList]) = ⟨"foo".toList, ["foo".toList]⟩ := by cbv
  have hfilter : (Index.mk (taggedOutcome line h).results).filter ["foo".toList] .exact = (taggedOutcome line h).results := by
    cbv
  have hsearcher : searcherOf (taggedHost digits) taggedRoot .unset documentOptions = .ok
      ⟨some (taggedRoot.child ".tags".toList), none, some ⟨.disk, Settings.unset.selection⟩, some taggedRoot, false,
        Settings.unset.provider.mostWorkers⟩ := rfl
  have hmode : documentOptions.mode.getD Settings.unset.matchMode = .exact := rfl
  rw [outcomeOf, hsearcher, hmode]
  simp only [bind, Except.bind, Searcher.search, Searcher.run, Searcher.askTags, hquery, hfile, hload, hfilter]
  rfl

set_option maxRecDepth 2000 in
/-- A line of 64 bits is printed with the rest of the outcome, quotes and all; the next number is too wide for a document. -/
theorem run_search_json_tagged :
    Invocation.ofArguments (["search", "foo", "--root", "/ws", "--json"].map String.toList) =
        .ok (.search ["foo".toList] documentOptions) ∧
      (∃ reply document, (Invocation.search ["foo".toList] documentOptions).run (taggedHost "18446744073709551615".toList) = .ok reply ∧
        Json.parse? .unbounded reply.out = some (.table document) ∧ (taggedOutcome 18446744073709551615 (by decide)).ShownIn document ∧
        reply.exitCode = 0) ∧
      (Invocation.search ["foo".toList] documentOptions).run (taggedHost "18446744073709551616".toList) = .error .integerTooWide := by
  have hroot : ∀ digits, pathOf (taggedHost digits) documentOptions.root = .ok taggedRoot := by
    intro digits
    cbv
  have hfits := outcomeOf_taggedHost "18446744073709551615".toList 18446744073709551615 (by decide) (by cbv)
  have hwide := outcomeOf_taggedHost "18446744073709551616".toList 18446744073709551616 (by decide) (by cbv)
  refine ⟨by decide +kernel, ?_, ?_⟩
  · refine (run_search_json rfl (hroot _) (load_taggedHost _) hfits).1 ?_
    intro symbol hmem location hlocation
    obtain rfl := List.mem_singleton.1 hmem
    obtain rfl := Option.some.inj hlocation
    decide
  · refine (run_search_json rfl (hroot _) (load_taggedHost _) hwide).2 ⟨_, List.mem_singleton_self _, ?_⟩
    intro hfits
    exact absurd (hfits _ rfl) (by decide)

end Command

end SymbolSearch
