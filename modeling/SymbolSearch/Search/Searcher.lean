import SymbolSearch.Index
import SymbolSearch.Provider.Basic
import SymbolSearch.Search.Outcome
import SymbolSearch.Settings.Basic
import SymbolSearch.Source.Scanner
import SymbolSearch.Symbol.Conversion
import SymbolSearch.Tags.Basic

/-!
# Searching in tiers

A query is answered by the cheapest source that has a match: the tags file, read anew for every query; the workspace symbol
provider, asked once for each keyword; and a scan of the sources for function definitions. A source that is missing, unreadable
or empty hands over to the next one.
-/

namespace SymbolSearch

/-- The sources of a search. A question to the provider is answered within the time limit that the settings give, or never; those to
held symbols and to dumps are answered in time. -/
structure Searcher where
  tagsPath : Option Path
  provider : Option Provider
  scanner : Option Scanner
  scanRoot : Option Path
  resolvePatterns : Bool
  mostWorkers : Int

/-- What asking one source comes to. -/
structure Attempt where
  /-- The stages passed on the way. -/
  stages : List Stage
  results : List Symbol
  /-- The source gave a sign of life. -/
  alive : Bool

/-- A source that is not there. -/
def Attempt.skipped : Attempt := ⟨[], [], false⟩

namespace Searcher

/-- The provider of a workspace: one that is given, and else the dump that the settings name. -/
def providerOf (host : Host) (root : Path) (settings : Settings) (given : Option Provider) : Except Fault (Option Provider) :=
  match given with
  | some provider => .ok (some provider)
  | none => (settings.symbolsPath host.home root).map (fun path => path.map (fun p => .dump p.text))

/-- The searcher of the workspace at a root. -/
def ofSettings (host : Host) (root : Path) (settings : Settings) (provider : Option Provider) : Except Fault Searcher := do
  let tagsPath ← settings.tagsPath host.home root
  .ok { tagsPath := some tagsPath
        provider := provider
        scanner := some ⟨.disk, settings.selection⟩
        scanRoot := some root
        resolvePatterns := settings.resolvePatterns
        mostWorkers := settings.provider.mostWorkers }

/-- Asks the tags file. -/
def askTags (searcher : Searcher) (host : Host) (query : Query) (mode : MatchMode) : Except Fault Attempt :=
  match searcher.tagsPath with
  | none => .ok .skipped
  | some path => do
    if !(← (host.isFile path.text).mapError Fault.disk) then .ok .skipped
    else
      match Tags.load host path.text searcher.resolvePatterns with
      | .error (.tagsUnreadable _) => .ok ⟨[.parsing], [], false⟩
      | .error fault => .error fault
      | .ok symbols =>
        let results := (Index.mk symbols).filter query.keywords mode
        .ok ⟨[.parsing, if results.isEmpty then .emptyIndex else .matched], results, true⟩

/-- Asks the provider, once for each keyword; the symbols that all answers share are the results. -/
def askProvider (searcher : Searcher) (host : Host) (memory : DumpMemory) (query : Query) :
    Except Fault Attempt × DumpMemory :=
  match searcher.provider with
  | none => (.ok .skipped, memory)
  | some provider =>
    let (sets, memory) := provider.queryKeywords host memory query.keywords searcher.mostWorkers
    let attempt : Except Fault Attempt := do
      let results ← (Located.shared sets).mapM Located.toSymbol
      .ok ⟨[.queryingProvider, if results.isEmpty then .providerEmpty else .providerMatched], results,
        sets.any (fun set => !set.isEmpty)⟩
    (attempt, memory)

/-- The names defined in the sources; a scan that fails in a contained way finds none. -/
def scannedNames (scanner : Scanner) (host : Host) (root : Path) : Except Fault (List Text) :=
  match scanner.scan host root.text with
  | .ok names => .ok names
  | .error fault => if fault.isContained then .ok [] else .error fault

/-- A function met in a scan; where it is defined is found on demand. -/
def scannedSymbol (name : Text) : Except Fault Symbol :=
  (Symbol.make name none (some "function".toList) .empty).mapError Fault.invalid

/-- Asks the sources; none if there are no sources to ask. -/
def askSources (searcher : Searcher) (host : Host) (query : Query) : Except Fault (Option Attempt) :=
  match searcher.scanner, searcher.scanRoot with
  | some scanner, some root => do
    if !(← scanner.hasRoot host root.text) then .ok none
    else
      let names ← scannedNames scanner host root
      let results ← (Definition.filterNames names query.keywords).mapM scannedSymbol
      .ok (some ⟨[.scanning, if results.isEmpty then .scanEmpty else .scanMatched], results, true⟩)
  | _, _ => .ok none

/-- What is said when no source is there at all. -/
def unavailableMessage : Text :=
  ("No symbol source is available: no readable tags file, " ++
    "no workspace symbol provider and no source tree to scan").toList

/-- The provider, if there is one, answers. -/
def providerAnswers (searcher : Searcher) (host : Host) (memory : DumpMemory) : Except Fault Bool × DumpMemory :=
  match searcher.provider with
  | none => (.ok false, memory)
  | some provider => provider.isAvailable host memory

/-- The outcome of a search that ends at the last of its stages. -/
def ending (query : Query) (trace : List Stage) (results : List Symbol) (tier : Option Tier) : Outcome :=
  .finish query trace (trace.getLast?.getD .idle) results tier none

/-- Answers a query from the first source that has a match, with the memory of the dump after it. -/
def run (searcher : Searcher) (host : Host) (memory : DumpMemory) (query : Query) (mode : MatchMode) :
    Except Fault Outcome × DumpMemory :=
  if query.isEmpty then (.ok (.finish query [.idle] .done [] none none), memory)
  else
    match searcher.askTags host query mode with
    | .error fault => (.error fault, memory)
    | .ok tags =>
      let trace := .idle :: tags.stages
      if !tags.results.isEmpty then (.ok (ending query trace tags.results (some .tags)), memory)
      else
        match searcher.askProvider host memory query with
        | (.error fault, memory) => (.error fault, memory)
        | (.ok provided, memory) =>
          let trace := trace ++ provided.stages
          if !provided.results.isEmpty then (.ok (ending query trace provided.results (some .provider)), memory)
          else
            match searcher.askSources host query with
            | .error fault => (.error fault, memory)
            | .ok (some scanned) =>
              let tier := if scanned.results.isEmpty then none else some .scan
              (.ok (ending query (trace ++ scanned.stages) scanned.results tier), memory)
            | .ok none =>
              if tags.alive || provided.alive then (.ok (ending query trace [] none), memory)
              else
                match searcher.providerAnswers host memory with
                | (.error fault, memory) => (.error fault, memory)
                | (.ok true, memory) => (.ok (ending query trace [] none), memory)
                | (.ok false, memory) =>
                  (.ok (.finish query trace .unavailable [] none (some unavailableMessage)), memory)

/-- Answers a text. -/
def search (searcher : Searcher) (host : Host) (memory : DumpMemory) (text : Text) (mode : MatchMode) :
    Except Fault Outcome × DumpMemory :=
  searcher.run host memory (.ofText text) mode

/-- Where a symbol is defined; one without a location is looked for in the sources. -/
def resolve (searcher : Searcher) (host : Host) (symbol : Symbol) : Except Fault (Option Location) :=
  match symbol.location, searcher.scanner, searcher.scanRoot with
  | some location, _, _ => .ok (some location)
  | none, some scanner, some root => scanner.locate host root.text symbol.name
  | none, _, _ => .ok none

end Searcher

end SymbolSearch
