import SymbolSearch.Json.Writer
import SymbolSearch.Query.Basic
import SymbolSearch.Symbol.Basic

/-!
# Outcomes of searches

A search passes through stages and ends with the symbols it found, if any, and the source that had them.
-/

namespace SymbolSearch

/-- A stage of a search. -/
inductive Stage where
  | idle
  | parsing
  | matched
  | emptyIndex
  | queryingProvider
  | providerMatched
  | providerEmpty
  | scanning
  | scanMatched
  | scanEmpty
  | unavailable
  | done
  deriving DecidableEq, Repr

/-- The word for a stage. -/
def Stage.text : Stage → Text
  | idle => "idle".toList
  | parsing => "parsing".toList
  | matched => "matched".toList
  | emptyIndex => "empty_index".toList
  | queryingProvider => "querying_bridge".toList
  | providerMatched => "bridge_matched".toList
  | providerEmpty => "bridge_empty".toList
  | scanning => "scanning".toList
  | scanMatched => "scan_matched".toList
  | scanEmpty => "scan_empty".toList
  | unavailable => "unavailable".toList
  | done => "done".toList

/-- A source of symbols. -/
inductive Tier where
  | tags
  | provider
  | scan
  deriving DecidableEq, Repr

/-- The word for a source. -/
def Tier.text : Tier → Text
  | tags => "tags".toList
  | provider => "bridge".toList
  | scan => "scan".toList

/-- What a search ends with. -/
structure Outcome where
  results : List Symbol
  /-- The query as it was asked. -/
  echo : Text
  stage : Stage
  /-- The source of the results. -/
  tier : Option Tier
  /-- All stages, from the first to the last. -/
  trace : List Stage
  error : Option Text
  deriving DecidableEq, Repr

namespace Outcome

/-- The search found something. -/
def isMatch (outcome : Outcome) : Bool :=
  !outcome.results.isEmpty

/-- A trace with one more stage, unless it ends with that stage already. -/
def enter (trace : List Stage) (stage : Stage) : List Stage :=
  if trace.getLast? = some stage then trace else trace ++ [stage]

/-- The outcome of a search that has passed the stages of `trace` and ends at `stage`. -/
def finish (query : Query) (trace : List Stage) (stage : Stage) (results : List Symbol) (tier : Option Tier)
    (error : Option Text) : Outcome :=
  ⟨results, query.text, stage, tier, enter (enter trace stage) .done, error⟩

/-! ## As a document -/

/-- A text, or null. -/
def optionalText : Option Text → Value
  | some s => .text s
  | none => .null

/-- A location as a record. -/
def locationValue (location : Location) : Value :=
  .table [("path".toList, .text location.path), ("line".toList, .int location.line)]

/-- A symbol as a record. -/
def symbolValue (symbol : Symbol) : Value :=
  .table [("name".toList, .text symbol.name),
    ("location".toList, (symbol.location.map locationValue).getD .null),
    ("kind".toList, optionalText symbol.kind),
    ("attributes".toList, .table (symbol.attributes.pairs.map (fun (key, value) => (key, .text value))))]

/-- An outcome as a record. -/
def toValue (outcome : Outcome) : Value :=
  .table [("results".toList, .list (outcome.results.map symbolValue)),
    ("query_echo".toList, .text outcome.echo),
    ("state".toList, .text outcome.stage.text),
    ("tier".toList, optionalText (outcome.tier.map Tier.text)),
    ("trace".toList, .list (outcome.trace.map (fun stage => .text stage.text))),
    ("error".toList, optionalText outcome.error)]

/-- An outcome as a JSON document. -/
def toJson (outcome : Outcome) : Except Fault Text :=
  Json.write 0 outcome.toValue

end Outcome

end SymbolSearch
