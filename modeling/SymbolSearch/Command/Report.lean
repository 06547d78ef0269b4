import SymbolSearch.Search.Outcome
import SymbolSearch.Symbol.Conversion

/-!
# Reports

What a command prints.
-/

namespace SymbolSearch.Command

/-- What a command leaves: what it printed, what it complained of, and its exit code. -/
structure Reply where
  out : Text
  err : Text
  exitCode : Nat
  deriving DecidableEq, Repr

/-- A location as it is printed. -/
def locationText (location : Location) : Except Fault Text := do
  .ok (location.path ++ ':' :: (← decimalText location.line))

/-- The line for a symbol. -/
def symbolLine (symbol : Symbol) : Except Fault Text :=
  match symbol.location with
  | none => .ok (symbol.name ++ ['\n'])
  | some location => do .ok (symbol.name ++ [':', ' '] ++ (← locationText location) ++ ['\n'])

/-- The first line of a report. -/
def headline (outcome : Outcome) : Text :=
  let asked := "Searched \"".toList ++ outcome.echo ++ ['"']
  let count := outcome.results.length
  if count = 0 then asked ++ ", no results.\n".toList
  else
    let noun := if count = 1 then "result" else "results"
    let tier := (outcome.tier.map Tier.text).getD "none".toList
    asked ++ ", found ".toList ++ Text.ofNat count ++ ' ' :: noun.toList ++ " (".toList ++ tier ++ "):\n".toList

/-- An outcome in words: a first line, and one line for each symbol. -/
def outcomeText (outcome : Outcome) : Except Fault Text := do
  .ok (headline outcome ++ (← outcome.results.mapM symbolLine).flatten)

/-- The exit code of a search: zero with results, one without, and two if there was nothing to search in. -/
def outcomeExit (outcome : Outcome) : Nat :=
  if outcome.stage = .unavailable then 2 else if outcome.isMatch then 0 else 1

/-- The complaint about a search in which no source was there. -/
def outcomeComplaint (outcome : Outcome) : Text :=
  if outcome.stage = .unavailable then "error: ".toList ++ outcome.error.getD [] ++ ['\n'] else []

/-- The reply to a search. -/
def outcomeReply (asJson : Bool) (outcome : Outcome) : Except Fault Reply := do
  let out ← if asJson then (outcome.toJson).map (· ++ ['\n']) else outcomeText outcome
  .ok ⟨out, outcomeComplaint outcome, outcomeExit outcome⟩

end SymbolSearch.Command
