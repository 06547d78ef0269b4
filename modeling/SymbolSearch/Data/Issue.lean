import SymbolSearch.Text.Basic

/-!
# Issues

What is wrong with a document, and where. A check of several fields reports every issue, not only the first.
-/

namespace SymbolSearch

/-- One step into a document: into a table by a key, or into a list by a position. -/
inductive Step where
  | key (name : Text)
  | item (position : Nat)
  deriving DecidableEq, Repr

/-- What is wrong with a value. -/
inductive IssueKind where
  | missing
  | notText
  | notInteger
  | integerUnreadable
  | integerTooLarge
  | integerHasFraction
  | notFinite
  | belowLeast
  | notAboveLimit
  | notBoolean
  | booleanUnreadable
  | notNumber
  | numberUnreadable
  | notList
  | notTable
  | notRecord
  | notAChoice
  | unknownKey
  /-- A value that a rule of this library refuses, in the rule's own words. -/
  | refused (reason : Text)
  deriving DecidableEq, Repr

/-- An issue and the steps that lead to it. -/
structure Issue where
  place : List Step
  kind : IssueKind
  deriving DecidableEq, Repr

/-- A checked value: the value, or every issue found on the way to it. -/
abbrev Checked (α : Type) := Except (List Issue) α

namespace Checked

/-- A single issue at the value itself. -/
def fail {α : Type} (kind : IssueKind) : Checked α :=
  .error [⟨[], kind⟩]

/-- The issues of a check. -/
def issues {α : Type} : Checked α → List Issue
  | .ok _ => []
  | .error found => found

/-- The check of a part, with its issues moved to the part's step. -/
def under {α : Type} (step : Step) : Checked α → Checked α
  | .ok a => .ok a
  | .error found => .error (found.map (fun issue => { issue with place := step :: issue.place }))

/-- Two checks together: both values, or the issues of both. -/
def both {α β : Type} (a : Checked α) (b : Checked β) : Checked (α × β) :=
  match a, b with
  | .ok x, .ok y => .ok (x, y)
  | a, b => .error (a.issues ++ b.issues)

/-- All checks together: all values, or the issues of all. -/
def all {α : Type} : List (Checked α) → Checked (List α)
  | [] => .ok []
  | a :: rest =>
    match both a (all rest) with
    | .ok (x, xs) => .ok (x :: xs)
    | .error found => .error found

end Checked

end SymbolSearch
