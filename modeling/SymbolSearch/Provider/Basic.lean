import SymbolSearch.Provider.Dump
import SymbolSearch.Symbol.Shared
import SymbolSearch.Text.LowerCase

/-!
# Providers

A provider answers questions for symbols of a workspace. It may hold its symbols, read them from a dump, or be a host of its own
that can fail or hang. What a dump gave last is kept for as long as its time of writing and its size stay the same.
-/

namespace SymbolSearch

/-- What becomes of one question. -/
inductive Response where
  | answer (symbols : List Located)
  | failure (fault : Fault)
  /-- The question is never answered. -/
  | hanging
  deriving DecidableEq, Repr

/-- The symbols of a response; a failed or hanging question gives none. -/
def Response.symbols : Response → List Located
  | answer symbols => symbols
  | failure _ | hanging => []

/-- A source of workspace symbols. -/
inductive Provider where
  | held (symbols : List Located)
  | dump (path : Text)
  | asked (respond : Text → Response)

/-- What was loaded from a dump, and the signature it had then. -/
structure DumpMemory where
  signature : Option (Int × Nat)
  symbols : List Located
  deriving DecidableEq, Repr

/-- Nothing has been loaded. -/
def DumpMemory.fresh : DumpMemory := ⟨none, []⟩

/-- The memory of a dump that has a given signature: what is remembered if it had that signature then, and else what it holds
now. A failure changes nothing in memory. -/
def DumpMemory.refreshAs (memory : DumpMemory) (host : Host) (path : Text) (signature : Int × Nat) :
    Except Fault DumpMemory :=
  if memory.signature = some signature then .ok memory
  else (Dump.load host path).map (fun symbols => ⟨some signature, symbols⟩)

/-- The memory of a dump as it is now: first its signature is taken, then it is loaded if that has changed. -/
def DumpMemory.refresh (memory : DumpMemory) (host : Host) (path : Text) : Except Fault DumpMemory :=
  match host.signature path with
  | .error e => .error (Dump.faultOf path e)
  | .ok signature => memory.refreshAs host path signature

namespace Provider

/-- The symbols whose name holds a text, in any letter case; the empty text stands in every name. -/
def named (text : Text) (symbols : List Located) : List Located :=
  symbols.filter (fun symbol => (Text.lower text).occursIn (Text.lower symbol.name))

/-- One question, and the memory after it. -/
def query (host : Host) (provider : Provider) (memory : DumpMemory) (text : Text) : Response × DumpMemory :=
  match provider with
  | held symbols => (.answer (named text symbols), memory)
  | asked respond => (respond text, memory)
  | dump path =>
    match memory.refresh host path with
    | .ok memory => (.answer (named text memory.symbols), memory)
    | .error fault => (.failure fault, memory)

/-- The second step of a question to a dump, for the signature that was taken in the first one, and the memory after it. -/
def answerAs (host : Host) (path : Text) (memory : DumpMemory) (signature : Int × Nat) (text : Text) : Response × DumpMemory :=
  match memory.refreshAs host path signature with
  | .ok memory => (.answer (named text memory.symbols), memory)
  | .error fault => (.failure fault, memory)

/-- Several questions one after the other. -/
def queryAll (host : Host) (provider : Provider) (memory : DumpMemory) : List Text → List Response × DumpMemory
  | [] => ([], memory)
  | text :: rest =>
    let (response, memory) := provider.query host memory text
    let (responses, memory) := queryAll host provider memory rest
    (response :: responses, memory)

/-- The number of workers for a number of questions: at most as many as questions, and at least one. -/
def workers (most : Int) (questions : Nat) : Nat :=
  (max 1 (min most questions)).toNat

/-- The answers that questions get when `free` workers take them from a queue: a hanging question keeps its worker for good,
and once no worker is left the remaining questions are never taken. -/
def served (free : Nat) : List Response → List (List Located)
  | [] => []
  | response :: rest =>
    match free with
    | 0 => [] :: served 0 rest
    | free + 1 =>
      match response with
      | .hanging => [] :: served free rest
      | response => response.symbols :: served (free + 1) rest

/-- One question for each keyword, with the answer to each and the memory after them. -/
def queryKeywords (host : Host) (provider : Provider) (memory : DumpMemory) (keywords : List Text) (mostWorkers : Int) :
    List (List Located) × DumpMemory :=
  let (responses, memory) := provider.queryAll host memory keywords
  (served (workers mostWorkers keywords.length) responses, memory)

/-- The provider answers the empty question with at least one symbol. Nobody limits the time for this question: where it hangs, so
does who asks. -/
def isAvailable (host : Host) (provider : Provider) (memory : DumpMemory) : Except Fault Bool × DumpMemory :=
  match provider.query host memory [] with
  | (.hanging, memory) => (.error .unanswered, memory)
  | (response, memory) => (.ok (!response.symbols.isEmpty), memory)

end Provider

end SymbolSearch
