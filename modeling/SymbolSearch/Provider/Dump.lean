import SymbolSearch.Host
import SymbolSearch.Json.Reader
import SymbolSearch.Symbol.Record

/-!
# Symbol dumps

A dump holds one record for each line. Lines that are blank, no JSON objects or no valid records are passed over.
-/

namespace SymbolSearch.Dump

/-- The record with the document and the range that stand under `location`. What is there already stays. -/
def liftPlace (pairs : Pairs) : Pairs :=
  match pairs.get? "location".toList with
  | some (.table location) =>
    let uri := (Pairs.get? location "uri".toList).getD .null
    let range := (Pairs.get? location "range".toList).getD .null
    ((pairs.without "location".toList).setDefault "uri".toList uri).setDefault "range".toList range
  | _ => pairs

/-- The record with the container that has its name in camel case. What is there already stays. -/
def liftContainer (pairs : Pairs) : Pairs :=
  match pairs.get? "containerName".toList with
  | some container => (pairs.without "containerName".toList).setDefault "container_name".toList container
  | none => pairs

/-- The record in its flat shape: the document and the range may stand under `location`, and the container may have its name in
camel case. -/
def flatten (pairs : Pairs) : Pairs :=
  liftContainer (liftPlace pairs)

/-- The symbol that a record stands for. -/
def symbolOfRecord (pairs : Pairs) : Checked Located :=
  Located.ofValue (.table (flatten pairs))

/-- The symbol on a line of a dump. -/
def symbolOfLine? (line : Bytes) : Option Located :=
  match (Utf8.decode? line).bind (Json.parse? .dump) with
  | some (.table pairs) => (symbolOfRecord pairs).toOption
  | _ => none

/-- The lines of a dump, cut at line feeds and carriage returns only. -/
def lines (content : Bytes) : List Bytes :=
  Text.cutLines (fun b => b = 0x0A || b = 0x0D) (· = 0x0D) (· = 0x0A) [] false content

/-- The symbols in the content of a dump. -/
def symbols (content : Bytes) : List Located :=
  (lines content).filterMap symbolOfLine?

/-- A disk error met at a dump. -/
def faultOf (path : Text) : DiskError → Fault
  | .nulCharacter => .disk .nulCharacter
  | _ => .dumpUnreadable path

/-- The symbols of a dump on a disk. -/
def load (host : Host) (path : Text) : Except Fault (List Located) :=
  match host.read path with
  | .ok content => .ok (symbols content)
  | .error e => .error (faultOf path e)

end SymbolSearch.Dump
