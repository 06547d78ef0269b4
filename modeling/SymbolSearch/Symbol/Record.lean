import SymbolSearch.Data.Coerce
import SymbolSearch.Symbol.Basic

/-!
# Symbols in documents

The records that stand for symbols, locations and ranges in documents. Keys that a record does not know are passed over.
-/

namespace SymbolSearch

/-- A location: a path, and a line that is one unless it is given. -/
def Location.ofValue (v : Value) : Checked Location := do
  let pairs ← v.toRecord
  let (path, line) ← Checked.both
    (pairs.required "path".toList Value.toText)
    (pairs.optional "line".toList 1 (Value.toIntegerFrom 1))
  Location.make path line

/-- Attributes: texts under any keys. -/
def Attributes.ofValue : Value → Checked Attributes
  | .table pairs => do
    .ok (.ofPairs (← Checked.all (pairs.map (fun (key, v) => Checked.under (.key key) (v.toText.map (fun s => (key, s)))))))
  | _ => .fail .notTable

/-- A symbol: a name, and what else is known. -/
def Symbol.ofValue (v : Value) : Checked Symbol := do
  let pairs ← v.toRecord
  let ((name, location), (kind, attributes)) ← Checked.both
    (Checked.both
      (pairs.required "name".toList (fun v => do Symbol.checkName (← v.toText)))
      (pairs.optional "location".toList none (Value.toOptional Location.ofValue)))
    (Checked.both
      (pairs.optional "kind".toList none (Value.toOptional Value.toText))
      (pairs.optional "attributes".toList .empty Attributes.ofValue))
  .ok (.named name location kind attributes)

/-- A position: a line, and a character that is zero unless it is given. -/
def Position.ofValue (v : Value) : Checked Position := do
  let pairs ← v.toRecord
  let (line, character) ← Checked.both
    (pairs.required "line".toList (Value.toIntegerFrom 0))
    (pairs.optional "character".toList 0 (Value.toIntegerFrom 0))
  .ok ⟨line.toNat, character.toNat⟩

/-- A range: where it starts and where it ends. -/
def Range.ofValue (v : Value) : Checked Range := do
  let pairs ← v.toRecord
  let (start, stop) ← Checked.both
    (pairs.required "start".toList Position.ofValue)
    (pairs.required "end".toList Position.ofValue)
  .ok ⟨start, stop⟩

/-- A classification: a text as it is, and anything else as an integer if it denotes one. -/
def Kind.ofValue : Value → Checked Kind
  | .text s => .ok (.word s)
  | v =>
    match v.toInteger with
    | .ok n => .ok (.code n)
    | .error found =>
      let asCode : Checked Int := Checked.under (.key "int".toList) (.error found)
      .error (⟨[.key "str".toList], .notText⟩ :: asCode.issues)

/-- A located symbol: name, document and range, and what else is known. -/
def Located.ofValue (v : Value) : Checked Located := do
  let pairs ← v.toRecord
  let ((name, kind), (uri, range), container) ← Checked.both
    (Checked.both
      (pairs.required "name".toList Value.toText)
      (pairs.optional "kind".toList none (Value.toOptional Kind.ofValue)))
    (Checked.both
      (Checked.both
        (pairs.required "uri".toList Value.toText)
        (pairs.required "range".toList Range.ofValue))
      (pairs.optional "container_name".toList none (Value.toOptional Value.toText)))
  .ok ⟨name, kind, uri, range, container⟩

end SymbolSearch
