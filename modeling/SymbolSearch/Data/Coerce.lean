import SymbolSearch.Data.Issue
import SymbolSearch.Data.Value
import SymbolSearch.Number.Reading

/-!
# Reading fields of documents

What a field of a given kind accepts. Texts are taken as they are; integers, numbers and switches are also read from values of
other kinds that clearly denote one.
-/

namespace SymbolSearch.Value

/-- A text field takes texts only. -/
def toText : Value → Checked Text
  | .text s => .ok s
  | _ => .fail .notText

/-- The integer that a floating-point number denotes, if it takes at most 64 bits. -/
def integerOfDouble (x : Double) : Checked Int :=
  if !x.isFinite then .fail .notFinite
  else
    match x.toInt? with
    | none => .fail .integerHasFraction
    | some n => if -Number.signedBound < n && n < Number.signedBound then .ok n else .fail .integerTooLarge

/-- An integer field takes integers, switches as one and zero, whole floating-point numbers and texts. -/
def toInteger : Value → Checked Int
  | .int n => .ok n
  | .bool b => .ok (if b then 1 else 0)
  | .float x => integerOfDouble x
  | .text s =>
    match Number.readInteger s with
    | .value n => .ok n
    | .tooLong => .fail .integerTooLarge
    | .unreadable => .fail .integerUnreadable
  | _ => .fail .notInteger

/-- An integer field with a least value. -/
def toIntegerFrom (least : Int) (v : Value) : Checked Int := do
  let n ← v.toInteger
  if least ≤ n then .ok n else .fail .belowLeast

/-- A number field takes numbers, switches as one and zero, and texts. -/
def toDouble : Value → Checked Double
  | .float x => .ok x
  | .int n =>
    match Double.ofInt? n with
    | some x => .ok x
    | none => .fail .notNumber
  | .bool b => .ok (Double.ofDecimal false (if b then 1 else 0) 0)
  | .text s =>
    match Number.readDouble? s with
    | some x => .ok x
    | none => .fail .numberUnreadable
  | _ => .fail .notNumber

/-- A number field whose values lie above zero. -/
def toPositive (v : Value) : Checked Double := do
  let x ← v.toDouble
  if x.isPositive then .ok x else .fail .notAboveLimit

/-- The words for off. -/
def offWords : List Text :=
  ["0", "off", "f", "false", "n", "no"].map String.toList

/-- The words for on. -/
def onWords : List Text :=
  ["1", "on", "t", "true", "y", "yes"].map String.toList

/-- The switch that an integer denotes. -/
def switchOfInteger (n : Int) : Checked Bool :=
  if n = 0 then .ok false else if n = 1 then .ok true else .fail .booleanUnreadable

/-- A switch takes switches, the numbers zero and one, and words in any letter case. -/
def toBoolean : Value → Checked Bool
  | .bool b => .ok b
  | .int n => if -Number.signedBound ≤ n && n < Number.signedBound then switchOfInteger n else .fail .notBoolean
  | .float x =>
    match integerOfDouble x with
    | .ok n => switchOfInteger n
    | .error _ => .fail .notBoolean
  | .text s =>
    let word := Number.lowerAscii s
    if offWords.contains word then .ok false
    else if onWords.contains word then .ok true
    else .fail .booleanUnreadable
  | _ => .fail .notBoolean

/-- A field that may be absent: null is the absence. -/
def toOptional {α : Type} (read : Value → Checked α) : Value → Checked (Option α)
  | .null => .ok none
  | v => do .ok (some (← read v))

/-- A list field, item by item. -/
def toList {α : Type} (read : Value → Checked α) : Value → Checked (List α)
  | .list items => .all (items.mapIdx (fun i item => (read item).under (.item i)))
  | _ => .fail .notList

/-- A record takes tables only. -/
def toRecord : Value → Checked Pairs
  | .table pairs => .ok pairs
  | _ => .fail .notRecord

end SymbolSearch.Value

namespace SymbolSearch.Pairs

/-- A field that has to be there. -/
def required {α : Type} (pairs : Pairs) (key : Text) (read : Value → Checked α) : Checked α :=
  Checked.under (.key key) <|
    match pairs.get? key with
    | some v => read v
    | none => .fail .missing

/-- A field with a value of its own when it is not there. -/
def optional {α : Type} (pairs : Pairs) (key : Text) (whenAbsent : α) (read : Value → Checked α) : Checked α :=
  match pairs.get? key with
  | some v => Checked.under (.key key) (read v)
  | none => .ok whenAbsent

/-- Keys outside a list are issues, each at its key. -/
def onlyKeys (pairs : Pairs) (known : List Text) : Checked Unit :=
  match pairs.filter (fun p => !known.contains p.1) with
  | [] => .ok ()
  | unknown => .error (unknown.map (fun p => ⟨[.key p.1], .unknownKey⟩))

end SymbolSearch.Pairs
