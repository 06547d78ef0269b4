import SymbolSearch.Data.Value
import SymbolSearch.Number.Reading

/-!
# Reading JSON

A strict reader: no comments, no trailing commas, no words for infinity, and every escaped surrogate in a pair. Each reader
takes a value from the start of a text and leaves the rest.
-/

namespace SymbolSearch.Json

/-- What a reader leaves open: how deep lists and tables may stand inside each other, and what becomes of an integer. -/
structure Rules where
  depthLimit : Nat
  integer : Int → Option Value

/-- Integers of any size, nested as deep as the text goes. -/
def Rules.unbounded : Rules :=
  ⟨1073741824, fun n => some (.int n)⟩

/-- An integer that fits 64 bits, with or without a sign bit, stays one; any other becomes the nearest number, if finite. -/
def wordInteger (n : Int) : Option Value :=
  if -Number.signedBound ≤ n && n < Number.unsignedBound then some (.int n) else (Double.ofInt? n).map .float

/-- The rules for symbol dumps. -/
def Rules.dump : Rules :=
  ⟨1024, wordInteger⟩

/-- White space between the parts of a document. -/
def isSpace (c : Char) : Bool :=
  c = ' ' || c = '\t' || c = '\n' || c = '\r'

/-- The text without white space at its start. -/
def skipSpace (s : Text) : Text :=
  s.dropWhile isSpace

/-- The value of a hexadecimal digit. -/
def hexValue? (c : Char) : Option Nat :=
  if '0' ≤ c && c ≤ '9' then some (c.toNat - '0'.toNat)
  else if 'a' ≤ c && c ≤ 'f' then some (c.toNat - 'a'.toNat + 10)
  else if 'A' ≤ c && c ≤ 'F' then some (c.toNat - 'A'.toNat + 10)
  else none

/-- The number that hexadecimal digits denote. -/
def hexNumber? (s : Text) : Option Nat :=
  s.foldlM (fun n c => (hexValue? c).map (n * 16 + ·)) 0

/-- The character behind a one-letter escape. -/
def simpleEscape? (c : Char) : Option Char :=
  if c = '"' || c = '\\' || c = '/' then some c
  else if c = 'b' then some '\x08'
  else if c = 'f' then some '\x0c'
  else if c = 'n' then some '\n'
  else if c = 'r' then some '\r'
  else if c = 't' then some '\t'
  else none

/-- A code unit that opens a surrogate pair. -/
def isHighSurrogate (n : Nat) : Bool :=
  0xD800 ≤ n && n ≤ 0xDBFF

/-- A code unit that closes a surrogate pair. -/
def isLowSurrogate (n : Nat) : Bool :=
  0xDC00 ≤ n && n ≤ 0xDFFF

/-- Puts a character in front of what a reader has read. -/
def prepend (c : Char) : Option (Text × Text) → Option (Text × Text)
  | some (s, rest) => some (c :: s, rest)
  | none => none

/-- The rest of a string behind its opening quote, and what follows its closing quote. -/
def stringBody : Text → Option (Text × Text)
  | [] => none
  | '"' :: rest => some ([], rest)
  | '\\' :: 'u' :: a :: b :: c :: d :: rest =>
    match hexNumber? [a, b, c, d] with
    | none => none
    | some n =>
      if isHighSurrogate n then
        match rest with
        | '\\' :: 'u' :: e :: f :: g :: h :: rest =>
          match hexNumber? [e, f, g, h] with
          | none => none
          | some m =>
            if isLowSurrogate m then
              prepend (Char.ofNat (0x10000 + (n - 0xD800) * 0x400 + (m - 0xDC00))) (stringBody rest)
            else none
        | _ => none
      else if isLowSurrogate n then none
      else prepend (Char.ofNat n) (stringBody rest)
  | '\\' :: c :: rest =>
    match simpleEscape? c with
    | some e => prepend e (stringBody rest)
    | none => none
  | c :: rest => if c.toNat < 0x20 || c = '\\' then none else prepend c (stringBody rest)

/-- The digits before the point: a single zero, or digits that do not start with one. -/
def wholePart? (s : Text) : Option (Text × Text) :=
  match s with
  | '0' :: rest => some (['0'], rest)
  | _ =>
    let (whole, rest) := Number.digits s
    if whole.isEmpty then none else some (whole, rest)

/-- The digits behind the point, if there is a point; one digit is needed then. -/
def fractionPart? (s : Text) : Option (Option Text × Text) :=
  match s with
  | '.' :: rest =>
    let (fraction, rest) := Number.digits rest
    if fraction.isEmpty then none else some (some fraction, rest)
  | _ => some (none, s)

/-- The exponent, if there is one. -/
def exponentPart? (s : Text) : Option (Option Int × Text) :=
  match s with
  | c :: _ => if c = 'e' || c = 'E' then (Number.exponent? s).map (fun (n, rest) => (some n, rest)) else some (none, s)
  | [] => some (none, [])

/-- A number at the start of a text. A number with a point or an exponent is a floating-point number and has to be finite. -/
def number? (rules : Rules) (s : Text) : Option (Value × Text) := do
  let (negative, s) := Number.minus s
  let (whole, s) ← wholePart? s
  let (fraction, s) ← fractionPart? s
  let (power, s) ← exponentPart? s
  match fraction, power with
  | none, none =>
    let n : Int := Text.digitsValue whole
    let v ← rules.integer (if negative then -n else n)
    some (v, s)
  | _, _ =>
    let x := Number.ofParts negative whole (fraction.getD []) (power.getD 0)
    if x.isFinite then some (.float x, s) else none

mutual

/-- A value at the start of a text, where `room` more levels of lists and tables are allowed. -/
def value? (rules : Rules) : Nat → Nat → Text → Option (Value × Text)
  | 0, _, _ => none
  | fuel + 1, room, s =>
    match s with
    | '"' :: rest => (stringBody rest).map (fun (t, rest) => (.text t, rest))
    | '[' :: rest =>
      match room with
      | 0 => none
      | room + 1 =>
        match skipSpace rest with
        | ']' :: rest => some (.list [], rest)
        | rest => (items? rules fuel room rest).map (fun (vs, rest) => (.list vs, rest))
    | '\x7b' :: rest =>
      match room with
      | 0 => none
      | room + 1 =>
        match skipSpace rest with
        | '\x7d' :: rest => some (.table [], rest)
        | rest => (pairs? rules fuel room [] rest).map (fun (ps, rest) => (.table ps, rest))
    | 't' :: 'r' :: 'u' :: 'e' :: rest => some (.bool true, rest)
    | 'f' :: 'a' :: 'l' :: 's' :: 'e' :: rest => some (.bool false, rest)
    | 'n' :: 'u' :: 'l' :: 'l' :: rest => some (.null, rest)
    | _ => number? rules s

/-- The items of a list up to its closing bracket. -/
def items? (rules : Rules) : Nat → Nat → Text → Option (List Value × Text)
  | 0, _, _ => none
  | fuel + 1, room, s => do
    let (v, s) ← value? rules fuel room (skipSpace s)
    match skipSpace s with
    | ',' :: s => (items? rules fuel room s).map (fun (vs, rest) => (v :: vs, rest))
    | ']' :: s => some ([v], s)
    | _ => none

/-- The pairs of a table up to its closing brace; of two pairs with one key the later value counts. -/
def pairs? (rules : Rules) : Nat → Nat → Pairs → Text → Option (Pairs × Text)
  | 0, _, _, _ => none
  | fuel + 1, room, done, s =>
    match skipSpace s with
    | '"' :: s => do
      let (key, s) ← stringBody s
      match skipSpace s with
      | ':' :: s =>
        let (v, s) ← value? rules fuel room (skipSpace s)
        let done := done.set key v
        match skipSpace s with
        | ',' :: s => pairs? rules fuel room done s
        | '\x7d' :: s => some (done, s)
        | _ => none
      | _ => none
    | _ => none

end

/-- The value of a whole text. Every step takes a character, so the length of the text bounds the steps. -/
def parse? (rules : Rules) (s : Text) : Option Value := do
  let (v, rest) ← value? rules (s.length + 1) rules.depthLimit (skipSpace s)
  if (skipSpace rest).isEmpty then some v else none

end SymbolSearch.Json
