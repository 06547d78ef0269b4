import SymbolSearch.Data.Value
import SymbolSearch.Toml.Lexical

/-!
# TOML: numbers and moments

Numbers may have single underscores between their digits. A date and a time of day make a moment, with or without a distance from
universal time.
-/

namespace SymbolSearch.Toml

/-- Digits of a kind, with single underscores between them, at the start of a text that starts with such a digit. -/
def digitRun (isKind : Char → Bool) : Text → Text × Text
  | [] => ([], [])
  | c :: rest =>
    if isKind c then
      let (digits, rest) := digitRun isKind rest
      (c :: digits, rest)
    else if c = '_' && rest.head?.any isKind then digitRun isKind rest
    else ([], c :: rest)

/-- The number that digits of a base denote. -/
def digitsIn (base : Nat) (s : Text) : Nat :=
  s.foldl (fun n c => n * base + (Json.hexValue? c).getD 0) 0

/-- A digit of a base up to sixteen. -/
def isDigitOf (base : Nat) (c : Char) : Bool :=
  (Json.hexValue? c).any (· < base)

/-- The base that a letter behind a zero announces. -/
def base? (c : Char) : Option Nat :=
  if c = 'x' then some 16 else if c = 'o' then some 8 else if c = 'b' then some 2 else none

/-- An integer in a base of its own. -/
def basedInteger? (s : Text) : Option (Value × Text) :=
  match s with
  | '0' :: c :: d :: rest => do
    let base ← base? c
    if isDigitOf base d then
      let (digits, rest) := digitRun (isDigitOf base) (d :: rest)
      some (.int (digitsIn base digits), rest)
    else none
  | _ => none

/-- The digits before the point: a single zero, or digits that do not start with one. -/
def wholePart? (s : Text) : Option (Text × Text) :=
  match s with
  | '0' :: rest => some (['0'], rest)
  | c :: _ => if Text.isAsciiDigit c then some (digitRun Text.isAsciiDigit s) else none
  | [] => none

/-- The digits behind a point, if a point and a digit follow. -/
def fractionPart? (s : Text) : Option (Text × Text) :=
  match s with
  | '.' :: rest => if rest.head?.any Text.isAsciiDigit then some (digitRun Text.isAsciiDigit rest) else none
  | _ => none

/-- The exponent, if a letter for it and a digit follow. -/
def exponentPart? (s : Text) : Option (Int × Text) :=
  match s with
  | c :: rest =>
    let (negative, rest) := Number.sign rest
    if (c = 'e' || c = 'E') && rest.head?.any Text.isAsciiDigit then
      let (digits, rest) := digitRun Text.isAsciiDigit rest
      let n : Int := Text.digitsValue digits
      some (if negative then -n else n, rest)
    else none
  | [] => none

/-- A decimal number; one with a point or an exponent is a floating-point number. -/
def decimal? (s : Text) : Option (Except Failure (Value × Text)) := do
  let (negative, s) := Number.sign s
  let (whole, s) ← wholePart? s
  let fraction := fractionPart? s
  let s := (fraction.map (·.2)).getD s
  let power := exponentPart? s
  let s := (power.map (·.2)).getD s
  if fraction.isSome || power.isSome then
    some (.ok (.float (Number.ofParts negative whole ((fraction.map (·.1)).getD []) ((power.map (·.1)).getD 0)), s))
  else if Number.digitLimit < whole.length then some (.error .tooManyDigits)
  else
    let n : Int := Text.digitsValue whole
    some (.ok (.int (if negative then -n else n), s))

/-- Infinity and the missing number. -/
def specialNumber? (s : Text) : Option (Value × Text) :=
  let (negative, rest) := Number.sign s
  match rest with
  | 'i' :: 'n' :: 'f' :: rest => some (.float (.infinite negative), rest)
  | 'n' :: 'a' :: 'n' :: rest => some (.float .notANumber, rest)
  | _ => none

/-- The number that exactly so many digits denote. -/
def fixedDigits? (count : Nat) (s : Text) : Option (Nat × Text) :=
  let digits := s.take count
  if digits.length = count && digits.all Text.isAsciiDigit then some (Text.digitsValue digits, s.drop count) else none

/-- A number of so many digits between two bounds. -/
def boundedDigits? (count least most : Nat) (s : Text) : Option (Nat × Text) := do
  let (n, rest) ← fixedDigits? count s
  if least ≤ n && n ≤ most then some (n, rest) else none

/-- What follows a given character. -/
def behind? (c : Char) (s : Text) : Option Text :=
  if s.head? = some c then some s.tail else none

/-- The millionths behind a point; digits beyond the sixth are passed over. -/
def micros (s : Text) : Nat × Text :=
  match s with
  | '.' :: rest =>
    let (digits, behind) := Number.digits rest
    if digits.isEmpty then (0, s)
    else
      let six := digits.take 6
      (Text.digitsValue (six ++ List.replicate (6 - six.length) '0'), behind)
  | _ => (0, s)

/-- A time of day. -/
def timeOfDay? (s : Text) : Option (TimeOfDay × Text) := do
  let (hour, s) ← boundedDigits? 2 0 23 s
  let (minute, s) ← boundedDigits? 2 0 59 (← behind? ':' s)
  let (second, s) ← boundedDigits? 2 0 59 (← behind? ':' s)
  let (fraction, s) := micros s
  some (⟨hour, minute, second, fraction⟩, s)

/-- A date, not yet known to exist. -/
def date? (s : Text) : Option (Date × Text) := do
  let (year, s) ← fixedDigits? 4 s
  let (month, s) ← boundedDigits? 2 1 12 (← behind? '-' s)
  let (day, s) ← boundedDigits? 2 1 31 (← behind? '-' s)
  some (⟨year, month, day⟩, s)

/-- A distance from universal time in minutes. -/
def offset? (s : Text) : Option (Int × Text) :=
  match s with
  | c :: rest =>
    if c = 'Z' || c = 'z' then some (0, rest)
    else if c = '+' || c = '-' then do
      let (hours, rest) ← boundedDigits? 2 0 23 rest
      let (minutes, rest) ← boundedDigits? 2 0 59 (← behind? ':' rest)
      let n : Int := hours * 60 + minutes
      some (if c = '-' then -n else n, rest)
    else none
  | [] => none

/-- A time of day behind a date, and its distance from universal time. -/
def timeBehindDate? (s : Text) : Option (TimeOfDay × Option Int × Text) :=
  match s with
  | c :: rest =>
    if c = 'T' || c = 't' || c = ' ' then do
      let (time, rest) ← timeOfDay? rest
      match offset? rest with
      | some (offset, rest) => some (time, some offset, rest)
      | none => some (time, none, rest)
    else none
  | [] => none

/-- A date, a date with a time, or a time; a day that does not exist is malformed. -/
def moment? (s : Text) : Option (Except Failure (Value × Text)) :=
  match date? s with
  | some (date, rest) =>
    if !date.isValid then some (.error .malformed)
    else
      match timeBehindDate? rest with
      | some (time, offset, rest) => some (.ok (.moment (.dateTime date time offset), rest))
      | none => some (.ok (.moment (.date date), rest))
  | none => (timeOfDay? s).map (fun (time, rest) => .ok (.moment (.time time), rest))

/-- A number or a moment at the start of a text. -/
def scalar (s : Text) : Except Failure (Value × Text) :=
  match moment? s with
  | some r => r
  | none =>
    match basedInteger? s with
    | some r => .ok r
    | none =>
      match decimal? s with
      | some r => r
      | none =>
        match specialNumber? s with
        | some r => .ok r
        | none => .error .malformed

end SymbolSearch.Toml
