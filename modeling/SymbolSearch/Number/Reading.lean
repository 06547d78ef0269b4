import SymbolSearch.Number.Double
import SymbolSearch.Text.Blank
import SymbolSearch.Text.Digit
import SymbolSearch.Text.WordChar

/-!
# Numbers in texts

Reading integers and floating-point numbers from texts that users write. An integer may have blanks around it, a sign,
zeros in front, single underscores between digits, and a fraction of zeros.
-/

namespace SymbolSearch.Number

/-- The most digits of an integer that are read or written. -/
def digitLimit : Nat := 4300

/-- Two to the sixty-third: integers from its opposite on and below it fit a word with a sign. -/
def signedBound : Int := 9223372036854775808

/-- Two to the sixty-fourth: integers from zero on and below it fit a word without a sign. -/
def unsignedBound : Int := 18446744073709551616

/-- The outcome of reading an integer. -/
inductive ReadInteger where
  | value (n : Int)
  | tooLong
  | unreadable
  deriving DecidableEq, Repr

/-- A minus sign at the start of a text, and what follows. -/
def minus (s : Text) : Bool × Text :=
  match s with
  | '-' :: rest => (true, rest)
  | _ => (false, s)

/-- An integer in its plain form: digits with no zero in front of others, after at most a minus sign. Too many digits are found
before anything behind them is. -/
def plainInteger (s : Text) : ReadInteger :=
  let (negative, body) := minus s
  let digits := body.takeWhile Text.isAsciiDigit
  if digits.isEmpty || (digits.head? = some '0' && digits.length ≠ 1) then .unreadable
  else if digitLimit < digits.length then .tooLong
  else if digits.length ≠ body.length then .unreadable
  else .value (if negative then -(Text.digitsValue digits : Int) else Text.digitsValue digits)

/-- Passes over the zeros, and underscores among them, after a first zero; `last` is the character just passed. One zero
remains where no other digit follows. -/
def afterZeros (last : Char) : Text → Option Text
  | [] => some [last]
  | c :: rest =>
    if c = '0' || c = '_' then afterZeros c rest
    else if c = '-' || Text.isAsciiDigit c then some (c :: rest)
    else if c = '.' then some (last :: c :: rest)
    else none

/-- An integer's text without the zeros in front; a text that starts otherwise than with a digit is none. -/
def withoutLeadingZeros : Text → Option Text
  | [] => none
  | c :: rest =>
    if c = '0' then afterZeros c rest
    else if Text.isAsciiDigit c then some (c :: rest)
    else none

/-- A text without a fraction of zeros at its end; a point alone is no fraction. -/
def withoutZeroFraction (s : Text) : Text :=
  match s.splitFirst? '.' with
  | some (front, back) => if !back.isEmpty && back.all (· = '0') then front else s
  | none => s

/-- Underscores stand only singly and between other characters. -/
def underscoresFit (s : Text) : Bool :=
  s.head? ≠ some '_' && s.getLast? ≠ some '_' && !Text.occursIn ['_', '_'] s

/-- The plain form behind an integer's written form. -/
def cleanInteger (s : Text) : Option Text := do
  let (front, body) ← match Text.trim Text.isSpace s with
    | '+' :: '-' :: _ => none
    | '+' :: rest => some ([], rest)
    | '-' :: rest => some (['-'], rest)
    | s => some ([], s)
  let body := withoutZeroFraction (← withoutLeadingZeros body)
  some (front ++ (if underscoresFit body then body.filter (· ≠ '_') else body))

/-- Reads an integer. -/
def readInteger (s : Text) : ReadInteger :=
  match plainInteger s with
  | .unreadable =>
    match cleanInteger s with
    | some plain => plainInteger plain
    | none => .unreadable
  | read => read

/-- A sign at the start of a text: whether it is a minus, and what follows. -/
def sign (s : Text) : Bool × Text :=
  match s with
  | '-' :: rest => (true, rest)
  | '+' :: rest => (false, rest)
  | _ => (false, s)

/-- The digits at the start of a text, and what follows. -/
def digits (s : Text) : Text × Text :=
  (s.takeWhile Text.isAsciiDigit, s.dropWhile Text.isAsciiDigit)

/-- The exponent at the start of a text, zero if there is none, and what follows; none if digits are missing. -/
def exponent? (s : Text) : Option (Int × Text) :=
  match s with
  | [] => some (0, [])
  | c :: rest =>
    if c = 'e' || c = 'E' then
      let (negative, rest) := sign rest
      let (power, rest) := digits rest
      if power.isEmpty then none
      else some (if negative then -(Text.digitsValue power : Int) else Text.digitsValue power, rest)
    else some (0, s)

/-- A decimal number whose digits before the point, digits behind it and exponent are known. -/
def ofParts (negative : Bool) (whole fraction : Text) (power : Int) : Double :=
  Double.ofDecimal negative (Text.digitsValue (whole ++ fraction)) (power - fraction.length)

/-- The whole text as a decimal number: digits with or without a point, and an exponent on demand. -/
def decimal? (negative : Bool) (s : Text) : Option Double := do
  let (whole, rest) := digits s
  let (fraction, rest) := match rest with
    | '.' :: rest => digits rest
    | _ => ([], rest)
  if whole.isEmpty && fraction.isEmpty then none
  else
    let (power, rest) ← exponent? rest
    if rest.isEmpty then some (ofParts negative whole fraction power) else none

/-- The ASCII letters of a text in lower case. -/
def lowerAscii (s : Text) : Text :=
  s.map (fun c => if 'A' ≤ c && c ≤ 'Z' then Char.ofNat (c.toNat + 32) else c)

/-- The whole text as a number; infinity and the missing number are written as words. -/
def double? (s : Text) : Option Double :=
  let (negative, body) := sign s
  let word := lowerAscii body
  if word = "inf".toList || word = "infinity".toList then some (.infinite negative)
  else if word = "nan".toList then some .notANumber
  else decimal? negative body

/-- Reads a number with blanks around it, or with underscores among its digits. -/
def readDouble? (s : Text) : Option Double :=
  match double? (Text.trim Text.isSpace s) with
  | some x => some x
  | none => if s.contains '_' && underscoresFit s then double? (s.filter (· ≠ '_')) else none

end SymbolSearch.Number
