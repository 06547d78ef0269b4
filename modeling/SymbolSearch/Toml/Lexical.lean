import SymbolSearch.Json.Reader
import SymbolSearch.Text.Blank

/-!
# TOML: keys, strings and comments

Each reader takes what it knows from the start of a text and leaves the rest.
-/

namespace SymbolSearch.Toml

/-- Why a document cannot be read. -/
inductive Failure where
  | malformed
  /-- An integer with too many digits. -/
  | tooManyDigits
  /-- Lists and tables inside each other beyond what is read. -/
  | nestedTooDeep
  deriving DecidableEq, Repr

/-- A space, a tab or a line feed. -/
def isFiller (c : Char) : Bool :=
  Text.isGap c || c = '\n'

/-- A control character that may stand nowhere on a line. -/
def isIllegal (c : Char) : Bool :=
  (c.toNat < 0x20 && c ≠ '\t') || c.toNat = 0x7F

/-- A control character that may stand nowhere, line feeds allowed. -/
def isIllegalInLines (c : Char) : Bool :=
  isIllegal c && c ≠ '\n'

/-- The text without spaces and tabs at its start. -/
def skipGaps (s : Text) : Text :=
  s.dropWhile Text.isGap

/-- The text behind a comment, if there is one at its start; the line end stays. -/
def skipComment (s : Text) : Except Failure Text :=
  match s with
  | '#' :: rest =>
    if (rest.takeWhile (· ≠ '\n')).any isIllegal then .error .malformed else .ok (rest.dropWhile (· ≠ '\n'))
  | _ => .ok s

/-- The text behind fillers and comments. -/
def skipFillers (inComment : Bool) : Text → Except Failure Text
  | [] => .ok []
  | c :: rest =>
    if inComment then
      if c = '\n' then skipFillers false rest
      else if isIllegal c then .error .malformed
      else skipFillers true rest
    else if isFiller c then skipFillers false rest
    else if c = '#' then skipFillers true rest
    else .ok (c :: rest)

/-- A string between apostrophes, behind the first of them. -/
def literalString (s : Text) : Except Failure (Text × Text) :=
  match s.splitFirst? '\'' with
  | some (body, rest) => if body.any isIllegal then .error .malformed else .ok (body, rest)
  | none => .error .malformed

/-- What a reader of a string does with the characters it meets. -/
inductive StringState where
  | reading
  /-- Behind a backslash and spaces: only spaces and a line end may follow. -/
  | endingLine
  /-- Behind an escaped line end: spaces and line ends are passed over. -/
  | skipping
  deriving DecidableEq, Repr

/-- The character that a one-letter escape stands for. -/
def simpleEscape? (c : Char) : Option Char :=
  if c = 'b' then some '\x08'
  else if c = 't' then some '\t'
  else if c = 'n' then some '\n'
  else if c = 'f' then some '\x0c'
  else if c = 'r' then some '\r'
  else if c = '"' || c = '\\' then some c
  else none

/-- The character with a number in hexadecimal digits; surrogates and numbers out of range are none. -/
def scalar? (s : Text) : Option Char := do
  let n ← Json.hexNumber? s
  if n < 0xD800 || (0xDFFF < n && n ≤ 0x10FFFF) then some (Char.ofNat n) else none

/-- Puts a character in front of what a reader has read. -/
def prepend (c : Char) (r : Except Failure (Text × Text)) : Except Failure (Text × Text) :=
  r.map (fun (s, rest) => (c :: s, rest))

/-- A character given by its number, in front of what a reader has read. -/
def prependScalar (digits : Text) (r : Except Failure (Text × Text)) : Except Failure (Text × Text) :=
  match scalar? digits with
  | some c => prepend c r
  | none => .error .malformed

/-- A string between quotes, behind the first of them; one of several lines ends with three quotes. -/
def quotedString (several : Bool) (state : StringState) : Text → Except Failure (Text × Text)
  | [] => .error .malformed
  | '"' :: '"' :: '"' :: rest =>
    if state = .endingLine then .error .malformed
    else if several then .ok ([], rest)
    else .ok ([], '"' :: '"' :: rest)
  | '"' :: rest =>
    if state = .endingLine then .error .malformed
    else if several then prepend '"' (quotedString several .reading rest)
    else .ok ([], rest)
  | '\\' :: 'u' :: a :: b :: c :: d :: rest =>
    if state = .endingLine then .error .malformed
    else prependScalar [a, b, c, d] (quotedString several .reading rest)
  | '\\' :: 'U' :: a :: b :: c :: d :: e :: f :: g :: h :: rest =>
    if state = .endingLine then .error .malformed
    else prependScalar [a, b, c, d, e, f, g, h] (quotedString several .reading rest)
  | '\\' :: c :: rest =>
    if state = .endingLine then .error .malformed
    else if several && Text.isGap c then quotedString several .endingLine rest
    else if several && c = '\n' then quotedString several .skipping rest
    else
      match simpleEscape? c with
      | some e => prepend e (quotedString several .reading rest)
      | none => .error .malformed
  | c :: rest =>
    match state with
    | .endingLine =>
      if Text.isGap c then quotedString several .endingLine rest
      else if c = '\n' then quotedString several .skipping rest
      else .error .malformed
    | .skipping =>
      if isFiller c then quotedString several .skipping rest
      else if c = '\\' || isIllegal c then .error .malformed
      else prepend c (quotedString several .reading rest)
    | .reading =>
      if c = '\\' || (isIllegal c && !(several && c = '\n')) then .error .malformed
      else prepend c (quotedString several .reading rest)

/-- Up to two more delimiters behind a string of several lines belong to it. -/
def moreDelimiters (delimiter : Char) (body : Text) (s : Text) : Text × Text :=
  let more := (s.take 2).takeWhile (· = delimiter)
  (body ++ more, s.drop more.length)

/-- A line feed right behind the opening delimiters of a string of several lines is left out. -/
def dropFirstLineEnd (s : Text) : Text :=
  if s.head? = some '\n' then s.tail else s

/-- A string of several lines between quotes, behind the first three. -/
def quotedLines (s : Text) : Except Failure (Text × Text) := do
  let (body, rest) ← quotedString true .reading (dropFirstLineEnd s)
  .ok (moreDelimiters '"' body rest)

/-- A string of several lines between apostrophes, behind the first three. -/
def literalLines (s : Text) : Except Failure (Text × Text) :=
  let s := dropFirstLineEnd s
  match Text.indexOf? ['\'', '\'', '\''] s with
  | none => .error .malformed
  | some length =>
    if (s.take length).any isIllegalInLines then .error .malformed
    else .ok (moreDelimiters '\'' (s.take length) (s.drop (length + 3)))

/-- A character of a key without quotes. -/
def isBareKeyChar (c : Char) : Bool :=
  Text.isAsciiLetter c || Text.isAsciiDigit c || c = '-' || c = '_'

/-- One part of a key. -/
def keyPart (s : Text) : Except Failure (Text × Text) :=
  match s with
  | '\'' :: rest => literalString rest
  | '"' :: rest => quotedString false .reading rest
  | _ =>
    let part := s.takeWhile isBareKeyChar
    if part.isEmpty then .error .malformed else .ok (part, s.drop part.length)

/-- The further parts of a key, each behind a dot. `fuel` bounds their number. -/
def moreKeyParts : Nat → Text → Except Failure (List Text × Text)
  | 0, _ => .error .malformed
  | fuel + 1, s =>
    match s with
    | '.' :: rest => do
      let (part, rest) ← keyPart (skipGaps rest)
      let (parts, rest) ← moreKeyParts fuel (skipGaps rest)
      .ok (part :: parts, rest)
    | _ => .ok ([], s)

/-- A key: parts with dots between them. -/
def key (s : Text) : Except Failure (List Text × Text) := do
  let (part, rest) ← keyPart s
  let (parts, rest) ← moreKeyParts (rest.length + 1) (skipGaps rest)
  .ok (part :: parts, rest)

end SymbolSearch.Toml
