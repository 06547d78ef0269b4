import SymbolSearch.Fault
import SymbolSearch.Text.LowerCase
import SymbolSearch.Uri.Authority

/-!
# Document identifiers

A document identifier with the scheme `file` is turned into the path it stands for; any other one is a name of its own.
-/

namespace SymbolSearch.Uri

/-- The octets that ASCII text with percent escapes stands for; a percent sign without two hexadecimal digits is itself. -/
def unescape : Text → Bytes
  | [] => []
  | '%' :: a :: b :: rest =>
    match Json.hexNumber? [a, b] with
    | some n => n.toUInt8 :: unescape rest
    | none => '%'.toNat.toUInt8 :: unescape (a :: b :: rest)
  | c :: rest => c.toNat.toUInt8 :: unescape rest

/-- Percent escapes decoded in each run of ASCII characters, `run` being the current one in reverse. -/
def decodeFrom (run : Text) : Text → Text
  | [] => Utf8.decodeLenient (unescape run.reverse)
  | c :: rest =>
    if c.toNat < 0x80 then decodeFrom (c :: run) rest
    else Utf8.decodeLenient (unescape run.reverse) ++ c :: decodeFrom [] rest

/-- A text with its percent escapes decoded. -/
def decode (s : Text) : Text :=
  decodeFrom [] s

/-- A character of a scheme. -/
def isSchemeChar (c : Char) : Bool :=
  Text.isAsciiLetter c || Text.isAsciiDigit c || c = '+' || c = '-' || c = '.'

/-- An identifier cut at its first separators. -/
structure Parts where
  scheme : Text
  authority : Text
  path : Text
  deriving DecidableEq, Repr

/-- The scheme, in lower case, and what follows its colon; a scheme starts with an ASCII letter. -/
def splitScheme (s : Text) : Text × Text :=
  match s.splitFirst? ':' with
  | some (front, rest) =>
    if front.head?.any Text.isAsciiLetter && front.all isSchemeChar then (Text.lower front, rest) else ([], s)
  | none => ([], s)

/-- The authority behind two slashes, and what follows it. -/
def splitAuthority (s : Text) : Text × Text :=
  match s with
  | '/' :: '/' :: rest =>
    let isInside (c : Char) : Bool := c ≠ '/' && c ≠ '?' && c ≠ '#'
    (rest.takeWhile isInside, rest.dropWhile isInside)
  | _ => ([], s)

/-- Controls and spaces in front are dropped, and so are tabs and line ends anywhere. -/
def clean (s : Text) : Text :=
  (s.dropWhile (fun c => c.toNat ≤ 0x20)).filter (fun c => c ≠ '\t' && c ≠ '\r' && c ≠ '\n')

/-- The parts of an identifier; a query and a fragment are left out. -/
def split (s : Text) : Parts :=
  let (scheme, rest) := splitScheme (clean s)
  let (authority, rest) := splitAuthority rest
  ⟨scheme, authority, (rest.takeWhile (· ≠ '#')).takeWhile (· ≠ '?')⟩

/-- The path that a document identifier stands for. -/
def toPath (s : Text) : Except Fault Text :=
  let parts := split s
  if !isAuthority parts.authority then .error .badAuthority
  else if parts.scheme = "file".toList then .ok (decode parts.path)
  else .ok s

end SymbolSearch.Uri
