import SymbolSearch.Text.Printable

/-!
# Quoted texts

A text as it is quoted in messages: between single quotes, or between double quotes when it holds a single quote and no double
one, with a backslash before the quote and before a backslash, and with what is not printable written by its code.
-/

namespace SymbolSearch.Text

/-- A number in lower-case hexadecimal digits, filled with zeros to a width. -/
def hexPadded (width n : Nat) : Text :=
  let digits := Nat.toDigits 16 n
  List.replicate (width - digits.length) '0' ++ digits

/-- One character inside a quoted text. -/
def quotedChar (quote c : Char) : Text :=
  let n := c.toNat
  if c = quote || c = '\\' then ['\\', c]
  else if c = '\t' then ['\\', 't']
  else if c = '\n' then ['\\', 'n']
  else if c = '\r' then ['\\', 'r']
  else if isPrintable c then [c]
  else if n < 0x100 then ['\\', 'x'] ++ hexPadded 2 n
  else if n < 0x10000 then ['\\', 'u'] ++ hexPadded 4 n
  else ['\\', 'U'] ++ hexPadded 8 n

/-- A text between quotes. -/
def quoted (s : Text) : Text :=
  let quote := if s.contains '\'' && !s.contains '"' then '"' else '\''
  quote :: s.flatMap (quotedChar quote) ++ [quote]

end SymbolSearch.Text
