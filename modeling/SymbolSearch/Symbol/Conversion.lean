import SymbolSearch.Number.Reading
import SymbolSearch.Symbol.Basic
import SymbolSearch.Uri.Basic

/-!
# From located symbols to symbols

A provider's symbol in the shape that every search answers with.
-/

namespace SymbolSearch

/-- An integer in decimal digits, if there are not too many of them. -/
def decimalText (n : Int) : Except Fault Text :=
  let text := Text.ofInt n
  if Number.digitLimit < (Text.ofNat n.natAbs).length then .error .tooManyDigits else .ok text

/-- A classification as a word. -/
def Kind.text : Kind → Except Fault Text
  | .word s => .ok s
  | .code n => decimalText n

/-- The attributes of a provider's symbol: its document, and its container if that is not empty. -/
def Located.attributes (symbol : Located) : Attributes :=
  let document := Attributes.empty.set "uri".toList symbol.uri
  match symbol.container with
  | some container => if container.isEmpty then document else document.set "scope".toList container
  | none => document

/-- The symbol that a provider's symbol stands for; lines are counted from one. -/
def Located.toSymbol (symbol : Located) : Except Fault Symbol := do
  let path ← Uri.toPath symbol.uri
  let kind ← symbol.kind.mapM Kind.text
  let made : Checked Symbol := do
    let location ← Location.make path (symbol.range.start.line + 1)
    Symbol.make symbol.name (some location) kind symbol.attributes
  made.mapError Fault.invalid

end SymbolSearch
