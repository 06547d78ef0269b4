import SymbolSearch.Text.Blank
import SymbolSearch.Text.LowerCase

/-!
# Queries

A query is a text and the keywords in it. Keywords are compared in lower case.
-/

namespace SymbolSearch

/-- A query: the text as it was asked, without blanks around it, and its keywords. -/
structure Query where
  text : Text
  keywords : List Text
  deriving DecidableEq, Repr

namespace Query

/-- Reads a query: its keywords are the runs between blanks, in lower case. -/
def ofText (s : Text) : Query :=
  let stripped := s.strip
  ⟨stripped, stripped.fields.map Text.lower⟩

/-- A query without keywords asks for nothing. -/
def isEmpty (query : Query) : Bool :=
  query.keywords.isEmpty

end Query

/-- Keywords as they are compared: blank ones dropped, the others in lower case. -/
def normalizeKeywords (keywords : List Text) : List Text :=
  (keywords.filter (fun keyword => !keyword.strip.isEmpty)).map Text.lower

end SymbolSearch
