import SymbolSearch.Data.Assoc
import SymbolSearch.Data.Issue

/-!
# Symbols

A symbol is a name and what is known of it. A located symbol is what a workspace provider reports: it carries a document
identifier and a range instead of a path and a line.
-/

namespace SymbolSearch

/-- A place of definition: a path and a line, counted from one. -/
structure Location where
  path : Text
  line : Nat
  one_le_line : 1 ≤ line
  deriving DecidableEq, Repr

/-- Named attributes of a symbol, in the order of their first mention. -/
@[ext]
structure Attributes where
  pairs : List (Text × Text)
  nodup : (pairs.map Prod.fst).Nodup
  deriving DecidableEq, Repr

namespace Attributes

/-- No attributes. -/
def empty : Attributes := ⟨[], List.Pairwise.nil⟩

/-- The attributes with one set: a new name comes last, a known one keeps its place and takes the new value. -/
def set (attributes : Attributes) (key value : Text) : Attributes :=
  ⟨Assoc.set attributes.pairs key value, Assoc.nodup_set attributes.nodup key value⟩

/-- The attributes that pairs give one after the other; of two with one name the last one counts. -/
def ofPairs (pairs : List (Text × Text)) : Attributes :=
  pairs.foldl (fun attributes (key, value) => attributes.set key value) empty

/-- The value of an attribute. -/
def get? (attributes : Attributes) (key : Text) : Option Text :=
  (attributes.pairs.find? (fun p => p.1 = key)).map (·.2)

end Attributes

/-- A named entity that a search has found; a symbol found by scanning has no location until it is asked for. -/
structure Symbol where
  name : Text
  location : Option Location
  kind : Option Text
  attributes : Attributes
  name_ne_nil : name ≠ []
  deriving DecidableEq, Repr

/-- A line and a character of a document, both counted from zero. -/
structure Position where
  line : Nat
  character : Nat
  deriving DecidableEq, Repr

/-- A stretch of a document. -/
structure Range where
  start : Position
  stop : Position
  deriving DecidableEq, Repr

/-- A provider's classification of a symbol: a word or a number. -/
inductive Kind where
  | word (s : Text)
  | code (n : Int)
  deriving DecidableEq, Repr

/-- A symbol as a workspace provider reports it. -/
structure Located where
  name : Text
  kind : Option Kind
  uri : Text
  range : Range
  container : Option Text
  deriving DecidableEq, Repr

/-- Two located symbols with one identity are the same symbol. -/
structure Identity where
  name : Text
  uri : Text
  range : Range
  deriving DecidableEq, Repr

/-- The name, the document and the range decide which symbol it is; its classification and container do not. -/
def Located.identity (symbol : Located) : Identity :=
  ⟨symbol.name, symbol.uri, symbol.range⟩

/-- A symbol has a name. -/
def Symbol.checkName (name : Text) : Checked {name : Text // name ≠ []} :=
  if h : name = [] then .fail (.refused "symbol name must be non-empty".toList) else .ok ⟨name, h⟩

/-- The symbol of a name, and what else is known. -/
def Symbol.named (name : {name : Text // name ≠ []}) (location : Option Location) (kind : Option Text)
    (attributes : Attributes) : Symbol :=
  ⟨name.1, location, kind, attributes, name.2⟩

/-- A symbol with these parts, provided that its name is not empty. -/
def Symbol.make (name : Text) (location : Option Location) (kind : Option Text) (attributes : Attributes) :
    Checked Symbol := do
  .ok (.named (← Checked.under (.key "name".toList) (checkName name)) location kind attributes)

/-- A location with these parts, provided that its line is at least one. -/
def Location.make (path : Text) (line : Int) : Checked Location :=
  if h : 1 ≤ line then .ok ⟨path, line.toNat, by omega⟩ else .error [⟨[.key "line".toList], .belowLeast⟩]

end SymbolSearch
