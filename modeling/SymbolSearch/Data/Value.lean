import SymbolSearch.Data.Assoc
import SymbolSearch.Data.Moment
import SymbolSearch.Number.Reading
import SymbolSearch.Number.Shortest
import SymbolSearch.Text.Quoted

/-!
# Document values

The values that settings files and symbol dumps hold before anything is known about their meaning.
-/

namespace SymbolSearch

/-- A value of a document. The pairs of a table have distinct keys and stand in the order of their first mention. -/
inductive Value where
  | null
  | bool (b : Bool)
  | int (n : Int)
  | float (x : Double)
  | text (s : Text)
  | moment (m : Moment)
  | list (items : List Value)
  | table (pairs : List (Text × Value))
  deriving Inhabited

/-- Pairs of keys and values with distinct keys. -/
abbrev Pairs := List (Text × Value)

namespace Pairs

/-- The value of a key. -/
def get? (pairs : Pairs) (key : Text) : Option Value :=
  (pairs.find? (fun p => p.1 = key)).map (·.2)

/-- The key is present. -/
def has (pairs : Pairs) (key : Text) : Bool :=
  pairs.any (fun p => p.1 = key)

/-- The pairs with a key set: a new key comes last, a known one keeps its place and takes the new value. -/
def set (pairs : Pairs) (key : Text) (value : Value) : Pairs :=
  Assoc.set pairs key value

/-- The pairs with a key set unless it is there already. -/
def setDefault (pairs : Pairs) (key : Text) (value : Value) : Pairs :=
  if pairs.has key then pairs else pairs ++ [(key, value)]

/-- The pairs without a key. -/
def without (pairs : Pairs) (key : Text) : Pairs :=
  pairs.filter (fun p => p.1 ≠ key)

end Pairs

mutual

/-- A value as it is written in messages. -/
def Value.show : Value → Text
  | .null => "None".toList
  | .bool b => if b then "True".toList else "False".toList
  | .int n => Text.ofInt n
  | .float x => x.text
  | .text s => s.quoted
  | .moment m => m.text
  | .list items => '[' :: Value.showItems items ++ [']']
  | .table pairs => '\x7b' :: Value.showPairs pairs ++ ['\x7d']

/-- Items with commas between them. -/
def Value.showItems : List Value → Text
  | [] => []
  | [item] => item.show
  | item :: items => item.show ++ [',', ' '] ++ Value.showItems items

/-- Keys and values with commas between the pairs. -/
def Value.showPairs : List (Text × Value) → Text
  | [] => []
  | [(key, value)] => key.quoted ++ [':', ' '] ++ value.show
  | (key, value) :: pairs => key.quoted ++ [':', ' '] ++ value.show ++ [',', ' '] ++ Value.showPairs pairs

end

mutual

/-- Some integer in the value has more digits than are written. -/
def Value.isTooLongToShow : Value → Bool
  | .int n => Number.digitLimit < (Text.ofNat n.natAbs).length
  | .list items => Value.anyTooLongToShow items
  | .table pairs => Value.anyPairTooLongToShow pairs
  | _ => false

/-- Some item cannot be written. -/
def Value.anyTooLongToShow : List Value → Bool
  | [] => false
  | item :: items => item.isTooLongToShow || Value.anyTooLongToShow items

/-- Some value of a pair cannot be written. -/
def Value.anyPairTooLongToShow : List (Text × Value) → Bool
  | [] => false
  | (_, value) :: pairs => value.isTooLongToShow || Value.anyPairTooLongToShow pairs

end

end SymbolSearch
