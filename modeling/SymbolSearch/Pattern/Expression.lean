import SymbolSearch.Pattern.CharSet

/-!
# Expressions

An expression describes stretches of a text. It is matched from behind: given the places of the text where a description may go
on, the expression tells the places from which it leads to one of them. So each part of an expression is looked at once for all
places, and nothing is tried twice.
-/

namespace SymbolSearch

/-- A class of characters. -/
inductive CharClass where
  | every
  | exactly (c : Char)
  | notLineFeed
  | inSet (set : CharSet)
  deriving DecidableEq, Repr

/-- The character belongs to the class. -/
def CharClass.contains : CharClass → Char → Bool
  | every, _ => true
  | exactly d, c => c = d
  | notLineFeed, c => c ≠ '\n'
  | inSet set, c => set.contains c

/-- A description of stretches of a text. -/
inductive Expression where
  /-- The empty stretch. -/
  | nothing
  | one (inside : CharClass)
  /-- The empty stretch at the start of the text. -/
  | start
  /-- The empty stretch at the end of the text, or before a line feed that ends it. -/
  | finish
  | seq (first second : Expression)
  | either (first second : Expression)
  /-- Any number of stretches in a row. -/
  | many (part : Expression)
  /-- So many stretches in a row, and up to so many more. -/
  | times (least more : Nat) (part : Expression)
  deriving DecidableEq, Repr

namespace Expression

/-- The parts one behind the other. -/
def ofList (parts : List Expression) : Expression :=
  parts.foldr seq nothing

/-! ## Marks

Marks are one more than a text has characters: each says of a place, the first one before all characters, whether it is marked. -/

/-- The last place alone. -/
def lastMark : Text → List Bool
  | [] => [true]
  | _ :: rest => false :: lastMark rest

/-- All places. -/
def allMarks : Text → List Bool
  | [] => [true]
  | _ :: rest => true :: allMarks rest

/-- The places marked in either list. -/
def orMarks (a b : List Bool) : List Bool :=
  List.zipWith (· || ·) a b

/-- The places one character of a class before a marked one. -/
def stepBack (inside : CharClass) : Text → List Bool → List Bool
  | c :: rest, _ :: marks => (inside.contains c && marks.headD false) :: stepBack inside rest marks
  | _, _ => [false]

/-- The places any number of characters of a class before a marked one. -/
def runBack (inside : CharClass) : Text → List Bool → List Bool
  | c :: rest, mark :: marks =>
    let behind := runBack inside rest marks
    (mark || (inside.contains c && behind.headD false)) :: behind
  | _, marks => marks

/-- Of the marks only that at the start. -/
def keepStart : List Bool → List Bool
  | [] => []
  | mark :: marks => mark :: marks.map (fun _ => false)

/-- Of the marks only those at the end. -/
def keepFinish : Text → List Bool → List Bool
  | c :: rest, mark :: marks => (mark && rest.isEmpty && c = '\n') :: keepFinish rest marks
  | _, marks => marks

/-- A change of marks made so many times. -/
def again (change : List Bool → List Bool) : Nat → List Bool → List Bool
  | 0, marks => marks
  | n + 1, marks => again change n (change marks)

/-- The places of a text from which the expression leads to a marked one. A repetition longer than the text changes nothing, so no
more rounds are made than the text has places. -/
def before (s : Text) : Expression → List Bool → List Bool
  | nothing, marks => marks
  | one inside, marks => stepBack inside s marks
  | start, marks => keepStart marks
  | finish, marks => keepFinish s marks
  | seq first second, marks => before s first (before s second marks)
  | either first second, marks => orMarks (before s first marks) (before s second marks)
  | many (one inside), marks => runBack inside s marks
  | many part, marks => again (fun reached => orMarks marks (before s part reached)) (s.length + 1) marks
  | times least more part, marks =>
    again (before s part) (min least (s.length + 1))
      (again (fun reached => orMarks marks (before s part reached)) (min more (s.length + 1)) marks)

/-- The expression describes the whole text. -/
def describes (e : Expression) (s : Text) : Bool :=
  (before s e (lastMark s)).headD false

/-- The expression describes some stretch of the text. -/
def occursIn (e : Expression) (s : Text) : Bool :=
  (before s e (allMarks s)).any id

end Expression

end SymbolSearch
