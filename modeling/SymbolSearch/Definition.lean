import SymbolSearch.Text.Line
import SymbolSearch.Text.Blank
import SymbolSearch.Text.WordChar

/-!
# Function definitions

A heuristic for sources of the C family. A definition starts at a line start: one or more words that look like a type, each with
separators behind it, then the name, a parameter list on one line, and an opening brace on the same or the next line.
-/

namespace SymbolSearch.Definition

/-- A character that may stand between a type and what follows it. -/
def isSeparator (c : Char) : Bool :=
  Text.isGap c || c = '*' || c = '&'

/-- A character inside a parameter list. -/
def isParameterChar (c : Char) : Bool :=
  c ≠ '(' && c ≠ ')' && c ≠ '\n' && c ≠ ';'

/-- A word and the separators behind it, of which there is at least one. -/
structure Group where
  word : Text
  gap : Text
  deriving DecidableEq, Repr

/-- The group at the start of a text, and what follows it. -/
def takeGroup? (s : Text) : Option (Group × Text) :=
  match s with
  | [] => none
  | c :: rest =>
    let tail := rest.dropWhile Text.isWordChar
    let gap := tail.takeWhile isSeparator
    if Text.isNameStart c && !gap.isEmpty then
      some (⟨c :: rest.takeWhile Text.isWordChar, gap⟩, tail.dropWhile isSeparator)
    else none

/-- A group takes at least one character. -/
theorem length_lt_of_takeGroup? {s rest : Text} {group : Group} (h : takeGroup? s = some (group, rest)) :
    rest.length < s.length := by
  cases s with
  | nil => simp [takeGroup?] at h
  | cons c tail =>
    simp only [takeGroup?] at h
    split at h
    · simp only [Option.some.injEq, Prod.mk.injEq] at h
      rw [← h.2, List.length_cons]
      have h1 := (List.dropWhile_suffix isSeparator (l := tail.dropWhile Text.isWordChar)).length_le
      have h2 := (List.dropWhile_suffix Text.isWordChar (l := tail)).length_le
      omega
    · cases h

/-- The places behind the separators that a text starts with, behind all of them first and in front of the places `found` before:
each is given by the text from there on. -/
def placesBehind (found : List Text) : Text → List Text
  | [] => found
  | c :: rest => if isSeparator c then placesBehind (rest :: found) rest else found

/-- Where a name may stand after the words of a type, in front of the places `found` behind fewer groups. -/
def namePlacesFrom (found : List Text) (s : Text) : List Text :=
  match _h : takeGroup? s with
  | none => found
  | some (group, rest) => namePlacesFrom (placesBehind found (group.gap ++ rest)) rest
termination_by s.length
decreasing_by exact length_lt_of_takeGroup? _h

/-- Where a name may stand after the words of a type: behind as many groups as possible first, and behind all separators of a
group before fewer of them. -/
def namePlaces (s : Text) : List Text :=
  namePlacesFrom [] s

/-- What follows the brace that opens a body, on this line or on the next one. -/
def bodyAfter? (s : Text) : Option Text :=
  match s.dropWhile Text.isGap with
  | '\n' :: rest => Text.after? ['\x7b'] (rest.dropWhile Text.isGap)
  | '\r' :: '\n' :: rest => Text.after? ['\x7b'] (rest.dropWhile Text.isGap)
  | rest => Text.after? ['\x7b'] rest

/-- What follows a parameter list and an opening brace, which have to stand behind a name. -/
def definedAfter? (s : Text) : Option Text :=
  match s.dropWhile Text.isGap with
  | '(' :: rest =>
    match rest.dropWhile isParameterChar with
    | ')' :: rest => bodyAfter? rest
    | _ => none
  | _ => none

/-- What has to follow a name does. -/
def isDefined (s : Text) : Bool :=
  (definedAfter? s).isSome

/-- The name at the start of a text. -/
def takeName? (s : Text) : Option (Text × Text) :=
  match s with
  | [] => none
  | c :: rest =>
    if Text.isNameStart c then some (c :: rest.takeWhile Text.isWordChar, rest.dropWhile Text.isWordChar) else none

/-- The name that the definition at a line start defines, and what follows its opening brace. -/
def definitionAt? (line : Text) : Option (Text × Text) :=
  (namePlaces (line.dropWhile Text.isGap)).findSome? fun place =>
    match takeName? place with
    | some (name, rest) => (definedAfter? rest).map (fun behind => (name, behind))
    | none => none

/-- The name that the definition at a line start defines. -/
def nameAt? (line : Text) : Option Text :=
  (definitionAt? line).map (·.1)

/-- The names of the definitions in a text from left to right, where `skip` characters still belong to the last one and a
definition starts only at a line start. -/
def namesFrom (skip : Nat) (atLineStart : Bool) : Text → List Text
  | [] => []
  | c :: rest =>
    match skip with
    | skip + 1 => namesFrom skip (c = '\n') rest
    | 0 =>
      match if atLineStart then definitionAt? (c :: rest) else none with
      | some (name, behind) => name :: namesFrom (rest.length - behind.length) (c = '\n') rest
      | none => namesFrom 0 (c = '\n') rest

/-- The text from each line start behind the first one. -/
def laterLines : Text → List Text
  | [] => []
  | c :: rest => if c = '\n' then rest :: laterLines rest else laterLines rest

/-- The text from each line start on: the start of the text and the places behind line feeds. -/
def lineStarts (s : Text) : List Text :=
  s :: laterLines s

/-- Words that look like a name in front of parentheses and are none. -/
def controlWords : List Text :=
  ["if", "else", "for", "while", "do", "switch", "return", "sizeof"].map String.toList

/-- The names defined in a text, in order and with repetitions. -/
def names (s : Text) : List Text :=
  (namesFrom 0 true s).filter (fun name => !controlWords.contains name)

/-- The text from a given name on, where the definition at a line start defines exactly that name. -/
def placeAt? (name line : Text) : Option Text :=
  (namePlaces (line.dropWhile Text.isGap)).find? fun place =>
    match Text.after? name place with
    | some rest => isDefined rest
    | none => false

/-- The number of characters in front of the first definition of a name. -/
def find? (name s : Text) : Option Nat :=
  ((lineStarts s).findSome? (placeAt? name)).map (fun place => s.length - place.length)

/-- The names that hold every keyword, letter for letter. -/
def filterNames (names keywords : List Text) : List Text :=
  names.filter (fun name => keywords.all (fun keyword => keyword.occursIn name))

end SymbolSearch.Definition
