import SymbolSearch.Symbol.Basic
import SymbolSearch.Text.Blank
import SymbolSearch.Text.WordChar

/-!
# Tag lines

A tag line holds a name, a file, a command that finds the definition in the file, and further fields, with tabs between them.
A semicolon and a quote behind the command, or in a field of their own, end the part that older readers know.
-/

namespace SymbolSearch.Tags

/-- What ends a command. -/
def terminator : Text := [';', '"']

/-- A well-formed tag line. -/
structure Line where
  name : Text
  file : Text
  /-- The command, without a terminator glued to it. -/
  command : Text
  terminated : Bool
  /-- The fields behind the command, if there are any. -/
  extra : Option (List Text)
  name_ne_nil : name ≠ []
  deriving Repr

/-- A command without the terminator glued to it, and whether there was one. -/
def splitTerminator (command : Text) : Text × Bool :=
  if Text.endsWith terminator command then (command.take (command.length - terminator.length), true) else (command, false)

/-- Reads a tag line; empty lines, header lines, lines of fewer than three fields and lines without a name are none. -/
def Line.ofText? (raw : Text) : Option Line :=
  let line := Text.trimEnd (· = '\r') raw
  if line.head? = some '!' then none
  else
    match line.splitOn '\t' with
    | name :: file :: command :: more =>
      if h : name = [] then none
      else
        let (command, terminated) := splitTerminator command
        some ⟨name, file, command, terminated, if more.isEmpty then none else some more, h⟩
    | _ => none

/-- The text in which kind and attributes are looked for. -/
def Line.extension (line : Line) : Text :=
  match line.extra with
  | none => []
  | some more =>
    let text := (Text.joinWith ['\t'] more).strip
    if line.terminated then terminator ++ '\t' :: text else text

/-- The word behind the first terminator that has blanks and a word behind it. -/
def markedWord? : Text → Option Text
  | [] => none
  | c :: rest =>
    match Text.after? terminator (c :: rest) with
    | none => markedWord? rest
    | some tail =>
      let word := (tail.dropWhile Text.isBlank).takeWhile (fun c => !Text.isBlank c)
      if tail.head?.any Text.isBlank && !word.isEmpty then some word else markedWord? rest

/-- The attribute at the start of a text: a word, a colon and a value without blanks. -/
def attributeAt? (s : Text) : Option (Text × Text) :=
  let key := s.takeWhile Text.isWordChar
  match s.dropWhile Text.isWordChar with
  | ':' :: rest =>
    let value := rest.takeWhile (fun c => !Text.isBlank c)
    if key.isEmpty || value.isEmpty then none else some (key, value)
  | _ => none

/-- The attributes in a text from left to right, where `skip` characters still belong to the last one and a key starts only
where no word character precedes. -/
def attributesFrom (skip : Nat) (afterWord : Bool) : Text → List (Text × Text)
  | [] => []
  | c :: rest =>
    match skip with
    | skip + 1 => attributesFrom skip (Text.isWordChar c) rest
    | 0 =>
      match if afterWord then none else attributeAt? (c :: rest) with
      | some (key, value) => (key, value) :: attributesFrom (key.length + value.length) (Text.isWordChar c) rest
      | none => attributesFrom 0 (Text.isWordChar c) rest

/-- The attributes of a text. -/
def attributesOf (s : Text) : Attributes :=
  .ofPairs (attributesFrom 0 false s)

/-- The attributes of a line. -/
def Line.attributes (line : Line) : Attributes :=
  attributesOf line.extension

/-- The kind of a line: the word behind the terminator unless it holds a colon, and else the attribute `kind`. -/
def Line.kind (line : Line) : Option Text :=
  match markedWord? line.extension with
  | some word => if word.contains ':' then line.attributes.get? "kind".toList else some word
  | none => line.attributes.get? "kind".toList

end SymbolSearch.Tags
