/-!
# Texts

A text is a list of characters. This module holds the operations on texts that know nothing of character classes: splitting,
joining, searching, replacing and trimming.
-/

namespace SymbolSearch

/-- A text is the list of its characters. -/
abbrev Text := List Char

namespace Text

/-- The parts of a text between the occurrences of a separator; there is always at least one part. -/
def splitOn (sep : Char) : Text → List Text
  | [] => [[]]
  | c :: rest =>
    if c = sep then [] :: splitOn sep rest
    else
      match splitOn sep rest with
      | [] => [[c]]
      | part :: parts => (c :: part) :: parts

/-- The parts written one after the other with a separator between each two. -/
def joinWith (sep : Text) : List Text → Text
  | [] => []
  | [part] => part
  | part :: parts => part ++ sep ++ joinWith sep parts

/-- Lists in the order of a dictionary, where `before` tells which of two different items comes first. -/
def dictionaryLe {α : Type} [DecidableEq α] (before : α → α → Bool) : List α → List α → Bool
  | [], _ => true
  | _ :: _, [] => false
  | a :: as, b :: bs => if a = b then dictionaryLe before as bs else before a b

/-- Texts are ordered character by character. -/
def le (s t : Text) : Bool :=
  dictionaryLe (fun c d => decide (c.toNat < d.toNat)) s t

/-- What follows `front` at the start of a text. -/
def after? : Text → Text → Option Text
  | [], s => some s
  | _ :: _, [] => none
  | c :: front, d :: s => if c = d then after? front s else none

/-- The text starts with `front`. -/
def startsWith (front s : Text) : Bool :=
  front.isPrefixOf s

/-- The text ends with `back`. -/
def endsWith (back s : Text) : Bool :=
  back.isSuffixOf s

/-- `needle` stands somewhere in the text. -/
def occursIn (needle : Text) : Text → Bool
  | [] => needle.isEmpty
  | c :: rest => needle.isPrefixOf (c :: rest) || occursIn needle rest

/-- The number of characters before the first occurrence of `needle`. -/
def indexOf? (needle : Text) : Text → Option Nat
  | [] => if needle.isEmpty then some 0 else none
  | c :: rest => if needle.isPrefixOf (c :: rest) then some 0 else (indexOf? needle rest).map (· + 1)

/-- Replacement from left to right, with `skip` characters of the last occurrence still to pass over. -/
def replaceFrom (old new : Text) : Nat → Text → Text
  | _, [] => []
  | skip + 1, _ :: rest => replaceFrom old new skip rest
  | 0, c :: rest =>
    if old.isPrefixOf (c :: rest) then new ++ replaceFrom old new (old.length - 1) rest
    else c :: replaceFrom old new 0 rest

/-- Every occurrence of a non-empty text replaced, from left to right and without overlap. -/
def replaceAll (old new s : Text) : Text :=
  if old.isEmpty then s else replaceFrom old new 0 s

/-- The text without the characters of a class at its start. -/
def trimStart (p : Char → Bool) (s : Text) : Text :=
  s.dropWhile p

/-- The text without the characters of a class at its end. -/
def trimEnd (p : Char → Bool) (s : Text) : Text :=
  (s.reverse.dropWhile p).reverse

/-- The text without the characters of a class at either end. -/
def trim (p : Char → Bool) (s : Text) : Text :=
  trimEnd p (trimStart p s)

/-- The maximal runs of characters outside a class, collected while `word` holds the current run in reverse. -/
def wordsFrom (p : Char → Bool) (word : Text) : Text → List Text
  | [] => if word.isEmpty then [] else [word.reverse]
  | c :: rest =>
    if p c then if word.isEmpty then wordsFrom p [] rest else word.reverse :: wordsFrom p [] rest
    else wordsFrom p (c :: word) rest

/-- The maximal runs of characters outside a class, in order. -/
def words (p : Char → Bool) (s : Text) : List Text :=
  wordsFrom p [] s

/-- The text without the last occurrence of a character and all that follows it, and what follows it. -/
def splitLast? (sep : Char) (s : Text) : Option (Text × Text) :=
  let tail := s.reverse.takeWhile (· ≠ sep)
  match s.reverse.dropWhile (· ≠ sep) with
  | [] => none
  | _ :: front => some (front.reverse, tail.reverse)

/-- The text up to the first occurrence of a character, and what follows it. -/
def splitFirst? (sep : Char) : Text → Option (Text × Text)
  | [] => none
  | c :: rest => if c = sep then some ([], rest) else (splitFirst? sep rest).map (fun (a, b) => (c :: a, b))

end Text

end SymbolSearch
