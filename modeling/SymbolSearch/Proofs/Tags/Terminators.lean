import Mathlib
import SymbolSearch.Proofs.Tags.Fields
import SymbolSearch.Proofs.Tags.Reading

/-!
# Two ways to end a command

A terminator is glued to the command or stands in a field of its own. In the first case it is put back in front of the further
fields once these have lost the blanks around them; in the second case it never leaves them, and the blanks in front of them stay.
Neither is seen behind a terminator, so both lines tell one kind and one set of attributes (`FitLine.tells_glued`,
`FitLine.tells_apart`), and give the same symbols whoever is asked for the lines of searches (`parse_glued_eq_apart`).
-/

namespace SymbolSearch.Tags

variable {name file command rest : Text}

/-! ## What both lines say -/

/-- The line with the terminator glued to the command. -/
def gluedLine (name file command rest : Text) : Text :=
  name ++ '\t' :: file ++ '\t' :: command ++ terminator ++ '\t' :: rest

/-- The line with the terminator in a field of its own. -/
def apartLine (name file command rest : Text) : Text :=
  name ++ '\t' :: file ++ '\t' :: command ++ '\t' :: terminator ++ '\t' :: rest

/-- The kind that the text behind a terminator tells: its first word unless that holds a colon, and else its attribute `kind`. -/
def kindIn (rest : Text) : Option Text :=
  if (Text.firstWord rest).isEmpty || (Text.firstWord rest).contains ':' then (attributesOf rest).get? "kind".toList
  else some (Text.firstWord rest)

/-- The line says a name, a file and a command, and the kind and the attributes that the text behind a terminator tells. -/
structure Line.Says (line : Line) (name file command rest : Text) : Prop where
  name : line.name = name
  file : line.file = file
  command : line.command = command
  kind : line.kind = kindIn rest
  attributes : line.attributes = attributesOf rest

/-- A line says what stands between the blanks behind a terminator in its further fields. -/
theorem Line.says_of_extension {line : Line} (shown : Text) (hextension : line.extension = terminator ++ shown)
    (hblank : BlankNext shown) (hshown : shown.strip = rest.strip) :
    Line.Says line line.name line.file line.command rest := by
  have hword : Text.firstWord shown = Text.firstWord rest := by
    rw [← Text.firstWord_strip, hshown, Text.firstWord_strip]
  have hattributes : line.attributes = attributesOf rest := by
    rw [Line.attributes, hextension, attributesOf_terminator hblank, ← attributesOf_strip, hshown, attributesOf_strip]
  refine ⟨rfl, rfl, rfl, ?_, hattributes⟩
  rw [Line.kind, hextension, markedWord?_terminator hblank, hword, hattributes, kindIn]
  cases (Text.firstWord rest).isEmpty
  · simp
  · simp

/-- Carriage returns at the end are blanks around a text. -/
theorem strip_trimEnd_returns (rest : Text) : (Text.trimEnd (· = '\r') rest).strip = rest.strip := by
  obtain ⟨back, hrest, hback⟩ := Text.exists_eq_trimEnd_append (fun c => decide (c = '\r')) rest
  have hblank : ∀ c ∈ back, Text.isBlank c = true := by
    intro c hc
    rw [of_decide_eq_true (hback c hc)]
    decide
  conv_rhs => rw [hrest]
  rw [Text.strip_append_blanks _ hblank]

/-- A line of a name, a file, a command and more is read field by field, without the carriage returns at its end. -/
theorem Line.ofText?_fields (hname : '\t' ∉ name) (hfile : '\t' ∉ file) (hcommand : '\t' ∉ command) (rest : Text) :
    Line.ofText? (name ++ '\t' :: file ++ '\t' :: command ++ '\t' :: rest) =
      if h : name.head? = some '!' ∨ name = [] then none
      else some ⟨name, file, (splitTerminator command).1, (splitTerminator command).2,
        some (Text.splitOn '\t' (Text.trimEnd (· = '\r') rest)), fun hempty => h (Or.inr hempty)⟩ := by
  have htrim : Text.trimEnd (· = '\r') (name ++ '\t' :: file ++ '\t' :: command ++ '\t' :: rest) =
      name ++ '\t' :: file ++ '\t' :: command ++ '\t' :: Text.trimEnd (· = '\r') rest :=
    Text.trimEnd_append_cons (by decide) _ rest
  generalize Text.trimEnd (· = '\r') rest = kept at htrim
  have hmore := Text.splitOn_ne_nil '\t' kept
  have hjoined : name ++ '\t' :: file ++ '\t' :: command ++ '\t' :: kept =
      Text.joinWith ['\t'] (name :: file :: command :: Text.splitOn '\t' kept) := by
    rw [Text.joinWith_cons (List.cons_ne_nil _ _), Text.joinWith_cons (List.cons_ne_nil _ _), Text.joinWith_cons hmore,
      Text.joinWith_splitOn]
    simp
  have hsplit : Text.splitOn '\t' (name ++ '\t' :: file ++ '\t' :: command ++ '\t' :: kept) =
      name :: file :: command :: Text.splitOn '\t' kept := by
    rw [hjoined]
    refine Text.splitOn_joinWith (List.cons_ne_nil _ _) ?_
    simp only [List.mem_cons]
    rintro part (rfl | rfl | rfl | hpart)
    · exact hname
    · exact hfile
    · exact hcommand
    · exact Text.not_mem_of_mem_splitOn hpart
  have hhead : (name ++ '\t' :: file ++ '\t' :: command ++ '\t' :: kept).head? = some '!' ↔ name.head? = some '!' := by
    cases name <;> simp
  have hsome : (Text.splitOn '\t' kept).isEmpty = false := List.isEmpty_eq_false_iff.2 hmore
  simp only [Line.ofText?, htrim, hhead, hsplit, hsome, Bool.false_eq_true, if_false]
  by_cases hmark : name.head? = some '!'
  · simp [hmark]
  · by_cases hempty : name = []
    · simp [hempty]
    · simp [hmark, hempty]

/-- A command without a terminator stays as it is. -/
theorem splitTerminator_eq_self (h : ¬terminator <:+ command) : splitTerminator command = (command, false) := by
  have hends : ¬Text.endsWith terminator command = true := fun hends => h (List.isSuffixOf_iff_suffix.1 hends)
  rw [splitTerminator, if_neg hends]

/-- A name, a file and a command that may stand in a line, and more that may follow them there. -/
structure FitLine (name file command rest : Text) : Prop where
  name_oneField : '\t' ∉ name ∧ '\n' ∉ name
  file_oneField : '\t' ∉ file ∧ '\n' ∉ file
  command_oneField : '\t' ∉ command ∧ '\n' ∉ command
  /-- No terminator is glued to the command itself. -/
  command_bare : ¬terminator <:+ command
  rest_oneLine : '\n' ∉ rest

/-- The text is one tag line that says all this, or none if the name may not start a line. -/
def Tells (text name file command rest : Text) : Prop :=
  if name.head? = some '!' ∨ name = [] then linesOf text = []
  else ∃ line, linesOf text = [line] ∧ line.Says name file command rest

/-- A line of a name, a file, a command and more tells what its fields say. -/
theorem tells_fields {written more : Text} (hname : '\t' ∉ name) (hfile : '\t' ∉ file) (hwritten : '\t' ∉ written)
    (hfeed : '\n' ∉ name ++ '\t' :: file ++ '\t' :: written ++ '\t' :: more)
    (htold : ∀ hn, Line.Says ⟨name, file, (splitTerminator written).1, (splitTerminator written).2,
      some (Text.splitOn '\t' (Text.trimEnd (· = '\r') more)), hn⟩ name file command rest) :
    Tells (name ++ '\t' :: file ++ '\t' :: written ++ '\t' :: more) name file command rest := by
  unfold Tells
  rw [linesOf_eq_toList hfeed, Line.ofText?_fields hname hfile hwritten]
  split
  · rfl
  · exact ⟨_, rfl, htold _⟩

/-- With a terminator glued to its command, a line tells the kind and the attributes of the fields behind it. -/
theorem FitLine.tells_glued (h : FitLine name file command rest) :
    Tells (gluedLine name file command rest) name file command rest := by
  have hfields : gluedLine name file command rest =
      name ++ '\t' :: file ++ '\t' :: (command ++ terminator) ++ '\t' :: rest := by simp [gluedLine]
  rw [hfields]
  refine tells_fields h.name_oneField.1 h.file_oneField.1 ?_ ?_ ?_
  · rw [List.mem_append, not_or]
    exact ⟨h.command_oneField.1, by decide⟩
  · simp [h.name_oneField.2, h.file_oneField.2, h.command_oneField.2, h.rest_oneLine, terminator]
  · intro hn
    rw [splitTerminator_glued]
    refine Line.says_of_extension ('\t' :: (Text.trimEnd (· = '\r') rest).strip) ?_ ?_ ?_
    · simp only [Line.extension, Text.joinWith_splitOn, if_true]
    · exact blankNext_cons (by decide) _
    · rw [Text.strip_cons_blank (by decide), Text.strip_strip, strip_trimEnd_returns]

/-- With the terminator in a field of its own, a line tells the kind and the attributes of the fields behind that one. -/
theorem FitLine.tells_apart (h : FitLine name file command rest) :
    Tells (apartLine name file command rest) name file command rest := by
  have hfields : apartLine name file command rest =
      name ++ '\t' :: file ++ '\t' :: command ++ '\t' :: (terminator ++ '\t' :: rest) := by simp [apartLine]
  have hkept : Text.trimEnd (· = '\r') (terminator ++ '\t' :: rest) = terminator ++ '\t' :: Text.trimEnd (· = '\r') rest :=
    Text.trimEnd_append_cons (by decide) _ rest
  rw [hfields]
  refine tells_fields h.name_oneField.1 h.file_oneField.1 h.command_oneField.1 ?_ ?_
  · simp [h.name_oneField.2, h.file_oneField.2, h.command_oneField.2, h.rest_oneLine, terminator]
  · intro hn
    rw [splitTerminator_eq_self h.command_bare, hkept]
    obtain ⟨back, hshown, hback⟩ := Text.exists_eq_trimEnd_append Text.isBlank ('\t' :: Text.trimEnd (· = '\r') rest)
    refine Line.says_of_extension (Text.trimEnd Text.isBlank ('\t' :: Text.trimEnd (· = '\r') rest)) ?_ ?_ ?_
    · simp only [Line.extension, Text.joinWith_splitOn, Bool.false_eq_true, if_false]
      -- neither end of the terminator is a blank, so trimming leaves all of it
      rw [Text.strip, Text.trim, show Text.trimStart Text.isBlank (terminator ++ '\t' :: Text.trimEnd (· = '\r') rest) =
        [';'] ++ '"' :: '\t' :: Text.trimEnd (· = '\r') rest from rfl, Text.trimEnd_append_cons (by decide)]
      rfl
    · intro c hc
      have hhead := congrArg List.head? hshown
      rw [List.head?_append, hc] at hhead
      cases hhead
      decide
    · rw [← Text.strip_append_blanks _ hback, ← hshown, Text.strip_cons_blank (by decide), strip_trimEnd_returns]

/-! ## Whoever is asked -/

/-- Who is asked for the line of a search: from what it remembers, a path and a command it answers with a line or with none, and
with what it remembers next, or it fails. -/
abbrev Resolver (Memory : Type) := Memory → Text → Text → Except Fault (Option Int × Memory)

namespace Resolver

variable {Memory : Type}

/-- The line that a command leads to; a number is not asked about, and without an answer it is the first line. -/
def lineOf (resolver : Resolver Memory) (memory : Memory) (path command : Text) : Except Fault (Int × Memory) :=
  if !command.isEmpty && command.all Text.isDigit then .ok (lineNumber command, memory)
  else (resolver memory path command).map (fun answer => (answer.1.getD 1, answer.2))

/-- The symbol of a tag line. -/
def symbolOf (resolver : Resolver Memory) (directory : Text) (memory : Memory) (line : Line) :
    Except Fault (Symbol × Memory) := do
  let path := pathOf directory line.file
  let (number, memory) ← resolver.lineOf memory path line.command
  let location ← (Location.make path number).mapError Fault.invalid
  let symbol ← (Symbol.make line.name (some location) line.kind line.attributes).mapError Fault.invalid
  .ok (symbol, memory)

/-- The symbols of tag lines in order, with what is remembered handed from line to line. -/
def symbolsOf (resolver : Resolver Memory) (directory : Text) (memory : Memory) :
    List Line → Except Fault (List Symbol × Memory)
  | [] => .ok ([], memory)
  | line :: rest => do
    let (symbol, memory) ← resolver.symbolOf directory memory line
    let (symbols, memory) ← resolver.symbolsOf directory memory rest
    .ok (symbol :: symbols, memory)

/-- The symbols in the text of a tags file, where any resolver is asked for the lines of searches. -/
def parse (resolver : Resolver Memory) (memory : Memory) (workingDir text path : Text) : Except Fault (List Symbol) :=
  (resolver.symbolsOf (Path.directoryOf (Path.absolute workingDir path)) memory (linesOf text)).map (fun made => made.1)

end Resolver

/-- Who is asked where searches are not resolved, or are resolved by reading. -/
def Resolving.resolver : Resolving → Resolver LineFinder
  | .off => fun finder _ _ => .ok (none, finder)
  | .reading readText => fun finder path command =>
    (finder.find readText path command).map (fun answer => (answer.1.map Int.ofNat, answer.2))

/-- A finder finds the line of a command as a resolver does. -/
theorem Resolving.resolver_lineOf (resolving : Resolving) (finder : LineFinder) (path command : Text) :
    resolving.resolver.lineOf finder path command =
      (lineOf resolving finder path command).map (fun found => ((found.1 : Int), found.2)) := by
  unfold Resolver.lineOf Tags.lineOf
  split
  · rfl
  · cases resolving with
    | off => rfl
    | reading readText =>
      simp only [resolver]
      cases finder.find readText path command with
      | error fault => rfl
      | ok answer =>
        obtain ⟨found, after⟩ := answer
        cases found <;> rfl

/-- A finder makes the symbol of a line as a resolver does. -/
theorem Resolving.resolver_symbolOf (resolving : Resolving) (directory : Text) (finder : LineFinder) (line : Line) :
    resolving.resolver.symbolOf directory finder line = symbolOf resolving directory finder line := by
  unfold Resolver.symbolOf Tags.symbolOf
  simp only [resolver_lineOf]
  cases lineOf resolving finder (pathOf directory line.file) line.command with
  | error fault => rfl
  | ok found =>
    obtain ⟨n, after⟩ := found
    simp only [Except.map, bind, Except.bind]
    cases Location.make (pathOf directory line.file) n with
    | error issues => rfl
    | ok location =>
      simp only [Except.mapError]
      cases Symbol.make line.name (some location) line.kind line.attributes <;> rfl

/-- A finder makes the symbols of lines as a resolver does. -/
theorem Resolving.resolver_symbolsOf (resolving : Resolving) (directory : Text) (finder : LineFinder) (lines : List Line) :
    resolving.resolver.symbolsOf directory finder lines = symbolsOf resolving directory finder lines := by
  induction lines generalizing finder with
  | nil => rfl
  | cons line rest ih =>
    rw [Resolver.symbolsOf, Tags.symbolsOf, resolver_symbolOf]
    simp only [ih]

/-- A finder that reads files is one of those that may be asked. -/
theorem Resolving.resolver_parse (resolving : Resolving) (workingDir text path : Text) :
    resolving.resolver.parse .fresh workingDir text path = parse workingDir resolving text path := by
  rw [Resolver.parse, resolver_symbolsOf, Tags.parse]
  cases symbolsOf resolving (Path.directoryOf (Path.absolute workingDir path)) .fresh (linesOf text) <;> rfl

/-- Two lines that say the same give the same symbol, whoever is asked. -/
theorem Resolver.symbolOf_congr {Memory : Type} (resolver : Resolver Memory) (directory : Text) (memory : Memory)
    {line line' : Line} (h : line.Says name file command rest) (h' : line'.Says name file command rest) :
    resolver.symbolOf directory memory line = resolver.symbolOf directory memory line' := by
  simp only [Resolver.symbolOf, h.name, h.file, h.command, h.kind, h.attributes, h'.name, h'.file, h'.command, h'.kind,
    h'.attributes]

/-- Two texts that tell the same give the same symbols, whoever is asked. -/
theorem Resolver.parse_congr {Memory : Type} (resolver : Resolver Memory) (memory : Memory) (workingDir path : Text)
    {text text' : Text} (h : Tells text name file command rest) (h' : Tells text' name file command rest) :
    resolver.parse memory workingDir text path = resolver.parse memory workingDir text' path := by
  unfold Tells at h h'
  split at h
  · rename_i hbad
    rw [if_pos hbad] at h'
    rw [Resolver.parse, Resolver.parse, h, h']
  · rename_i hgood
    rw [if_neg hgood] at h'
    obtain ⟨line, hline, htold⟩ := h
    obtain ⟨line', hline', htold'⟩ := h'
    rw [Resolver.parse, Resolver.parse, hline, hline', Resolver.symbolsOf, Resolver.symbolsOf,
      resolver.symbolOf_congr _ memory htold htold']

/-- For every name, file and command, and whatever follows them on the line, it makes no difference whether the terminator is
glued to the command or stands in a field of its own: both texts give the same symbols, whether searches are resolved by reading or
not at all, and whoever else is asked for their lines. Each text is one tag line, if the name may start one, and its kind and its
attributes are those of what follows the terminator. -/
theorem parse_glued_eq_apart (h : FitLine name file command rest) (workingDir path : Text) :
    (∀ resolving, parse workingDir resolving (gluedLine name file command rest) path =
        parse workingDir resolving (apartLine name file command rest) path) ∧
      (∀ (Memory : Type) (resolver : Resolver Memory) (memory : Memory),
        resolver.parse memory workingDir (gluedLine name file command rest) path =
          resolver.parse memory workingDir (apartLine name file command rest) path) ∧
      Tells (gluedLine name file command rest) name file command rest ∧
      Tells (apartLine name file command rest) name file command rest := by
  have hany := fun (Memory : Type) (resolver : Resolver Memory) (memory : Memory) =>
    resolver.parse_congr memory workingDir path h.tells_glued h.tells_apart
  refine ⟨?_, hany, h.tells_glued, h.tells_apart⟩
  intro resolving
  rw [← resolving.resolver_parse, ← resolving.resolver_parse]
  exact hany LineFinder resolving.resolver .fresh

/-- A remainder with blanks in front, a second terminator in front of another word, an empty field, a kind of its own and carriage
returns at its end. -/
def oddRest : Text := " \t\tf:x;\"\ts\t\tkind:k\r\r".toList

/-- The symbol of a line that ends with this remainder, in either style. -/
def oddRestSymbol : Symbol :=
  .ofLetters 'f' [] (some (.after "/ws/a.c".toList 6)) (some "k".toList)
    (.ofPairs [("f".toList, "x;\"".toList), ("kind".toList, "k".toList)])

/-- Whoever is asked for a search answers with the number of questions before it. -/
def counting : Resolver Nat := fun asked _ _ => .ok (some (asked + 1), asked + 1)

set_option maxRecDepth 4000 in
/-- In both styles the first word behind the terminator has a colon and is no kind, so the kind is that of the attribute; the later
terminator marks nothing. -/
theorem parse_glued_eq_apart_odd :
    FitLine "f".toList "a.c".toList "/^int f;$/".toList oddRest ∧
      counting.parse 6 "/".toList (gluedLine "f".toList "a.c".toList "/^int f;$/".toList oddRest) "/ws/tags".toList =
        .ok [oddRestSymbol] ∧
      counting.parse 6 "/".toList (apartLine "f".toList "a.c".toList "/^int f;$/".toList oddRest) "/ws/tags".toList =
        .ok [oddRestSymbol] := by
  have hfit : FitLine "f".toList "a.c".toList "/^int f;$/".toList oddRest :=
    ⟨by decide, by decide, by decide, by decide, by decide⟩
  have hglued : counting.parse 6 "/".toList (gluedLine "f".toList "a.c".toList "/^int f;$/".toList oddRest) "/ws/tags".toList =
      .ok [oddRestSymbol] := by
    cbv
  refine ⟨hfit, hglued, ?_⟩
  rw [← (parse_glued_eq_apart hfit "/".toList "/ws/tags".toList).2.1 Nat counting 6]
  exact hglued

end SymbolSearch.Tags
