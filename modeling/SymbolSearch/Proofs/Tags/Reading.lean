import Mathlib
import SymbolSearch.Proofs.Tags
import SymbolSearch.Proofs.Text

/-!
# Reading tags files line by line

What a finder remembers of a file is what reading the file gives (`LineFinder.Recalls`), so its memory never shows: each
well-formed line stands for one symbol of its own (`Line.symbolIn`), and reading a text is reading its lines (`parse_eq`). Two texts
one below the other therefore give the symbols of both, and a bad line hides no other (`parse_append`).
-/

namespace SymbolSearch.Tags

/-! ## What a finder remembers -/

/-- The lines of a file as reading it gives them; none if it cannot be read. -/
def Resolving.lines? : Resolving → Text → Option (List Text)
  | .off, _ => none
  | .reading readText, path => (readText path).toOption.map Text.lines

/-- Each file is remembered as reading it gives it. -/
def LineFinder.Recalls (finder : LineFinder) (resolving : Resolving) : Prop :=
  ∀ entry ∈ finder.known, entry.2 = resolving.lines? entry.1

variable {resolving : Resolving} {readText : ReadText} {finder : LineFinder} {path : Text}

/-- A finder that has read nothing remembers nothing. -/
theorem LineFinder.recalls_fresh (resolving : Resolving) : LineFinder.fresh.Recalls resolving := by
  intro entry he
  cases he

/-- One more file may be remembered as reading it gives it. -/
theorem LineFinder.Recalls.remember (hf : finder.Recalls resolving) (path : Text) :
    LineFinder.Recalls ⟨finder.known ++ [(path, resolving.lines? path)]⟩ resolving := by
  intro entry he
  rcases List.mem_append.1 he with he | he
  · exact hf entry he
  · rw [List.mem_singleton] at he
    subst he
    rfl

/-- The lines of a file that is not refused are those that reading it gives, whatever was read before. -/
theorem LineFinder.Recalls.linesOf_eq (hf : finder.Recalls (.reading readText))
    (hp : ∀ fault, ¬Resolving.Refuses (.reading readText) path fault) :
    ∃ after : LineFinder, finder.linesOf readText path = .ok (Resolving.lines? (.reading readText) path, after) ∧
      after.Recalls (.reading readText) := by
  unfold LineFinder.linesOf
  split
  · rename_i known lines hk
    have hmem := List.mem_of_find?_eq_some hk
    have hpath : known = path := by simpa using List.find?_some hk
    subst hpath
    rw [← hf _ hmem]
    exact ⟨finder, rfl, hf⟩
  · have hmore := hf.remember path
    cases hread : readText path with
    | ok text =>
      have hlines : Resolving.lines? (.reading readText) path = some text.lines := by
        rw [Resolving.lines?, hread]
        rfl
      rw [hlines] at hmore ⊢
      exact ⟨_, rfl, hmore⟩
    | error fault =>
      have hlines : Resolving.lines? (.reading readText) path = none := by
        rw [Resolving.lines?, hread]
        rfl
      have hfailure : fault.isDiskFailure = true := by
        by_contra hfailure
        exact hp fault ⟨hread, by simpa using hfailure⟩
      rw [hlines] at hmore ⊢
      simp only [hfailure, if_true]
      exact ⟨_, rfl, hmore⟩

/-- What a command finds in a file that is not refused depends on the file alone. -/
theorem LineFinder.Recalls.find_eq (hf : finder.Recalls (.reading readText))
    (hp : ∀ fault, ¬Resolving.Refuses (.reading readText) path fault) (command : Text) :
    ∃ after : LineFinder, finder.find readText path command =
        .ok ((SearchPattern.ofCommand? command).bind (fun pattern =>
          (Resolving.lines? (.reading readText) path).bind pattern.firstLine?), after) ∧
      after.Recalls (.reading readText) := by
  unfold LineFinder.find
  cases SearchPattern.ofCommand? command with
  | none => exact ⟨finder, rfl, hf⟩
  | some pattern =>
    obtain ⟨after, hlines, hafter⟩ := hf.linesOf_eq hp
    refine ⟨after, ?_, hafter⟩
    simp only [hlines]
    rfl

/-! ## What a line stands for -/

/-- The line that a command leads to in a file, without any memory of files. -/
def Resolving.number (resolving : Resolving) (path command : Text) : Nat :=
  if !command.isEmpty && command.all Text.isDigit then lineNumber command
  else ((SearchPattern.ofCommand? command).bind (fun pattern => (resolving.lines? path).bind pattern.firstLine?)).getD 1

/-- That line is counted from one. -/
theorem Resolving.one_le_number (resolving : Resolving) (path command : Text) : 1 ≤ resolving.number path command := by
  unfold Resolving.number
  split
  · exact one_le_lineNumber command
  · cases hfound : (SearchPattern.ofCommand? command).bind
        (fun pattern => (resolving.lines? path).bind pattern.firstLine?) with
    | none => exact Nat.le_refl 1
    | some n =>
      obtain ⟨pattern, -, hfound⟩ := Option.bind_eq_some_iff.1 hfound
      obtain ⟨lines, -, hfirst⟩ := Option.bind_eq_some_iff.1 hfound
      exact SearchPattern.one_le_of_firstLine? hfirst

/-- The symbol that a line stands for in a tags file of a directory. -/
def Line.symbolIn (resolving : Resolving) (directory : Text) (line : Line) : Symbol :=
  line.symbolAt directory (resolving.number (pathOf directory line.file) line.command) (resolving.one_le_number _ _)

/-- Where no file is refused, a command leads to the same line whatever was read before. -/
theorem LineFinder.Recalls.lineOf_eq (hf : finder.Recalls resolving) (hr : ∀ path fault, ¬resolving.Refuses path fault)
    (path command : Text) :
    ∃ after : LineFinder, lineOf resolving finder path command = .ok (resolving.number path command, after) ∧
      after.Recalls resolving := by
  unfold lineOf Resolving.number
  split
  · exact ⟨finder, rfl, hf⟩
  · cases resolving with
    | off =>
      refine ⟨finder, ?_, hf⟩
      cases SearchPattern.ofCommand? command <;> rfl
    | reading readText =>
      obtain ⟨after, hfind, hafter⟩ := hf.find_eq (hr path) command
      refine ⟨after, ?_, hafter⟩
      simp only [hfind]
      rfl

/-- Where no file is refused, lines stand for symbols one by one. -/
theorem LineFinder.Recalls.symbolsOf_eq (hr : ∀ path fault, ¬resolving.Refuses path fault) (directory : Text)
    (lines : List Line) (hf : finder.Recalls resolving) :
    ∃ after, symbolsOf resolving directory finder lines = .ok (lines.map (Line.symbolIn resolving directory), after) := by
  induction lines generalizing finder with
  | nil => exact ⟨finder, rfl⟩
  | cons line rest ih =>
    obtain ⟨middle, hline, hmiddle⟩ := hf.lineOf_eq hr (pathOf directory line.file) line.command
    obtain ⟨after, hrest⟩ := ih hmiddle
    refine ⟨after, ?_⟩
    rw [symbolsOf, symbolOf_of_ok hline]
    simp only [bind, Except.bind, hrest]
    rfl

/-- Where no file is refused, a text gives one symbol for each of its well-formed lines. -/
theorem parse_eq (hr : ∀ path fault, ¬resolving.Refuses path fault) (workingDir text path : Text) :
    parse workingDir resolving text path =
      .ok ((linesOf text).map (Line.symbolIn resolving (Path.directoryOf (Path.absolute workingDir path)))) := by
  obtain ⟨after, h⟩ := (LineFinder.recalls_fresh resolving).symbolsOf_eq hr
    (Path.directoryOf (Path.absolute workingDir path)) (linesOf text)
  simp only [parse, h]
  rfl

/-! ## Lines of texts -/

/-- The lines of two texts, one below the other, are those of both. -/
theorem linesOf_append (front back : Text) : linesOf (front ++ '\n' :: back) = linesOf front ++ linesOf back := by
  rw [linesOf, linesOf, linesOf, ← List.filterMap_append, Text.splitOn_eq, Text.splitOn_eq, Text.splitOn_eq,
    List.splitOn_append_cons_self]

/-- A text without a line feed is one line, well formed or not. -/
theorem linesOf_eq_toList {line : Text} (h : '\n' ∉ line) : linesOf line = (Line.ofText? line).toList := by
  have hsplit : Text.splitOn '\n' (Text.joinWith ['\n'] [line]) = [line] :=
    Text.splitOn_joinWith (List.cons_ne_nil _ _) (by simpa using h)
  rw [Text.joinWith] at hsplit
  rw [linesOf, hsplit]
  cases hline : Line.ofText? line <;> simp [hline]

/-- The well-formed lines of a text are those of its lines, each on its own. -/
theorem linesOf_eq_flatMap (text : Text) : linesOf text = (Text.splitOn '\n' text).flatMap linesOf := by
  rw [linesOf, List.filterMap_eq_flatMap_toList]
  refine List.flatMap_congr fun line hl => ?_
  rw [linesOf_eq_toList (Text.not_mem_of_mem_splitOn hl)]

/-- A carriage return at the end of a line changes nothing. -/
theorem Line.ofText?_append_return (raw : Text) : Line.ofText? (raw ++ ['\r']) = Line.ofText? raw := by
  have htrim : Text.trimEnd (· = '\r') (raw ++ ['\r']) = Text.trimEnd (· = '\r') raw := by
    simp [Text.trimEnd]
  simp only [Line.ofText?, htrim]

/-- The text with a carriage return in front of every line feed. -/
def withReturns (text : Text) : Text :=
  Text.replaceAll ['\n'] ['\r', '\n'] text

/-- Carriage returns are put in front of line feeds one by one. -/
theorem withReturns_cons (c : Char) (rest : Text) :
    withReturns (c :: rest) = (if c = '\n' then ['\r', '\n'] else [c]) ++ withReturns rest := by
  by_cases h : c = '\n'
  · subst h
    rfl
  · have hne : '\n' ≠ c := Ne.symm h
    simp [withReturns, Text.replaceAll, Text.replaceFrom, hne, h]

/-- Carriage returns are put into the parts of a text one by one. -/
theorem withReturns_append (front back : Text) : withReturns (front ++ back) = withReturns front ++ withReturns back := by
  induction front with
  | nil => rfl
  | cons c front ih => rw [List.cons_append, withReturns_cons, withReturns_cons, ih, List.append_assoc]

/-- A text without line feeds gets no carriage returns. -/
theorem withReturns_eq_self {text : Text} (h : '\n' ∉ text) : withReturns text = text := by
  induction text with
  | nil => rfl
  | cons c rest ih =>
    rw [List.mem_cons, not_or] at h
    rw [withReturns_cons, if_neg (Ne.symm h.1), ih h.2]
    rfl

/-- The well-formed lines of a text are the same with carriage returns. -/
theorem linesOf_withReturns (text : Text) : linesOf (withReturns text) = linesOf text := by
  rw [← Text.joinWith_splitOn '\n' text]
  have hfeed : ∀ part ∈ Text.splitOn '\n' text, '\n' ∉ part := fun part hp => Text.not_mem_of_mem_splitOn hp
  generalize Text.splitOn '\n' text = parts at hfeed
  induction parts with
  | nil => rfl
  | cons part rest ih =>
    have hpart := hfeed part List.mem_cons_self
    have hrest := ih (fun other ho => hfeed other (List.mem_cons_of_mem _ ho))
    by_cases hne : rest = []
    · subst hne
      rw [Text.joinWith, withReturns_eq_self hpart]
    · have hreturn : '\n' ∉ part ++ ['\r'] := by simpa using hpart
      have hwritten : withReturns (part ++ '\n' :: Text.joinWith ['\n'] rest) =
          (part ++ ['\r']) ++ '\n' :: withReturns (Text.joinWith ['\n'] rest) := by
        rw [withReturns_append, withReturns_eq_self hpart, withReturns_cons, if_pos rfl]
        simp
      rw [Text.joinWith_cons hne, List.append_assoc, List.singleton_append, hwritten, linesOf_append, linesOf_append, hrest,
        linesOf_eq_toList hreturn, linesOf_eq_toList hpart, Line.ofText?_append_return]

/-! ## Texts one below the other -/

/-- Where no source file is refused, two texts one below the other give the symbols of the first and then those of the second;
the symbols of a text are those of its lines, of which each gives at most one; and carriage returns in front of the line feeds
change nothing. That holds without resolving, and with a finder that each text on its own starts anew. -/
theorem parse_append (hr : ∀ path fault, ¬resolving.Refuses path fault) (workingDir path : Text) :
    (∀ front back, ∃ above below, parse workingDir resolving front path = .ok above ∧
        parse workingDir resolving back path = .ok below ∧
        parse workingDir resolving (front ++ '\n' :: back) path = .ok (above ++ below)) ∧
      (∀ text, ∃ parts, (Text.splitOn '\n' text).mapM (fun line => parse workingDir resolving line path) = .ok parts ∧
        parse workingDir resolving text path = .ok parts.flatten ∧ ∀ part ∈ parts, part.length ≤ 1) ∧
      ∀ text, parse workingDir resolving (Text.replaceAll ['\n'] ['\r', '\n'] text) path =
        parse workingDir resolving text path := by
  have hparse := parse_eq hr workingDir
  refine ⟨?_, ?_, ?_⟩
  · intro front back
    refine ⟨_, _, hparse front path, hparse back path, ?_⟩
    rw [hparse, linesOf_append, List.map_append]
  · intro text
    refine ⟨(Text.splitOn '\n' text).map (fun line => (linesOf line).map (Line.symbolIn resolving
      (Path.directoryOf (Path.absolute workingDir path)))), ?_, ?_, ?_⟩
    · simp only [hparse]
      exact List.mapM_pure
    · rw [hparse, linesOf_eq_flatMap, List.map_flatMap, List.flatMap_def]
    · intro part hp
      obtain ⟨line, hline, rfl⟩ := List.mem_map.1 hp
      rw [List.length_map, linesOf_eq_toList (Text.not_mem_of_mem_splitOn hline)]
      exact Option.length_toList_le
  · intro text
    rw [hparse, hparse]
    exact congrArg _ (congrArg _ (linesOf_withReturns text))

/-- Four lines, of which the second one is cut off and the third one is a header. -/
def brokenTags : Text :=
  "f\ta.c\t/^int f()$/\ng\ta.c\n!h\ta.c\t7\nh\ta.c\t/^int f()$/;\"\tv".toList

/-- The symbols of these lines, both of the second line of their file. -/
def brokenTagsSymbols : List Symbol :=
  [.ofLetters 'f' [] (some (.after "/ws/a.c".toList 1)) none .empty,
    .ofLetters 'h' [] (some (.after "/ws/a.c".toList 1)) (some "v".toList) .empty]

/-- One source file, in which the search of both symbols finds the second line; no other file is there. -/
def oneSource : ReadText := fun path =>
  if path = "/ws/a.c".toList then .ok "int g();\nint f()\n".toList else .error (.disk .notFound)

set_option maxRecDepth 4000 in
/-- The broken line and the header hide nothing: the last line is resolved as if it stood alone, by a finder that has read its file
before. -/
theorem parse_append_broken :
    (∀ path fault, ¬(Resolving.reading oneSource).Refuses path fault) ∧
      parse "/".toList (.reading oneSource) (brokenTags ++ '\n' :: brokenTags) "/ws/tags".toList =
        .ok (brokenTagsSymbols ++ brokenTagsSymbols) := by
  have hr : ∀ path fault, ¬(Resolving.reading oneSource).Refuses path fault := by
    rintro path fault ⟨hread, hfailure⟩
    unfold oneSource at hread
    split at hread
    · cases hread
    · cases hread
      cases hfailure
  have honce : parse "/".toList (.reading oneSource) brokenTags "/ws/tags".toList = .ok brokenTagsSymbols := by
    cbv
  obtain ⟨above, below, habove, hbelow, happend⟩ := (parse_append hr "/".toList "/ws/tags".toList).1 brokenTags brokenTags
  rw [honce] at habove hbelow
  cases habove
  cases hbelow
  exact ⟨hr, happend⟩

end SymbolSearch.Tags
