import SymbolSearch.Proofs.Answer
import SymbolSearch.Proofs.Symbol
import SymbolSearch.Tags.Basic

/-!
# Where a tags file gives no symbols

Every well-formed tag line gives a symbol as long as the file in which its search has to be resolved is not refused. A finder
remembers only files that are not refused, so what it remembers never decides which line is stuck (`symbolsOf_error_iff`).
-/

namespace SymbolSearch.Tags

/-- The command of the line is a search, not a line number. -/
def Line.isSearch (line : Line) : Bool :=
  !(!line.command.isEmpty && line.command.all Text.isDigit) && (SearchPattern.ofCommand? line.command).isSome

/-- Reading a file to resolve a search is refused: it ends in a fault that is no failure of the disk. -/
def Resolving.Refuses : Resolving → Text → Fault → Prop
  | .off, _, _ => False
  | .reading readText, path, fault => readText path = .error fault ∧ fault.isDiskFailure = false

/-- Nothing that the finder remembers is refused. -/
def LineFinder.Sound (finder : LineFinder) (resolving : Resolving) : Prop :=
  ∀ entry ∈ finder.known, ∀ fault, ¬resolving.Refuses entry.1 fault

/-- The line is a search in a file that is refused. -/
def Line.Stuck (line : Line) (resolving : Resolving) (directory : Text) (fault : Fault) : Prop :=
  line.isSearch = true ∧ resolving.Refuses (pathOf directory line.file) fault

variable {resolving : Resolving} {readText : ReadText} {finder finder' : LineFinder} {path command directory : Text}
  {line : Line} {fault : Fault}

/-- A finder that has read nothing remembers nothing that is refused. -/
theorem LineFinder.sound_fresh (resolving : Resolving) : LineFinder.fresh.Sound resolving := by
  intro entry he
  cases he

/-! ## One line -/

/-- The lines of a file stay unknown exactly if reading it is refused. -/
theorem LineFinder.linesOf_error_iff (hf : finder.Sound (.reading readText)) :
    finder.linesOf readText path = .error fault ↔ Resolving.Refuses (.reading readText) path fault := by
  unfold linesOf
  split
  · rename_i known lines hk
    have hmem := List.mem_of_find?_eq_some hk
    have hpath : known = path := by simpa using List.find?_some hk
    subst hpath
    simpa using hf _ hmem fault
  · split
    · rename_i text ht
      simp [Resolving.Refuses, ht]
    · rename_i e ht
      by_cases hd : e.isDiskFailure = true
      · rw [if_pos hd]
        simp only [Resolving.Refuses, ht, reduceCtorEq, Except.error.injEq, false_iff, not_and]
        rintro rfl
        simp [hd]
      · rw [if_neg hd]
        simp only [Resolving.Refuses, ht, Except.error.injEq, iff_self_and]
        rintro rfl
        simpa using hd

/-- What is remembered of one more file that is not refused keeps the memory free of refused files. -/
theorem LineFinder.Sound.remember (hf : finder.Sound resolving) (hp : ∀ fault, ¬resolving.Refuses path fault)
    (lines : Option (List Text)) : LineFinder.Sound ⟨finder.known ++ [(path, lines)]⟩ resolving := by
  intro entry he
  rcases List.mem_append.1 he with he | he
  · exact hf entry he
  · rw [List.mem_singleton] at he
    subst he
    exact hp

/-- After reading a file the finder still remembers nothing that is refused. -/
theorem LineFinder.Sound.linesOf {lines : Option (List Text)} (hf : finder.Sound (.reading readText))
    (h : finder.linesOf readText path = .ok (lines, finder')) : finder'.Sound (.reading readText) := by
  have hp : ∀ fault, ¬Resolving.Refuses (.reading readText) path fault := by
    intro fault
    rw [← linesOf_error_iff hf, h]
    exact nofun
  unfold LineFinder.linesOf at h
  split at h
  · cases h
    exact hf
  · split at h
    · cases h
      exact hf.remember hp _
    · split at h
      · cases h
        exact hf.remember hp _
      · cases h

/-- Where the command of a line is no search, its number is there and nothing is read. -/
theorem lineOf_of_not_isSearch (hs : line.isSearch = false) (resolving : Resolving) (finder : LineFinder) (path : Text) :
    ∃ n, lineOf resolving finder path line.command = .ok (n, finder) := by
  unfold lineOf
  split
  · exact ⟨_, rfl⟩
  · rename_i hd
    have hp : SearchPattern.ofCommand? line.command = none := by
      simpa [Line.isSearch, hd] using hs
    cases resolving with
    | off => exact ⟨1, rfl⟩
    | reading readText =>
      refine ⟨1, ?_⟩
      simp only [LineFinder.find, hp]
      rfl

/-- The number of a search is that of the line it finds among the lines of its file. -/
theorem lineOf_of_isSearch (hs : line.isSearch = true) :
    ∃ pattern, lineOf (.reading readText) finder path line.command = (do
      let (lines, finder) ← finder.linesOf readText path
      .ok ((lines.bind (SearchPattern.firstLine? pattern)).getD 1, finder)) := by
  simp only [Line.isSearch, Bool.and_eq_true, Bool.not_eq_true', Option.isSome_iff_exists] at hs
  obtain ⟨hd, pattern, hp⟩ := hs
  refine ⟨pattern, ?_⟩
  simp only [lineOf, hd, Bool.false_eq_true, if_false, LineFinder.find, hp]
  cases finder.linesOf readText path <;> rfl

/-- A line has no number exactly if it is stuck. -/
theorem lineOf_error_iff (hf : finder.Sound resolving) (directory : Text) (line : Line) (fault : Fault) :
    lineOf resolving finder (pathOf directory line.file) line.command = .error fault ↔
      line.Stuck resolving directory fault := by
  unfold Line.Stuck
  cases hs : line.isSearch with
  | false =>
    obtain ⟨n, hl⟩ := lineOf_of_not_isSearch hs resolving finder (pathOf directory line.file)
    simp [hl]
  | true =>
    cases resolving with
    | off =>
      have hl : ∃ n, lineOf .off finder (pathOf directory line.file) line.command = .ok (n, finder) := by
        unfold lineOf
        split
        · exact ⟨_, rfl⟩
        · exact ⟨1, rfl⟩
      obtain ⟨n, hl⟩ := hl
      simp [hl, Resolving.Refuses]
    | reading readText =>
      obtain ⟨pattern, hl⟩ := lineOf_of_isSearch hs
      rw [hl, ← LineFinder.linesOf_error_iff hf]
      simp [bind_eq_error_iff]

/-- Finding the number of a line leaves nothing refused in memory. -/
theorem LineFinder.Sound.lineOf {n : Nat} (hf : finder.Sound resolving)
    (h : lineOf resolving finder path line.command = .ok (n, finder')) : finder'.Sound resolving := by
  cases hs : line.isSearch with
  | false =>
    obtain ⟨m, hl⟩ := lineOf_of_not_isSearch hs resolving finder path
    rw [hl] at h
    cases h
    exact hf
  | true =>
    cases resolving with
    | off => exact fun _ _ _ => id
    | reading readText =>
      obtain ⟨pattern, hl⟩ := lineOf_of_isSearch hs
      rw [hl] at h
      obtain ⟨⟨lines, after⟩, hl, h⟩ := bind_eq_ok_iff.1 h
      cases h
      exact hf.linesOf hl

/-- A written line number is at least one. -/
theorem one_le_lineNumber (digits : Text) : 1 ≤ lineNumber digits := by
  unfold lineNumber
  split
  · exact Nat.le_refl 1
  · exact Nat.le_max_left 1 _

/-- The lines in which a search finds something are counted from one. -/
theorem SearchPattern.one_le_of_firstLine? {pattern : SearchPattern} {lines : List Text} {n : Nat}
    (h : pattern.firstLine? lines = some n) : 1 ≤ n := by
  obtain ⟨i, -, rfl⟩ := Option.map_eq_some_iff.1 h
  exact Nat.le_add_left 1 i

/-- Line numbers are counted from one. -/
theorem one_le_of_lineOf {n : Nat} (h : lineOf resolving finder path command = .ok (n, finder')) :
    1 ≤ n := by
  unfold lineOf at h
  split at h
  · cases h
    exact one_le_lineNumber command
  · split at h
    · cases h
      exact Nat.le_refl 1
    · obtain ⟨⟨found, after⟩, hfound, h⟩ := bind_eq_ok_iff.1 h
      cases h
      cases found with
      | none => exact Nat.le_refl 1
      | some m =>
        unfold LineFinder.find at hfound
        split at hfound
        · cases hfound
        · obtain ⟨⟨lines, after'⟩, -, hfound⟩ := bind_eq_ok_iff.1 hfound
          simp only [Except.ok.injEq, Prod.mk.injEq, Option.bind_eq_some_iff] at hfound
          obtain ⟨⟨lines, -, hfirst⟩, -⟩ := hfound
          exact SearchPattern.one_le_of_firstLine? hfirst

/-- The symbol of a line with a number. -/
def Line.symbolAt (line : Line) (directory : Text) (n : Nat) (h : 1 ≤ n) : Symbol :=
  ⟨line.name, some ⟨pathOf directory line.file, n, h⟩, line.kind, line.attributes, line.name_ne_nil⟩

/-- A line whose number is not found gives no symbol. -/
theorem symbolOf_of_error (h : lineOf resolving finder (pathOf directory line.file) line.command = .error fault) :
    symbolOf resolving directory finder line = .error fault := by
  simp only [symbolOf, h, bind, Except.bind]

/-- Once the number of a line is found, the line gives a symbol. -/
theorem symbolOf_of_ok {n : Nat} (h : lineOf resolving finder (pathOf directory line.file) line.command = .ok (n, finder')) :
    symbolOf resolving directory finder line = .ok (line.symbolAt directory n (one_le_of_lineOf h), finder') := by
  simp only [symbolOf, h, bind, Except.bind, Location.make_of_le (one_le_of_lineOf h), Symbol.make_of_ne_nil line.name_ne_nil]
  rfl

/-! ## All lines -/

/-- The symbols of lines are cut short exactly by the first line that is stuck. -/
theorem symbolsOf_error_iff {lines : List Line} (hf : finder.Sound resolving) :
    symbolsOf resolving directory finder lines = .error fault ↔
      Until (fun line => ∀ e, ¬line.Stuck resolving directory e) (fun line => line.Stuck resolving directory fault) lines := by
  induction lines generalizing finder with
  | nil => simp [symbolsOf, not_until_nil]
  | cons line rest ih =>
    have hline := lineOf_error_iff hf directory line
    rw [symbolsOf, until_cons_iff]
    cases hl : lineOf resolving finder (pathOf directory line.file) line.command with
    | error e => simp [symbolOf_of_error hl, bind, Except.bind, ← hline, hl]
    | ok found =>
      obtain ⟨n, after⟩ := found
      have hmoves : ∀ e, ¬line.Stuck resolving directory e := by
        intro e
        rw [← hline, hl]
        exact nofun
      rw [or_iff_right (hmoves fault), and_iff_right hmoves, ← ih (hf.lineOf hl), symbolOf_of_ok hl]
      simp only [bind, Except.bind]
      cases symbolsOf resolving directory after rest <;> simp

/-- Each symbol of lines is that of one of the lines: its name, the path of its file, a line of that file, its kind and its
attributes. -/
theorem exists_of_mem_symbolsOf {lines : List Line} {symbols : List Symbol} {symbol : Symbol}
    (h : symbolsOf resolving directory finder lines = .ok (symbols, finder')) (hmem : symbol ∈ symbols) :
    ∃ line ∈ lines, ∃ n hn, symbol = line.symbolAt directory n hn := by
  induction lines generalizing finder symbols with
  | nil =>
    cases h
    cases hmem
  | cons line rest ih =>
    rw [symbolsOf] at h
    obtain ⟨⟨first, after⟩, hfirst, h⟩ := bind_eq_ok_iff.1 h
    obtain ⟨⟨others, last⟩, hothers, h⟩ := bind_eq_ok_iff.1 h
    cases h
    rcases List.mem_cons.1 hmem with rfl | hmem
    · cases hl : lineOf resolving finder (pathOf directory line.file) line.command with
      | error e =>
        rw [symbolOf_of_error hl] at hfirst
        cases hfirst
      | ok found =>
        obtain ⟨n, after'⟩ := found
        rw [symbolOf_of_ok hl] at hfirst
        cases hfirst
        exact ⟨line, List.mem_cons_self, n, _, rfl⟩
    · obtain ⟨found, hfound, hsymbol⟩ := ih hothers hmem
      exact ⟨found, List.mem_cons_of_mem _ hfound, hsymbol⟩

/-- Each symbol of a text is that of one of its lines. -/
theorem exists_of_mem_parse {workingDir text : Text} {symbols : List Symbol} {symbol : Symbol}
    (h : parse workingDir resolving text path = .ok symbols) (hmem : symbol ∈ symbols) :
    ∃ line ∈ linesOf text, ∃ n hn, symbol = line.symbolAt (Path.directoryOf (Path.absolute workingDir path)) n hn := by
  obtain ⟨⟨found, after⟩, hfound, h⟩ := bind_eq_ok_iff.1 h
  cases h
  exact exists_of_mem_symbolsOf hfound hmem

/-- A text gives its symbols up to the first line that is stuck. -/
theorem parse_error_iff {workingDir text : Text} :
    parse workingDir resolving text path = .error fault ↔
      Until (fun line => ∀ e, ¬line.Stuck resolving (Path.directoryOf (Path.absolute workingDir path)) e)
        (fun line => line.Stuck resolving (Path.directoryOf (Path.absolute workingDir path)) fault) (linesOf text) := by
  rw [← symbolsOf_error_iff (LineFinder.sound_fresh resolving)]
  simp [parse, bind_eq_error_iff]

end SymbolSearch.Tags
