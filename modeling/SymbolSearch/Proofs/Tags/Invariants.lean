import Mathlib
import SymbolSearch.Proofs.Path.Normal
import SymbolSearch.Proofs.Tags.Reading

/-!
# What every symbol of a tags file satisfies

Whatever a tags file holds, its symbols have names, lines counted from one, and places that are normal absolute paths: a file field
may climb with double dots, repeat slashes or be empty, and is always seen from the absolute directory of the tags file
(`isNormal_pathOf`). So the checks of symbols and locations never refuse one, and reading comes to an end with all of them
(`parse_wellFormed`).
-/

namespace SymbolSearch.Tags

variable {resolving : Resolving} {workingDir : Text}

/-- From an absolute directory every file field names a normal path. -/
theorem isNormal_pathOf {directory : Text} (h : directory.head? = some '/') (file : Text) :
    Path.IsNormal (pathOf directory file) := by
  unfold pathOf
  split
  · rename_i ha
    exact Path.isNormal_normalize (Path.isAbsolute_ofText_iff.1 ha)
  · exact Path.isNormal_normalize (Path.isAbsolute_ofText_iff.1 (Path.isAbsolute_joinText h file))

/-- The directory of a tags file is absolute. -/
theorem head?_directory (h : workingDir.head? = some '/') (path : Text) :
    (Path.directoryOf (Path.absolute workingDir path)).head? = some '/' :=
  Path.head?_directoryOf (Path.isNormal_absolute h path).starts

/-- Where no source file is refused, every text is read to its end, whatever it holds and wherever the tags file is: none of its
well-formed lines is left out. Each of its symbols has a name and a place, of which the line is counted from one and the path is
absolute and normal. -/
theorem parse_wellFormed (hr : ∀ path fault, ¬resolving.Refuses path fault) (hdir : workingDir.head? = some '/')
    (text path : Text) :
    ∃ symbols, parse workingDir resolving text path = .ok symbols ∧
      symbols.map Symbol.name = (linesOf text).map Line.name ∧ ∀ symbol ∈ symbols,
        symbol.name ≠ [] ∧ ∃ location, symbol.location = some location ∧ 1 ≤ location.line ∧ Path.IsNormal location.path := by
  have hparse := parse_eq hr workingDir text path
  refine ⟨_, hparse, ?_, ?_⟩
  · rw [List.map_map]
    rfl
  · intro symbol hsymbol
    obtain ⟨line, -, n, hn, rfl⟩ := exists_of_mem_parse hparse hsymbol
    exact ⟨line.name_ne_nil, _, rfl, hn, isNormal_pathOf (head?_directory hdir path) line.file⟩

/-- Lines whose fields are as odd as they can be: a file that climbs beyond the root with line zero, one behind two slashes that is
searched for, and an empty one with a line in digits of another script. -/
def oddTags : Text :=
  "f\t../../../x//./y.c\t0\ng\t//net/../h.c\t/^int g/;\"\tf\nh\t\t１２".toList

/-- The symbols of these lines in a tags file below `//home/.`. -/
def oddTagsSymbols : List Symbol :=
  [.ofLetters 'f' [] (some (.after "//x/y.c".toList 0)) none .empty,
    .ofLetters 'g' [] (some (.after "//h.c".toList 0)) (some "f".toList) .empty,
    .ofLetters 'h' [] (some (.after "//home/ws".toList 11)) none .empty]

/-- Source files of which none can be opened. -/
def closedSources : ReadText := fun _ => .error (.disk .denied)

set_option maxRecDepth 4000 in
/-- All of these lines give symbols, with normal places. -/
theorem parse_wellFormed_odd :
    (∀ path fault, ¬(Resolving.reading closedSources).Refuses path fault) ∧ "//home/.".toList.head? = some '/' ∧
      parse "//home/.".toList (.reading closedSources) oddTags "ws/tags".toList = .ok oddTagsSymbols ∧
        ∀ symbol ∈ oddTagsSymbols, symbol.name ≠ [] ∧
          ∃ location, symbol.location = some location ∧ 1 ≤ location.line ∧ Path.IsNormal location.path := by
  have hr : ∀ path fault, ¬(Resolving.reading closedSources).Refuses path fault := by
    rintro path fault ⟨hread, hfailure⟩
    cases hread
    cases hfailure
  have hdir : "//home/.".toList.head? = some '/' := by decide
  have hvalue : parse "//home/.".toList (.reading closedSources) oddTags "ws/tags".toList =
      .ok oddTagsSymbols := by
    cbv
  obtain ⟨symbols, hparse, -, hall⟩ := parse_wellFormed hr hdir oddTags "ws/tags".toList
  rw [hvalue] at hparse
  cases hparse
  exact ⟨hr, hdir, hvalue, hall⟩

end SymbolSearch.Tags
