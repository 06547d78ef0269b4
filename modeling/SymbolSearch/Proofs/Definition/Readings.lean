import Mathlib
import SymbolSearch.Proofs.Definition.Names

/-!
# The names of a text in order

The list of names is what the line starts of a text read, one after the other (`names_readings`). A definition may end on the line
below its first one, and still no line start is passed over that would read as another definition.
-/

namespace SymbolSearch.Definition

/-- What is found at a line start is the name that it reads as a definition of, or nothing if it does not read as one. -/
def IsReading (line : Text) (found : Option Text) : Prop :=
  ∀ name, found = some name ↔ ∃ behind, Reads line name behind

/-- A later line start has less text behind it. -/
theorem length_lt_of_mem_laterLines {s line : Text} (h : line ∈ laterLines s) : line.length < s.length := by
  obtain ⟨before, rfl⟩ := mem_laterLines_iff.1 h
  simp
  omega

/-- The line starts come in the order of the text. -/
theorem lineStarts_ordered (s : Text) : (lineStarts s).Pairwise (fun line later => later.length < line.length) := by
  rw [lineStarts, List.pairwise_cons]
  refine ⟨fun line hline => length_lt_of_mem_laterLines hline, ?_⟩
  induction s with
  | nil => exact .nil
  | cons c rest ih =>
    rw [laterLines]
    split
    · exact List.pairwise_cons.2 ⟨fun line hline => length_lt_of_mem_laterLines hline, ih⟩
    · exact ih

/-- The names of a text are what its line starts read, in their order and without the control words. The line starts are the start
of the text and the places behind line feeds, and none of them is lost to a definition that reaches into the next line. What a
line start reads is one name at most: the word in front of its first parenthesis. -/
theorem names_readings (s : Text) :
    (lineStarts s).Pairwise (fun line later => later.length < line.length) ∧
      (∀ line, line ∈ lineStarts s ↔ ∃ front, EndsLine front ∧ s = front ++ line) ∧
      (∃ found, List.Forall₂ IsReading (lineStarts s) found ∧
        names s = (found.filterMap id).filter (fun name => !controlWords.contains name)) ∧
      ∀ line name behind, Reads line name behind →
        name = lastWord line ∧ ∀ name' behind', Reads line name' behind' → name' = name ∧ behind' = behind := by
  refine ⟨lineStarts_ordered s, fun line => mem_lineStarts_iff, ⟨(lineStarts s).map nameAt?, ?_, ?_⟩, ?_⟩
  · rw [List.forall₂_map_right_iff, List.forall₂_same]
    intro line _ name
    exact nameAt?_eq_some_iff
  · rw [names, namesFrom_eq, List.filterMap_map]
    rfl
  · intro line name behind h
    exact ⟨h.split.1, fun name' behind' h' => h'.unique h⟩

/-- A definition whose brace stands on the next line, a statement that reads like one, a call, and a definition behind the brace
of another one. -/
def readingSource : Text :=
  "int f (int a)\n\t\x7b\n\telse if (a) \x7b\n  g(a);\nstatic char *g(void) \x7b\nint h(void) \x7b".toList

set_option maxRecDepth 4000 in
/-- Six line starts, of which four read as definitions and one of these only by its look. -/
theorem names_readings_source :
    (lineStarts readingSource).length = 6 ∧ names readingSource = ["f".toList, "g".toList, "h".toList] ∧
      ∃ found, List.Forall₂ IsReading (lineStarts readingSource) found ∧
        ["f".toList, "g".toList, "h".toList] = (found.filterMap id).filter (fun name => !controlWords.contains name) := by
  have hnames : names readingSource = ["f".toList, "g".toList, "h".toList] := by cbv
  obtain ⟨-, -, ⟨found, hfound, heq⟩, -⟩ := names_readings readingSource
  exact ⟨by cbv, hnames, found, hfound, hnames.symm.trans heq⟩

end SymbolSearch.Definition
