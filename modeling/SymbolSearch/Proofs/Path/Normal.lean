import Mathlib.Data.List.Basic
import SymbolSearch.Proofs.Path.Writing

/-!
# Normal absolute paths

Behind the root of a normal absolute path stand only names that lead down: none of them is empty, a single dot or a double dot.
Normalising brings every absolute path into that form, and such a path stays as it is when it is normalised again
(`isNormal_normalize`). The directory of an absolute path is absolute again (`head?_directoryOf`).
-/

namespace SymbolSearch.Path

variable {p : Path} {kept : List Text} {s : Text}

/-- The names of a written path behind the slashes that it starts with, as they stand there. -/
def components (s : Text) : List Text :=
  let rest := s.dropWhile (· = '/')
  if rest.isEmpty then [] else Text.splitOn '/' rest

/-- The written path is absolute and in normal form. -/
structure IsNormal (s : Text) : Prop where
  starts : s.head? = some '/'
  normalize_eq : normalize s = s
  leads_down : ∀ name ∈ components s, name ≠ [] ∧ name ≠ ['.'] ∧ name ≠ ['.', '.']

/-! ## Double dots -/

/-- Under a root, one more name brings no double dot. -/
theorem parentName_not_mem_addName (h : parentName ∉ kept) (name : Text) : parentName ∉ addName true kept name := by
  unfold addName
  split
  · split
    · simp
    · rename_i last rest
      rw [List.mem_cons, not_or] at h
      rw [if_neg (Ne.symm h.1)]
      exact h.2
  · rename_i hname
    rw [List.mem_cons, not_or]
    exact ⟨Ne.symm hname, h⟩

/-- Under a root, no double dot is left of any names. -/
theorem parentName_not_mem_normalNames (names : List Text) : parentName ∉ normalNames true names := by
  have hfold : ∀ kept, parentName ∉ kept → parentName ∉ names.foldl (addName true) kept := by
    induction names with
    | nil =>
      intro kept h
      exact h
    | cons name rest ih =>
      intro kept h
      exact ih _ (parentName_not_mem_addName h name)
  intro h
  exact hfold [] List.not_mem_nil (List.mem_reverse.1 h)

/-! ## Components -/

/-- The components of a written absolute path are its names. -/
theorem components_text (ha : p.isAbsolute = true) (hw : p.IsWritten) : components p.text = p.names := by
  have hroot : ∀ c ∈ p.root.text, decide (c = '/') = true := by
    intro c hc
    cases hr : p.root <;> simp_all [PathRoot.text]
  have hstop : ∀ c, (Text.joinWith ['/'] p.names).head? = some c → decide (c = '/') = false := by
    intro c hc
    have hne : c ≠ '/' := by
      rintro rfl
      exact head?_joinWith hw hc
    simpa using hne
  have hrest : p.text.dropWhile (fun c => decide (c = '/')) = Text.joinWith ['/'] p.names := by
    rw [text_eq ha]
    exact Text.dropWhile_append_stop hroot hstop
  unfold components
  rw [hrest]
  by_cases hnames : p.names = []
  · rw [hnames]
    rfl
  · have hsplit := Text.splitOn_joinWith hnames (fun name hname => (hw name hname).2)
    have hne : (Text.joinWith ['/'] p.names).isEmpty = false := by
      rw [List.isEmpty_eq_false_iff]
      intro hempty
      -- the only part of an empty text is no name that a path keeps
      rw [hempty, Text.splitOn] at hsplit
      have hkept := (hw [] (by rw [← hsplit]; exact List.mem_singleton_self _)).1
      cases hkept
    simp only [hne, Bool.false_eq_true, if_false, hsplit]

/-- Normalising an absolute path gives a normal path. -/
theorem isNormal_normalize (h : s.head? = some '/') : IsNormal (normalize s) := by
  have ha : (ofText s).isAbsolute = true := isAbsolute_ofText_iff.2 h
  let p : Path := ⟨(ofText s).root, normalNames true (ofText s).names⟩
  have hp : p.isAbsolute = true := ha
  have hw : p.IsWritten := fun name hname => isWritten_ofText s name (mem_of_mem_normalNames hname)
  have hdots : parentName ∉ p.names := parentName_not_mem_normalNames _
  have htext : normalize s = p.text := by
    rw [normalize, ha]
  have hread : ofText p.text = p := ofText_text hp hw
  rw [htext]
  refine ⟨?_, ?_, ?_⟩
  · rw [← isAbsolute_ofText_iff, hread, hp]
  · rw [normalize, hread, hp, normalNames_eq_self hdots]
  · intro name hname
    rw [components_text hp hw] at hname
    have hkept := (hw name hname).1
    simp only [isKept, Bool.and_eq_true, decide_eq_true_eq] at hkept
    refine ⟨hkept.1, hkept.2, ?_⟩
    rintro rfl
    exact hdots hname

/-! ## Directories -/

/-- What stands before the last slash stands at the start of the text. -/
theorem prefix_of_splitLast? {sep : Char} {front back : Text} (h : s.splitLast? sep = some (front, back)) : front <+: s := by
  unfold Text.splitLast? at h
  split at h
  · cases h
  · rename_i last rest hrest
    cases h
    have hsuffix : last :: rest <:+ s.reverse := by
      rw [← hrest]
      exact List.dropWhile_suffix _
    have hrest : rest <:+ s.reverse := (List.suffix_cons last rest).trans hsuffix
    rw [← List.reverse_prefix, List.reverse_reverse] at hrest
    exact hrest

/-- A text that starts with a slash has a last one. -/
theorem exists_splitLast? (h : s.head? = some '/') : ∃ front back, s.splitLast? '/' = some (front, back) := by
  obtain ⟨rest, rfl⟩ := List.head?_eq_some_iff.1 h
  unfold Text.splitLast?
  split
  · rename_i hnone
    rw [List.dropWhile_eq_nil_iff] at hnone
    have hslash := hnone '/' (by simp)
    simp at hslash
  · exact ⟨_, _, rfl⟩

/-- What stands at the start of an absolute path starts with a slash, unless it is empty. -/
theorem head?_of_front {front : Text} (hfront : front <+: s) (hne : front ≠ []) (h : s.head? = some '/') :
    front.head? = some '/' := by
  obtain ⟨rest, rfl⟩ := hfront
  rw [List.head?_append_of_ne_nil _ hne] at h
  exact h

/-- The directory of an absolute path is absolute. -/
theorem head?_directoryOf (h : s.head? = some '/') : (directoryOf s).head? = some '/' := by
  obtain ⟨front, back, hsplit⟩ := exists_splitLast? h
  have hfront := prefix_of_splitLast? hsplit
  unfold directoryOf
  rw [hsplit]
  simp only
  split
  · by_cases hne : front = []
    · rw [hne]
      rfl
    · rw [List.head?_append_of_ne_nil _ hne]
      exact head?_of_front hfront hne h
  · rename_i hne
    have htrimmed : Text.trimEnd (fun c => decide (c = '/')) front <+: front := by
      unfold Text.trimEnd
      rw [← List.reverse_suffix, List.reverse_reverse]
      exact List.dropWhile_suffix _
    exact head?_of_front (htrimmed.trans hfront) (by simpa using hne) h

/-- From an absolute working directory every path is seen as a normal one. -/
theorem isNormal_absolute {workingDir : Text} (h : workingDir.head? = some '/') (s : Text) :
    IsNormal (Path.absolute workingDir s) := by
  unfold Path.absolute
  split
  · rename_i ha
    exact isNormal_normalize (isAbsolute_ofText_iff.1 ha)
  · exact isNormal_normalize (isAbsolute_ofText_iff.1 (isAbsolute_joinText h s))

end SymbolSearch.Path
