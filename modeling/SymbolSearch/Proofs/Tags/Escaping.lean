import SymbolSearch.Proofs.Text
import SymbolSearch.Tags.SearchPattern

/-!
# Escapes in searches

Between the delimiters of a search each backslash is doubled, and each delimiter has a backslash in front (`escape`). Reading the
search takes the escapes back one kind after the other, over the whole text each time. That gives the text back (`unescape_escape`): the
first pass could only be misled by a delimiter behind a backslash that does not belong to it, and an escaped text never starts with a
delimiter (`head?_escape_iff`). So a search without anchors accepts exactly the lines that hold the text (`ofCommand?_escape_accepts`).
-/

namespace SymbolSearch.Tags.SearchPattern

variable {delimiter : Char}

/-- The escaped form of a character between delimiters. -/
def escapeChar (delimiter c : Char) : Text :=
  if c = '\\' then ['\\', '\\'] else if c = delimiter then ['\\', delimiter] else [c]

/-- A text as it stands between delimiters: each backslash is doubled, and each delimiter has a backslash in front. -/
def escape (delimiter : Char) (s : Text) : Text :=
  s.flatMap (escapeChar delimiter)

/-! ## Taking the escapes back -/

/-- An escape is a backslash in front of the character. -/
theorem escapeChar_eq (delimiter c : Char) :
    escapeChar delimiter c = if c = '\\' ∨ c = delimiter then ['\\', c] else [c] := by
  unfold escapeChar
  split
  · rename_i hback
    simp [hback]
  · rename_i hback
    split
    · rename_i hc
      simp [hc]
    · rename_i hc
      simp [hback, hc]

/-- An escaped text starts with a character other than the backslash exactly if the text does and the character is not escaped. -/
theorem head?_escape_iff {c : Char} (hc : c ≠ '\\') (s : Text) :
    (escape delimiter s).head? = some c ↔ s.head? = some c ∧ c ≠ delimiter := by
  cases s with
  | nil => simp [escape]
  | cons b rest =>
    rw [escape, List.flatMap_cons, escapeChar_eq, List.head?_cons, Option.some.injEq]
    split
    · rename_i hescaped
      simp only [List.cons_append, List.head?_cons, Option.some.injEq, Ne.symm hc, false_iff]
      rintro ⟨rfl, hother⟩
      exact hescaped.elim hc hother
    · rename_i hplain
      simp only [List.cons_append, List.head?_cons, Option.some.injEq, iff_self_and]
      rintro rfl
      exact fun h => hplain (Or.inr h)

/-- Where no delimiter follows, a backslash is not taken for an escape of one. -/
theorem replaceFrom_backslash {rest : Text} (hr : rest.head? ≠ some delimiter) :
    Text.replaceFrom ['\\', delimiter] [delimiter] 0 ('\\' :: rest) =
      '\\' :: Text.replaceFrom ['\\', delimiter] [delimiter] 0 rest := by
  have hprefix : List.isPrefixOf ['\\', delimiter] ('\\' :: rest) = false := by
    cases rest with
    | nil => rfl
    | cons c rest =>
      have hc : delimiter ≠ c := fun h => hr (by rw [h]; rfl)
      simp [List.isPrefixOf, hc]
  rw [Text.replaceFrom, hprefix]
  rfl

/-- Once the escaped delimiters are taken for themselves, only the backslashes are still escaped. -/
theorem replaceAll_escape (hd : delimiter ≠ '\\') (s : Text) :
    Text.replaceAll ['\\', delimiter] [delimiter] (escape delimiter s) = escape '\\' s := by
  change Text.replaceFrom ['\\', delimiter] [delimiter] 0 (escape delimiter s) = _
  induction s with
  | nil => rfl
  | cons c rest ih =>
    have hrest : (escape delimiter rest).head? ≠ some delimiter := by
      intro h
      exact ((head?_escape_iff hd rest).1 h).2 rfl
    simp only [escape, List.flatMap_cons] at ih hrest ⊢
    by_cases hback : c = '\\'
    · subst hback
      -- neither the second backslash nor what follows it is a delimiter, so the pair stays a pair
      have hnext : ('\\' :: rest.flatMap (escapeChar delimiter)).head? ≠ some delimiter := by simpa using Ne.symm hd
      simp only [escapeChar, if_true, List.cons_append, List.nil_append]
      rw [replaceFrom_backslash hnext, replaceFrom_backslash hrest, ih]
    · have hne : '\\' ≠ c := Ne.symm hback
      by_cases hc : c = delimiter
      · subst hc
        simp [escapeChar, hback, Text.replaceFrom, ih]
      · simp [escapeChar, hback, hc, Text.replaceFrom, hne, ih]

/-- Escaped backslashes are taken for single ones. -/
theorem replaceAll_doubled (s : Text) : Text.replaceAll ['\\', '\\'] ['\\'] (escape '\\' s) = s := by
  change Text.replaceFrom ['\\', '\\'] ['\\'] 0 (escape '\\' s) = s
  induction s with
  | nil => rfl
  | cons c rest ih =>
    simp only [escape, List.flatMap_cons] at ih ⊢
    by_cases hback : c = '\\'
    · subst hback
      simp [escapeChar, Text.replaceFrom, ih]
    · have hne : '\\' ≠ c := Ne.symm hback
      simp [escapeChar, hback, Text.replaceFrom, hne, ih]

/-- Taking the escapes back gives the text that was escaped. -/
theorem unescape_escape (hd : delimiter ≠ '\\') (s : Text) : unescape delimiter (escape delimiter s) = s := by
  rw [unescape, replaceAll_escape hd, replaceAll_doubled]

/-- Neither delimiter is a backslash. -/
theorem ne_backslash (hd : delimiter = '/' ∨ delimiter = '?') : delimiter ≠ '\\' := by
  rcases hd with rfl | rfl <;> decide

/-! ## Searches without anchors -/

/-- An escaped text ends as the text does. -/
theorem getLast?_escape (delimiter : Char) (s : Text) : (escape delimiter s).getLast? = s.getLast? := by
  rcases List.eq_nil_or_concat s with rfl | ⟨front, c, rfl⟩
  · rfl
  · have hchar : (escapeChar delimiter c).getLast? = some c := by
      rw [escapeChar_eq]
      split <;> rfl
    simp [escape, List.getLast?_append, hchar]

/-- What stands between two delimiters. -/
theorem body?_enclosed (hd : delimiter = '/' ∨ delimiter = '?') (body : Text) :
    body? (delimiter :: (body ++ [delimiter])) = some (delimiter, body) := by
  simp [body?, hd]

/-- The search for an escaped text that neither starts with a caret nor ends with a dollar sign is read as the search for the text
anywhere in a line. -/
theorem ofCommand?_escape (hd : delimiter = '/' ∨ delimiter = '?') {s : Text} (hfirst : s.head? ≠ some '^')
    (hlast : s.getLast? ≠ some '$') :
    ofCommand? (delimiter :: (escape delimiter s ++ [delimiter])) = some ⟨s, false, false⟩ := by
  have hstart : (escape delimiter s).head? ≠ some '^' := by
    intro h
    exact hfirst ((head?_escape_iff (by decide) s).1 h).1
  have hend : Text.endsWith ['$'] (escape delimiter s) = false := by
    rw [Bool.eq_false_iff]
    intro h
    obtain ⟨front, hfront⟩ := List.isSuffixOf_iff_suffix.1 h
    rw [← getLast?_escape delimiter s, ← hfront] at hlast
    exact hlast (by simp)
  simp [ofCommand?, body?_enclosed hd, hstart, hend, unescape_escape (ne_backslash hd)]

/-- Taking back the escaped delimiters and then the doubled backslashes gives the text that was escaped, for each of the two
delimiters. So the search for a text that neither starts with a caret nor ends with a dollar sign accepts exactly the lines that hold
the text. -/
theorem ofCommand?_escape_accepts (hd : delimiter = '/' ∨ delimiter = '?') (s : Text) :
    unescape delimiter (escape delimiter s) = s ∧
      (s.head? ≠ some '^' → s.getLast? ≠ some '$' →
        ∃ pattern, ofCommand? (delimiter :: (escape delimiter s ++ [delimiter])) = some pattern ∧
          ∀ line, pattern.accepts line = true ↔ s <:+: line) := by
  refine ⟨unescape_escape (ne_backslash hd) s, ?_⟩
  intro hfirst hlast
  refine ⟨_, ofCommand?_escape hd hfirst hlast, ?_⟩
  intro line
  exact Text.occursIn_iff_infix

/-- A text with two backslashes in front of a slash and one at its end. -/
def slashedText : Text := "x\\\\/\\".toList

/-- Five backslashes stand in front of the slash in the search for that text. It accepts a line that holds the text, and not one in
which a single backslash stands in front of the slash. -/
theorem ofCommand?_escape_accepts_slashed :
    slashedText.head? ≠ some '^' ∧ slashedText.getLast? ≠ some '$' ∧
      escape '/' slashedText = "x\\\\\\\\\\/\\\\".toList ∧
      ∃ pattern, ofCommand? "/x\\\\\\\\\\/\\\\/".toList = some pattern ∧
        pattern.accepts "a x\\\\/\\ b".toList = true ∧ pattern.accepts "a x\\/\\ b".toList = false := by
  have hfirst : slashedText.head? ≠ some '^' := by decide
  have hlast : slashedText.getLast? ≠ some '$' := by decide
  have hescaped : escape '/' slashedText = "x\\\\\\\\\\/\\\\".toList := by decide
  obtain ⟨-, hsearch⟩ := ofCommand?_escape_accepts (Or.inl rfl : '/' = '/' ∨ '/' = '?') slashedText
  obtain ⟨pattern, hpattern, haccepts⟩ := hsearch hfirst hlast
  rw [hescaped] at hpattern
  refine ⟨hfirst, hlast, hescaped, pattern, hpattern, (haccepts _).2 ⟨"a ".toList, " b".toList, rfl⟩, ?_⟩
  rw [Bool.eq_false_iff, Ne, haccepts, ← Text.occursIn_iff_infix]
  decide

end SymbolSearch.Tags.SearchPattern
