import SymbolSearch.Proofs.Tags.Escaping
import SymbolSearch.Proofs.Tags.Reading

/-!
# Searches for whole lines

A tags file names a line by a search that holds the whole line, escaped, between a caret and a dollar sign (`wholeLine`). Reading the
search gives the line back (`ofCommand?_wholeLine`), and it finds the first line of that text. The one exception is a line that ends
with a backslash: the backslash is taken to escape the dollar sign, and the search looks for another text (`find_wholeLine`).
-/

namespace SymbolSearch.Tags

namespace SearchPattern

variable {delimiter : Char} {line : Text}

/-- The search for a whole line. -/
def wholeLine (delimiter : Char) (line : Text) : Text :=
  delimiter :: '^' :: escape delimiter line ++ ['$', delimiter]

/-! ## Reading the search -/

/-- A text with a dollar sign behind it ends with an escaped dollar sign exactly if the text ends with a backslash. -/
theorem endsWith_backslash_dollar (s : Text) :
    Text.endsWith ['\\', '$'] (s ++ ['$']) = true ↔ s.getLast? = some '\\' := by
  rw [Text.endsWith, List.isSuffixOf_iff_suffix, List.getLast?_eq_some_iff]
  constructor
  · rintro ⟨front, hfront⟩
    refine ⟨front, ?_⟩
    have hsplit : (front ++ ['\\']) ++ ['$'] = s ++ ['$'] := by rw [← hfront, List.append_assoc]; rfl
    exact (List.append_cancel_right hsplit).symm
  · rintro ⟨front, rfl⟩
    exact ⟨front, by rw [List.append_assoc]; rfl⟩

/-- What stands between the delimiters of a search for a whole line. -/
theorem body?_wholeLine (hd : delimiter = '/' ∨ delimiter = '?') (line : Text) :
    body? (wholeLine delimiter line) = some (delimiter, '^' :: (escape delimiter line ++ ['$'])) := by
  have hwhole : wholeLine delimiter line = delimiter :: ('^' :: (escape delimiter line ++ ['$']) ++ [delimiter]) := by
    simp [wholeLine]
  rw [hwhole, body?_enclosed hd]

/-- What a search for a whole line is read as: as the search for just this line, unless the line ends with a backslash. Then the
dollar sign behind it is taken for a part of the text. -/
theorem ofCommand?_wholeLine (hd : delimiter = '/' ∨ delimiter = '?') (line : Text) :
    ofCommand? (wholeLine delimiter line) =
      some (if line.getLast? = some '\\' then ⟨line ++ ['$'], true, false⟩ else ⟨line, true, true⟩) := by
  have hne := ne_backslash hd
  have hends : Text.endsWith ['$'] (escape delimiter line ++ ['$']) = true :=
    List.isSuffixOf_iff_suffix.2 (List.suffix_append _ _)
  have hescaped := endsWith_backslash_dollar (escape delimiter line)
  rw [getLast?_escape] at hescaped
  have hdollar : escape delimiter (line ++ ['$']) = escape delimiter line ++ ['$'] := by
    have hplain : '$' ≠ delimiter := by rcases hd with rfl | rfl <;> decide
    simp [escape, escapeChar, hplain]
  simp only [ofCommand?, body?_wholeLine hd, List.head?_cons, List.tail_cons, if_true, decide_true, hends, Bool.true_and]
  by_cases hlast : line.getLast? = some '\\'
  · rw [if_pos hlast, hescaped.2 hlast, ← hdollar]
    simp only [Bool.not_true, Bool.false_eq_true, if_false, unescape_escape hne]
  · have hplain : Text.endsWith ['\\', '$'] (escape delimiter line ++ ['$']) = false :=
      Bool.eq_false_iff.2 fun h => hlast (hescaped.1 h)
    rw [if_neg hlast, hplain]
    simp only [Bool.not_false, if_true, List.dropLast_concat, unescape_escape hne]

end SearchPattern

/-! ## What the search finds -/

variable {readText : ReadText} {finder : LineFinder} {path text line : Text} {delimiter : Char}

/-- The search for a whole line of a file finds the first line with just this text, if the text does not end with a backslash. If
it does, the search finds the first line that starts with the text and a dollar sign, and so never the line itself. -/
theorem find_wholeLine (hf : finder.Recalls (.reading readText)) (hread : readText path = .ok text) (hline : line ∈ text.lines)
    (hd : delimiter = '/' ∨ delimiter = '?') :
    ∃ found after, finder.find readText path (SearchPattern.wholeLine delimiter line) = .ok (found, after) ∧
      (line.getLast? ≠ some '\\' → found = some (text.lines.idxOf line + 1)) ∧
      (line.getLast? = some '\\' →
        found = (text.lines.findIdx? (fun other => (line ++ ['$']).isPrefixOf other)).map (· + 1) ∧
          ∀ n, found = some (n + 1) → text.lines[n]? ≠ some line) := by
  have hp : ∀ fault, ¬Resolving.Refuses (.reading readText) path fault := by
    rintro fault ⟨hrefused, -⟩
    rw [hread] at hrefused
    cases hrefused
  have hlines : Resolving.lines? (.reading readText) path = some text.lines := by
    rw [Resolving.lines?, hread]
    rfl
  obtain ⟨after, hfind, -⟩ := hf.find_eq hp (SearchPattern.wholeLine delimiter line)
  rw [SearchPattern.ofCommand?_wholeLine hd, hlines, Option.bind_some, Option.bind_some] at hfind
  refine ⟨_, after, hfind, ?_, ?_⟩
  · intro hlast
    have hindex : text.lines.findIdx? (fun other => decide (other = line)) = some (text.lines.idxOf line) := by
      rw [List.findIdx?_eq_some_iff_findIdx_eq]
      refine ⟨List.idxOf_lt_length_of_mem hline, ?_⟩
      simp only [List.idxOf, beq_eq_decide]
    rw [if_neg hlast]
    exact congrArg (Option.map (· + 1)) hindex
  · intro hlast
    rw [if_pos hlast]
    refine ⟨rfl, ?_⟩
    intro n hn hsame
    obtain ⟨m, hm, hmn⟩ := Option.map_eq_some_iff.1 hn
    obtain rfl : m = n := Nat.succ.inj hmn
    obtain ⟨hbound, hprefix, -⟩ := List.findIdx?_eq_some_iff_getElem.1 hm
    rw [List.getElem?_eq_getElem hbound, Option.some.injEq] at hsame
    rw [hsame] at hprefix
    -- the line would have to hold itself and a dollar sign
    have hlength := (List.isPrefixOf_iff_prefix.1 hprefix).length_le
    rw [List.length_append] at hlength
    exact Nat.not_succ_le_self _ hlength

/-- A source file with a macro that goes on on the next line. -/
def continuedSource : Text :=
  "#define A \\\n  1\n".toList

/-- Every path leads to that file. -/
def continuedReader : ReadText :=
  fun _ => .ok continuedSource

set_option maxRecDepth 4000 in
/-- The first line of the macro ends with a backslash, and the search that a tags file names it by finds no line at all. -/
theorem find_wholeLine_continued :
    LineFinder.fresh.Recalls (.reading continuedReader) ∧ continuedReader "/a.c".toList = .ok continuedSource ∧
      "#define A \\".toList ∈ continuedSource.lines ∧
      SearchPattern.wholeLine '/' "#define A \\".toList = "/^#define A \\\\$/".toList ∧
      ∃ after, LineFinder.fresh.find continuedReader "/a.c".toList "/^#define A \\\\$/".toList = .ok (none, after) := by
  have hf := LineFinder.recalls_fresh (.reading continuedReader)
  have hread : continuedReader "/a.c".toList = .ok continuedSource := rfl
  have hlines : continuedSource.lines = ["#define A \\".toList, "  1".toList] := by cbv
  have hline : "#define A \\".toList ∈ continuedSource.lines := by
    rw [hlines]
    exact List.mem_cons_self
  have hcommand : SearchPattern.wholeLine '/' "#define A \\".toList = "/^#define A \\\\$/".toList := by cbv
  obtain ⟨found, after, hfind, -, hlast⟩ := find_wholeLine hf hread hline (Or.inl rfl)
  obtain ⟨hfound, -⟩ := hlast (by cbv)
  rw [hlines, show List.findIdx? _ _ = none from by cbv] at hfound
  rw [hcommand, hfound] at hfind
  exact ⟨hf, hread, hline, hcommand, after, hfind⟩

end SymbolSearch.Tags
