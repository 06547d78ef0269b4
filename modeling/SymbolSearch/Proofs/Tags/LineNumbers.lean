import Mathlib
import SymbolSearch.Proofs.Tags.Reading

/-!
# Line numbers and line feeds

A search pattern is looked for among lines that are cut at line breaks of any script, while definitions are numbered by line feeds
only. So the number that a search finds is the number by line feeds plus the number of other line breaks in front of the line
(`find_counts_breaks`), and a form feed at the top of a file moves every line below it by one. Where no other break stands in
front of the end of the line, both ways to count agree.
-/

namespace SymbolSearch

namespace Text

variable {p q : Char → Bool} {s front line back : Text} {k : Nat}

/-! ## Where a line stands -/

/-- The line stands in the text between `front` and `back`: no character of the class is in it, one stands in front of it unless it
is the first line, and one behind it unless it is the last. -/
structure IsLineAt (p : Char → Bool) (s front line back : Text) : Prop where
  whole : s = front ++ line ++ back
  starts : ∀ c, front.getLast? = some c → p c = true
  unbroken : ∀ c ∈ line, p c = false
  ends : ∀ c, back.head? = some c → p c = true

/-- In front of the first line stands nothing. -/
theorem IsLineAt.front_eq_nil (h : IsLineAt p s front line back) (hk : front.countP p = 0) : front = [] := by
  rcases List.eq_nil_or_concat front with hf | ⟨before, c, hf⟩
  · exact hf
  · rw [List.concat_eq_append] at hf
    have hc : p c = true := h.starts c (by simp [hf])
    rw [hf, List.countP_append, List.countP_singleton, if_pos hc] at hk
    omega

/-- One more character in front of a line that is not the first. -/
theorem IsLineAt.cons (h : IsLineAt p s front line back) (c : Char) (hf : front ≠ [] ∨ p c = true) :
    IsLineAt p (c :: s) (c :: front) line back := by
  refine ⟨?_, ?_, h.unbroken, h.ends⟩
  · simp [h.whole]
  · intro d hd
    cases front with
    | nil =>
      cases hd
      simpa using hf
    | cons e front => exact h.starts d (by simpa using hd)

/-- Each part of a text stands between separators, with as many separators in front of it as parts. -/
theorem isLineAt_of_splitOnP (h : (s.splitOnP p)[k]? = some line) :
    ∃ front back, IsLineAt p s front line back ∧ front.countP p = k := by
  induction s generalizing k line with
  | nil =>
    rw [List.splitOnP_nil] at h
    cases k with
    | zero =>
      cases h
      exact ⟨[], [], ⟨rfl, by simp, by simp, by simp⟩, rfl⟩
    | succ k => cases h
  | cons c rest ih =>
    rw [List.splitOnP_cons_eq_if_modifyHead] at h
    by_cases hc : p c = true
    · rw [if_pos hc] at h
      cases k with
      | zero =>
        cases h
        refine ⟨[], c :: rest, ⟨rfl, by simp, by simp, ?_⟩, rfl⟩
        intro d hd
        cases hd
        exact hc
      | succ k =>
        obtain ⟨front, back, hline, hcount⟩ := ih h
        exact ⟨c :: front, back, hline.cons c (Or.inr hc), by simp [hc, hcount]⟩
    · rw [if_neg hc] at h
      obtain ⟨first, others, hparts⟩ := List.exists_cons_of_ne_nil (List.splitOnP_ne_nil p rest)
      rw [hparts, List.modifyHead_cons] at h
      cases k with
      | zero =>
        -- the character belongs to the first line
        cases h
        have hfirst : (rest.splitOnP p)[0]? = some first := by
          rw [hparts]
          rfl
        obtain ⟨front, back, hline, hcount⟩ := ih hfirst
        obtain rfl := hline.front_eq_nil hcount
        refine ⟨[], back, ⟨by simp [hline.whole], by simp, ?_, hline.ends⟩, rfl⟩
        intro d hd
        rcases List.mem_cons.1 hd with rfl | hd
        · simpa using hc
        · exact hline.unbroken d hd
      | succ k =>
        have hlater : (rest.splitOnP p)[k + 1]? = some line := by
          rw [hparts]
          exact h
        obtain ⟨front, back, hline, hcount⟩ := ih hlater
        have hne : front ≠ [] := by
          rintro rfl
          simp at hcount
        exact ⟨c :: front, back, hline.cons c (Or.inl hne), by simp [hc, hcount]⟩

/-! ## Lines cut at breaks of any script -/

/-- In a text without carriage returns a line is a part between breaks; only an empty last part is no line. -/
theorem cutLines_eq (h : '\r' ∉ s) (line : Text) :
    cutLines isLineBreak (· = '\r') (· = '\n') line false s <+: (s.splitOnP isLineBreak).modifyHead (line.reverse ++ ·) := by
  induction s generalizing line with
  | nil =>
    rw [cutLines, List.splitOnP_nil]
    split
    · exact List.nil_prefix
    · simp
  | cons c rest ih =>
    rw [List.mem_cons, not_or] at h
    rw [cutLines, List.splitOnP_cons_eq_if_modifyHead]
    simp only [Bool.false_and, Bool.false_eq_true, if_false]
    by_cases hc : isLineBreak c = true
    · have hreturn : decide (c = '\r') = false := by simpa using Ne.symm h.1
      rw [if_pos hc, if_pos hc, hreturn, List.modifyHead_cons, List.append_nil, List.prefix_cons_inj]
      have hrest := ih h.2 []
      obtain ⟨first, others, hparts⟩ := List.exists_cons_of_ne_nil (List.splitOnP_ne_nil isLineBreak rest)
      rw [hparts] at hrest ⊢
      exact hrest
    · rw [if_neg hc, if_neg hc]
      have hrest := ih h.2 (c :: line)
      obtain ⟨first, others, hparts⟩ := List.exists_cons_of_ne_nil (List.splitOnP_ne_nil isLineBreak rest)
      rw [hparts] at hrest ⊢
      simpa using hrest

/-- The lines of a text without carriage returns are the parts between its breaks, up to an empty last one. -/
theorem lines_prefix (h : '\r' ∉ s) : s.lines <+: s.splitOnP isLineBreak := by
  have hcut := cutLines_eq h []
  obtain ⟨first, others, hparts⟩ := List.exists_cons_of_ne_nil (List.splitOnP_ne_nil isLineBreak s)
  rw [hparts] at hcut ⊢
  exact hcut

/-! ## Two ways to count -/

/-- The breaks in a text are its line feeds and the others. -/
theorem countP_isLineBreak (s : Text) :
    s.countP isLineBreak = s.count '\n' + s.countP (fun c => isLineBreak c && c != '\n') := by
  have hfeed : isLineBreak '\n' = true := by decide
  induction s with
  | nil => rfl
  | cons c rest ih =>
    by_cases hc : c = '\n'
    · subst hc
      simp [hfeed, ih]
      omega
    · by_cases hb : isLineBreak c = true
      · simp [hc, hb, ih]
        omega
      · simp [hc, hb, ih]

/-- There is one part more than there are separators. -/
theorem length_splitOnP (p : Char → Bool) (s : Text) : (s.splitOnP p).length = s.countP p + 1 := by
  induction s with
  | nil => simp
  | cons c rest ih =>
    rw [List.splitOnP_cons_eq_if_modifyHead]
    by_cases hc : p c = true
    · simp [hc, ih]
    · simp [hc, ih]

/-- Only the characters of a text decide where it is cut. -/
theorem splitOnP_congr (h : ∀ c ∈ s, p c = q c) : s.splitOnP p = s.splitOnP q := by
  induction s with
  | nil => rw [List.splitOnP_nil, List.splitOnP_nil]
  | cons c rest ih =>
    rw [List.splitOnP_cons_eq_if_modifyHead, List.splitOnP_cons_eq_if_modifyHead, h c (by simp),
      ih fun d hd => h d (List.mem_cons_of_mem _ hd)]

/-- The first part of a text ends at the first separator. -/
theorem take_one_splitOnP (hl : ∀ c ∈ line, p c = false) (hb : ∀ c, back.head? = some c → p c = true) :
    ((line ++ back).splitOnP p).take 1 = [line] := by
  have hsingle : line.splitOnP p = [line] := List.splitOnP_eq_singleton fun c hc => by simp [hl c hc]
  cases back with
  | nil => simp [hsingle]
  | cons c after => simp [List.splitOnP_append_cons line after (hb c rfl), hsingle]

/-- Where two classes agree up to the end of a line and on the character behind it, the parts up to this line are the same. -/
theorem IsLineAt.take_splitOnP (h : IsLineAt p s front line back) (hf : ∀ c ∈ front, p c = q c) (hl : ∀ c ∈ line, q c = false)
    (hb : ∀ c, back.head? = some c → q c = true) :
    (s.splitOnP q).take (front.countP p + 1) = (s.splitOnP p).take (front.countP p + 1) := by
  obtain ⟨rfl, hstarts, hline, hends⟩ := h
  rcases List.eq_nil_or_concat front with rfl | ⟨before, c, rfl⟩
  · simp only [List.nil_append, List.countP_nil, Nat.zero_add]
    rw [take_one_splitOnP hl hb, take_one_splitOnP hline hends]
  · rw [List.concat_eq_append] at hf hstarts ⊢
    have hpc : p c = true := hstarts c (by simp)
    have hqc : q c = true := by rw [← hf c (by simp), hpc]
    have hsame : before.splitOnP q = before.splitOnP p :=
      splitOnP_congr fun d hd => (hf d (List.mem_append_left _ hd)).symm
    have hlength : (before ++ [c]).countP p = (before.splitOnP p).length := by
      rw [length_splitOnP, List.countP_append, List.countP_singleton, if_pos hpc]
    have hsplit : before ++ [c] ++ line ++ back = before ++ c :: (line ++ back) := by simp
    rw [hsplit, List.splitOnP_append_cons _ _ hpc, List.splitOnP_append_cons _ _ hqc, hsame, hlength,
      List.take_length_add_append, List.take_length_add_append, take_one_splitOnP hl hb, take_one_splitOnP hline hends]

/-- Where no other break stands in front of the end of a line, the parts between line feeds up to it are those between breaks. -/
theorem IsLineAt.take_splitOnP_feeds (h : IsLineAt isLineBreak s front line back)
    (honly : ∀ c ∈ front ++ back.take 1, isLineBreak c = true → c = '\n') :
    (s.splitOn '\n').take (front.countP isLineBreak + 1) = (s.splitOnP isLineBreak).take (front.countP isLineBreak + 1) := by
  have hfeed : ∀ c ∈ front ++ back.take 1, isLineBreak c = (c == '\n') := by
    intro c hc
    by_cases hb : isLineBreak c = true
    · rw [honly c hc hb]
      decide
    · have hne : c ≠ '\n' := by
        rintro rfl
        exact hb (by decide)
      simp [hb, hne]
  rw [splitOn_eq, List.splitOn]
  refine h.take_splitOnP (fun c hc => hfeed c (List.mem_append_left _ hc)) ?_ ?_
  · intro c hc
    have hnone := h.unbroken c hc
    rw [beq_eq_false_iff_ne]
    rintro rfl
    revert hnone
    decide
  · intro c hc
    have hmem : c ∈ back.take 1 := by
      cases back with
      | nil => cases hc
      | cons d rest =>
        cases hc
        simp
    rw [← hfeed c (List.mem_append_right _ hmem), h.ends c hc]

end Text

/-! ## What a search counts -/

namespace Tags

variable {readText : ReadText} {finder : LineFinder} {path text : Text} {pattern : SearchPattern} {n : Nat}

/-- The first line that satisfies a pattern: where it stands, and that no line before it does. -/
theorem SearchPattern.of_firstLine? {lines : List Text} (h : pattern.firstLine? lines = some n) :
    ∃ k line, n = k + 1 ∧ lines[k]? = some line ∧ pattern.accepts line = true ∧
      ∀ j < k, ∀ other, lines[j]? = some other → pattern.accepts other = false := by
  obtain ⟨k, hk, rfl⟩ := Option.map_eq_some_iff.1 h
  obtain ⟨hlt, haccepts, hbefore⟩ := List.findIdx?_eq_some_iff_getElem.1 hk
  refine ⟨k, lines[k], rfl, List.getElem?_eq_getElem hlt, haccepts, ?_⟩
  intro j hj other hother
  rw [List.getElem?_eq_getElem (by omega), Option.some.injEq] at hother
  rw [← hother]
  simpa using hbefore j hj

/-- The number that a search finds in a file without carriage returns. It is that of a line that satisfies the pattern, and no line
before it does; but lines end at breaks of any script, so the number is by as much too great for one by line feeds as there are
other breaks in front of the line. Only where up to the end of the line there is no other break is it the first of the lines
between line feeds that satisfies the pattern. -/
theorem find_counts_breaks (hf : finder.Recalls (.reading readText)) (hread : readText path = .ok text) (hr : '\r' ∉ text)
    (command : Text) :
    ∃ found after, finder.find readText path command = .ok (found, after) ∧
      ∀ n, found = some n → ∃ pattern front line back, SearchPattern.ofCommand? command = some pattern ∧
        Text.IsLineAt Text.isLineBreak text front line back ∧ pattern.accepts line = true ∧
        (∀ j, j + 1 < n → ∀ other, text.lines[j]? = some other → pattern.accepts other = false) ∧
        n = Text.lineAfter front + front.countP (fun c => Text.isLineBreak c && c != '\n') ∧
        ((∀ c ∈ front ++ back.take 1, Text.isLineBreak c = true → c = '\n') →
          (text.splitOn '\n')[n - 1]? = some line ∧
            ∀ j, j + 1 < n → ∀ other, (text.splitOn '\n')[j]? = some other → pattern.accepts other = false) := by
  have hp : ∀ fault, ¬Resolving.Refuses (.reading readText) path fault := by
    rintro fault ⟨hrefused, -⟩
    rw [hread] at hrefused
    cases hrefused
  have hlines : Resolving.lines? (.reading readText) path = some text.lines := by
    rw [Resolving.lines?, hread]
    rfl
  obtain ⟨after, hfind, -⟩ := hf.find_eq hp command
  rw [hlines] at hfind
  refine ⟨_, after, hfind, ?_⟩
  intro n hn
  obtain ⟨pattern, hpattern, hfirst⟩ := Option.bind_eq_some_iff.1 hn
  obtain ⟨k, line, rfl, hline, haccepts, hbefore⟩ := SearchPattern.of_firstLine? hfirst
  obtain ⟨rest, hparts⟩ := Text.lines_prefix hr
  have hbound : k < text.lines.length := (List.getElem?_eq_some_iff.1 hline).1
  have hpart : ∀ j < k + 1, (text.splitOnP Text.isLineBreak)[j]? = text.lines[j]? := by
    intro j hj
    rw [← hparts, List.getElem?_append_left (by omega)]
  obtain ⟨front, back, hat, hcount⟩ := Text.isLineAt_of_splitOnP ((hpart k (by omega)).trans hline)
  refine ⟨pattern, front, line, back, hpattern, hat, haccepts, ?_, ?_, ?_⟩
  · intro j hj
    exact hbefore j (by omega)
  · have hbreaks := Text.countP_isLineBreak front
    rw [Text.lineAfter]
    omega
  · intro honly
    have hsame : ∀ j < k + 1, (text.splitOn '\n')[j]? = text.lines[j]? := by
      intro j hj
      have htake := hat.take_splitOnP_feeds honly
      rw [hcount] at htake
      rw [← hpart j hj, ← List.getElem?_take_of_lt hj, htake, List.getElem?_take_of_lt hj]
    refine ⟨(hsame k (by omega)).trans hline, ?_⟩
    intro j hj other hother
    exact hbefore j (by omega) other ((hsame j (by omega)).symm.trans hother)

/-- A source file with a form feed on a line of its own in front of a function. -/
def pagedSource : Text :=
  "\x0c\nint f(void)\n".toList

/-- Every path leads to that file. -/
def pagedReader : ReadText :=
  fun _ => .ok pagedSource

set_option maxRecDepth 4000 in
/-- The function stands on the second line by line feeds, and the search for it finds the third line. -/
theorem find_counts_breaks_paged :
    LineFinder.fresh.Recalls (.reading pagedReader) ∧ pagedReader "/a.c".toList = .ok pagedSource ∧ '\r' ∉ pagedSource ∧
      (∃ after, LineFinder.fresh.find pagedReader "/a.c".toList "/^int f(void)$/".toList = .ok (some 3, after)) ∧
      (pagedSource.splitOn '\n')[1]? = some "int f(void)".toList ∧
      ∃ front line back, Text.IsLineAt Text.isLineBreak pagedSource front line back ∧
        3 = Text.lineAfter front + front.countP (fun c => Text.isLineBreak c && c != '\n') := by
  have hf := LineFinder.recalls_fresh (.reading pagedReader)
  have hread : pagedReader "/a.c".toList = .ok pagedSource := rfl
  have hr : '\r' ∉ pagedSource := by decide
  have hthree : ∃ after, LineFinder.fresh.find pagedReader "/a.c".toList "/^int f(void)$/".toList = .ok (some 3, after) :=
    ⟨_, by cbv⟩
  obtain ⟨after, hthree⟩ := hthree
  obtain ⟨found, after', hfind, hfound⟩ := find_counts_breaks hf hread hr "/^int f(void)$/".toList
  rw [hthree] at hfind
  cases hfind
  obtain ⟨pattern, front, line, back, -, hat, -, -, hcount, -⟩ := hfound 3 rfl
  exact ⟨hf, hread, hr, ⟨after, hthree⟩, by cbv, front, line, back, hat, hcount⟩

end Tags

end SymbolSearch
