import Mathlib.Data.List.Basic
import Mathlib.Data.List.TakeWhile
import SymbolSearch.Text.Blank
import SymbolSearch.Text.Line

/-!
# Texts: what the operations say

Statements about `after?`, `indexOf?` and `occursIn`, about the two halves into which a class of characters cuts a text, and about
cutting a text at a separator and joining the parts again. The runs outside a class are cut at each character of it
(`words_append_cons`), and are found again once they are joined (`words_joinWith`). What depends neither on blanks in front of a text
nor on blanks behind it is found between the blanks (`apply_strip`).
-/

namespace SymbolSearch.Text

/-! ## Cutting at the end of a class -/

/-- Behind characters of a class and in front of one outside it, nothing more is dropped. -/
theorem dropWhile_append_stop {p : Char → Bool} {front rest : Text} (hf : ∀ d ∈ front, p d = true)
    (hr : ∀ c, rest.head? = some c → p c = false) : (front ++ rest).dropWhile p = rest := by
  rw [List.dropWhile_append_of_pos hf]
  cases rest with
  | nil => rfl
  | cons c rest => rw [List.dropWhile_cons_of_neg (by simp [hr c rfl])]

/-- Characters of a class are taken up to the first one outside it. -/
theorem takeWhile_append_stop {p : Char → Bool} {front rest : Text} (hf : ∀ d ∈ front, p d = true)
    (hr : ∀ c, rest.head? = some c → p c = false) : (front ++ rest).takeWhile p = front := by
  rw [List.takeWhile_append_of_pos hf]
  cases rest with
  | nil => rw [List.takeWhile_nil, List.append_nil]
  | cons c rest => rw [List.takeWhile_cons_of_neg (by simp [hr c rfl]), List.append_nil]

/-- What is left behind the characters of a class has those characters in front of it, and does not go on with one. -/
theorem eq_append_of_dropWhile {p : Char → Bool} {s rest : Text} (h : s.dropWhile p = rest) :
    ∃ front, s = front ++ rest ∧ (∀ d ∈ front, p d = true) ∧ ∀ c, rest.head? = some c → p c = false := by
  refine ⟨s.takeWhile p, by rw [← h, List.takeWhile_append_dropWhile], fun d hd => List.mem_takeWhile_imp hd, ?_⟩
  intro c hc
  subst h
  have := List.head?_dropWhile_not p s
  rw [hc] at this
  exact this

/-! ## Starts and occurrences -/

/-- What follows `front` is what is left of the text once `front` is taken off. -/
theorem after?_eq_some_iff {front s rest : Text} : after? front s = some rest ↔ s = front ++ rest := by
  induction front generalizing s with
  | nil => simp [after?]
  | cons c front ih =>
    cases s with
    | nil => simp [after?]
    | cons d s =>
      by_cases hcd : c = d
      · subst hcd
        simp [after?, ih]
      · simp [after?, hcd, Ne.symm hcd]

/-- The index found for a text is that of an occurrence, and no occurrence comes before it. -/
theorem indexOf?_eq_some {needle s : Text} {k : Nat} (h : indexOf? needle s = some k) :
    (∃ back, s = s.take k ++ needle ++ back) ∧ ∀ front back, s = front ++ needle ++ back → k ≤ front.length := by
  induction s generalizing k with
  | nil =>
    have hn : needle = [] := by
      by_contra hn
      simp [indexOf?, hn] at h
    subst hn
    simp only [indexOf?, List.isEmpty_nil, if_true, Option.some.injEq] at h
    subst h
    exact ⟨⟨[], rfl⟩, fun front back _ => Nat.zero_le _⟩
  | cons c rest ih =>
    simp only [indexOf?] at h
    split at h
    · rename_i hp
      cases h
      obtain ⟨back, hb⟩ := List.isPrefixOf_iff_prefix.1 hp
      exact ⟨⟨back, by rw [List.take_zero, List.nil_append, hb]⟩, fun front back _ => Nat.zero_le _⟩
    · rename_i hp
      obtain ⟨j, hj, rfl⟩ := Option.map_eq_some_iff.1 h
      obtain ⟨⟨back, hback⟩, hleast⟩ := ih hj
      refine ⟨⟨back, ?_⟩, ?_⟩
      · simpa using hback
      · intro front back' he
        cases front with
        | nil => exact absurd (List.isPrefixOf_iff_prefix.2 ⟨back', he.symm⟩) hp
        | cons d front =>
          simp only [List.cons_append, List.cons.injEq] at he
          have := hleast front back' he.2
          simpa using this

/-- A text that stands in another one is found there. -/
theorem exists_indexOf? (front needle back : Text) : ∃ k, indexOf? needle (front ++ needle ++ back) = some k := by
  induction front with
  | nil =>
    cases needle with
    | nil => cases back <;> simp [indexOf?]
    | cons c needle => exact ⟨0, by simp [indexOf?, List.isPrefixOf_iff_prefix]⟩
  | cons c front ih =>
    obtain ⟨k, hk⟩ := ih
    simp only [List.cons_append, indexOf?]
    split
    · exact ⟨0, rfl⟩
    · exact ⟨k + 1, by rw [hk, Option.map_some]⟩

/-- A text stands in another one where that one is cut into something, the text and something. -/
theorem occursIn_iff_infix {needle s : Text} : occursIn needle s = true ↔ needle <:+: s := by
  induction s with
  | nil => simp [occursIn]
  | cons c rest ih => rw [occursIn, Bool.or_eq_true, List.isPrefixOf_iff_prefix, ih, List.infix_cons_iff]

/-! ## Parts and separators -/

/-- Cutting at a separator is what the library calls so. -/
theorem splitOn_eq (sep : Char) (s : Text) : splitOn sep s = List.splitOn sep s := by
  induction s with
  | nil => rw [splitOn, List.splitOn_nil]
  | cons c rest ih =>
    rw [splitOn, ih, List.splitOn_cons_eq_if_modifyHead]
    by_cases h : c = sep
    · simp [h]
    · obtain ⟨part, parts, hparts⟩ := List.exists_cons_of_ne_nil (List.splitOn_ne_nil sep rest)
      simp [h, hparts]

/-- Joining parts is what the library calls so. -/
theorem joinWith_eq (sep : Text) (parts : List Text) : joinWith sep parts = sep.intercalate parts := by
  fun_induction joinWith sep parts with
  | case1 => rw [List.intercalate_nil]
  | case2 part => rw [List.intercalate_singleton]
  | case3 part parts hne ih => rw [ih, List.intercalate_cons_of_ne_nil hne]

/-- A separator stands between the first part and the others. -/
theorem joinWith_cons {sep part : Text} {parts : List Text} (h : parts ≠ []) :
    joinWith sep (part :: parts) = part ++ sep ++ joinWith sep parts := by
  rw [joinWith_eq, joinWith_eq, List.intercalate_cons_of_ne_nil h]

/-- There is always a part. -/
theorem splitOn_ne_nil (sep : Char) (s : Text) : splitOn sep s ≠ [] := by
  rw [splitOn_eq]
  exact List.splitOn_ne_nil sep s

/-- The parts of a text, joined again, are the text. -/
theorem joinWith_splitOn (sep : Char) (s : Text) : joinWith [sep] (splitOn sep s) = s := by
  rw [splitOn_eq, joinWith_eq, List.intercalate_splitOn]

/-- Parts in which the separator does not stand are found again once they are joined. -/
theorem splitOn_joinWith {sep : Char} {parts : List Text} (hne : parts ≠ []) (hsep : ∀ part ∈ parts, sep ∉ part) :
    splitOn sep (joinWith [sep] parts) = parts := by
  rw [splitOn_eq, joinWith_eq, List.splitOn_intercalate sep hsep hne]

/-- The separator stands in no part. -/
theorem not_mem_of_mem_splitOn {sep : Char} {s part : Text} (h : part ∈ splitOn sep s) : sep ∉ part := by
  induction s generalizing part with
  | nil =>
    rw [splitOn, List.mem_singleton] at h
    rw [h]
    exact List.not_mem_nil
  | cons c rest ih =>
    obtain ⟨first, parts, hparts⟩ := List.exists_cons_of_ne_nil (splitOn_ne_nil sep rest)
    rw [splitOn, hparts] at h
    split at h
    · rcases List.mem_cons.1 h with rfl | h
      · exact List.not_mem_nil
      · exact ih (hparts ▸ h)
    · rename_i hc
      rcases List.mem_cons.1 h with rfl | h
      · have hfirst : sep ∉ first := ih (by rw [hparts]; exact List.mem_cons_self)
        rw [List.mem_cons, not_or]
        exact ⟨Ne.symm hc, hfirst⟩
      · exact ih (by rw [hparts]; exact List.mem_cons_of_mem _ h)

/-- Each part stands in the whole. -/
theorem infix_joinWith {sep part : Text} {parts : List Text} (h : part ∈ parts) : part <:+: joinWith sep parts := by
  fun_induction joinWith sep parts with
  | case1 => cases h
  | case2 only =>
    obtain rfl := List.mem_singleton.1 h
    exact List.infix_rfl
  | case3 first parts hne ih =>
    rcases List.mem_cons.1 h with rfl | h
    · rw [List.append_assoc]
      exact List.infix_append_left
    · exact (ih h).trans List.infix_append_right

/-- Each part of a text stands in it. -/
theorem infix_of_mem_splitOn {sep : Char} {s part : Text} (h : part ∈ splitOn sep s) : part <:+: s := by
  have hjoined : part <:+: joinWith [sep] (splitOn sep s) := infix_joinWith h
  rw [joinWith_splitOn] at hjoined
  exact hjoined

/-- Each character of the whole comes from a part or from a separator. -/
theorem of_mem_joinWith {sep : Text} {parts : List Text} {c : Char} (h : c ∈ joinWith sep parts) :
    c ∈ sep ∨ ∃ part ∈ parts, c ∈ part := by
  fun_induction joinWith sep parts with
  | case1 => cases h
  | case2 only => exact Or.inr ⟨only, List.mem_singleton_self _, h⟩
  | case3 first parts hne ih =>
    rcases List.mem_append.1 h with h | h
    · rcases List.mem_append.1 h with h | h
      · exact Or.inr ⟨first, List.mem_cons_self, h⟩
      · exact Or.inl h
    · rcases ih h with h | ⟨part, hp, hc⟩
      · exact Or.inl h
      · exact Or.inr ⟨part, List.mem_cons_of_mem _ hp, hc⟩

/-- The whole starts as the first part does. -/
theorem head?_joinWith_cons (sep : Text) {part : Text} (hne : part ≠ []) (parts : List Text) :
    (joinWith sep (part :: parts)).head? = part.head? := by
  obtain ⟨c, rest, rfl⟩ := List.exists_cons_of_ne_nil hne
  cases parts with
  | nil => rfl
  | cons next parts => rfl

/-- The whole is not empty if the first part is not. -/
theorem joinWith_ne_nil (sep : Text) {part : Text} (hne : part ≠ []) (parts : List Text) : joinWith sep (part :: parts) ≠ [] := by
  intro h
  have hhead := head?_joinWith_cons sep hne parts
  rw [h] at hhead
  exact hne (List.head?_eq_none_iff.1 hhead.symm)

/-- Parts of which none is empty and none holds a character of a class do not end with one once they are joined. -/
theorem of_getLast?_joinWith {p : Char → Bool} {sep : Text} {parts : List Text}
    (h : ∀ part ∈ parts, part ≠ [] ∧ ∀ c ∈ part, p c = false) {c : Char} (hc : (joinWith sep parts).getLast? = some c) :
    p c = false := by
  induction parts with
  | nil => cases hc
  | cons part parts ih =>
    by_cases hne : parts = []
    · subst hne
      exact (h part List.mem_cons_self).2 c (List.mem_of_getLast? hc)
    · obtain ⟨next, others, rfl⟩ := List.exists_cons_of_ne_nil hne
      have hjoined := joinWith_ne_nil sep (h next (by simp)).1 others
      rw [joinWith_cons hne, List.getLast?_append_of_ne_nil _ hjoined] at hc
      exact ih (fun other hother => h other (List.mem_cons_of_mem _ hother)) hc

/-! ## Trimming and words -/

/-- Nothing is dropped from a text that does not start with a character of the class. -/
theorem dropWhile_eq_self {p : Char → Bool} {s : Text} (h : ∀ c, s.head? = some c → p c = false) : s.dropWhile p = s := by
  cases s with
  | nil => rfl
  | cons c rest => rw [List.dropWhile_cons_of_neg (by simp [h c rfl])]

/-- A run is not longer for what stops it behind the text. -/
theorem takeWhile_append_of_stop {p : Char → Bool} {back : Text} (s : Text) (h : ∀ c, back.head? = some c → p c = false) :
    (s ++ back).takeWhile p = s.takeWhile p := by
  induction s with
  | nil => exact takeWhile_append_stop (fun d hd => absurd hd List.not_mem_nil) h
  | cons c s ih =>
    by_cases hc : p c = true
    · rw [List.cons_append, List.takeWhile_cons_of_pos hc, List.takeWhile_cons_of_pos hc, ih]
    · rw [List.cons_append, List.takeWhile_cons_of_neg hc, List.takeWhile_cons_of_neg hc]

/-- What stops a run behind the text is left together with the rest of the text. -/
theorem dropWhile_append_of_stop {p : Char → Bool} {back : Text} (s : Text) (h : ∀ c, back.head? = some c → p c = false) :
    (s ++ back).dropWhile p = s.dropWhile p ++ back := by
  induction s with
  | nil => exact dropWhile_eq_self h
  | cons c s ih =>
    by_cases hc : p c = true
    · rw [List.cons_append, List.dropWhile_cons_of_pos hc, List.dropWhile_cons_of_pos hc, ih]
    · rw [List.cons_append, List.dropWhile_cons_of_neg hc, List.dropWhile_cons_of_neg hc, List.cons_append]

/-- What is trimmed from the end of a text is of the class. -/
theorem exists_eq_trimEnd_append (p : Char → Bool) (s : Text) : ∃ back, s = trimEnd p s ++ back ∧ ∀ c ∈ back, p c = true := by
  refine ⟨(s.reverse.takeWhile p).reverse, ?_, ?_⟩
  · rw [trimEnd, ← List.reverse_append, List.takeWhile_append_dropWhile, List.reverse_reverse]
  · intro c hc
    exact List.mem_takeWhile_imp (List.mem_reverse.1 hc)

/-- Trimming goes no further than a character outside the class. -/
theorem trimEnd_append_cons {p : Char → Bool} {c : Char} (hc : p c = false) (front : Text) (s : Text) :
    trimEnd p (front ++ c :: s) = front ++ c :: trimEnd p s := by
  have hreverse : (front ++ c :: s).reverse = s.reverse ++ c :: front.reverse := by simp
  have hstop : ∀ d, (c :: front.reverse).head? = some d → p d = false := by
    intro d hd
    cases hd
    exact hc
  rw [trimEnd, hreverse, dropWhile_append_of_stop _ hstop, trimEnd]
  simp

/-- A text that does not end with a character of the class is not trimmed there. -/
theorem trimEnd_eq_self {p : Char → Bool} {s : Text} (h : ∀ c, s.getLast? = some c → p c = false) : trimEnd p s = s := by
  rw [trimEnd, dropWhile_eq_self (fun c hc => h c (by rw [← List.head?_reverse, hc])), List.reverse_reverse]

/-- A text with characters of the class at neither end is not trimmed. -/
theorem trim_eq_self {p : Char → Bool} {s : Text} (hfirst : ∀ c, s.head? = some c → p c = false)
    (hlast : ∀ c, s.getLast? = some c → p c = false) : trim p s = s := by
  rw [trim, trimStart, dropWhile_eq_self hfirst, trimEnd_eq_self hlast]

/-- A run is not empty and holds no character of the class, if the run collected so far holds none. -/
theorem of_mem_wordsFrom {p : Char → Bool} {run s word : Text} (hrun : ∀ c ∈ run, p c = false)
    (h : word ∈ wordsFrom p run s) : word ≠ [] ∧ ∀ c ∈ word, p c = false := by
  induction s generalizing run with
  | nil =>
    rw [wordsFrom] at h
    split at h
    · cases h
    · rename_i hne
      rw [List.mem_singleton.1 h]
      exact ⟨by simpa using hne, fun c hc => hrun c (List.mem_reverse.1 hc)⟩
  | cons c rest ih =>
    rw [wordsFrom] at h
    split at h
    · split at h
      · exact ih (by simp) h
      · rename_i hne
        rcases List.mem_cons.1 h with rfl | h
        · exact ⟨by simpa using hne, fun d hd => hrun d (List.mem_reverse.1 hd)⟩
        · exact ih (by simp) h
    · rename_i hc
      refine ih ?_ h
      intro d hd
      rcases List.mem_cons.1 hd with rfl | hd
      · simpa using hc
      · exact hrun d hd

/-- A run between characters of a class is not empty and holds none of them. -/
theorem of_mem_words {p : Char → Bool} {s word : Text} (h : word ∈ words p s) : word ≠ [] ∧ ∀ c ∈ word, p c = false :=
  of_mem_wordsFrom (by simp) h

/-- The runs behind `word` are the pieces into which the library cuts a text at the characters of the class, the first one with `word`
in front, without the empty ones. -/
theorem wordsFrom_eq (p : Char → Bool) (word s : Text) :
    wordsFrom p word s = (s.splitOnPPrepend p word).filter (fun run => !run.isEmpty) := by
  induction s generalizing word with
  | nil => cases word <;> simp [wordsFrom]
  | cons c rest ih =>
    rw [wordsFrom, List.splitOnPPrepend_cons_eq_if, ih, ih, List.splitOnPPrepend_nil_right]
    split
    · cases word <;> simp
    · rfl

/-- The runs are the pieces into which the library cuts a text at the characters of the class, without the empty ones. -/
theorem words_eq (p : Char → Bool) (s : Text) : words p s = (s.splitOnP p).filter (fun run => !run.isEmpty) := by
  rw [words, wordsFrom_eq, List.splitOnPPrepend_nil_right]

/-- A character of the class divides the runs before it from those behind it. -/
theorem words_append_cons {p : Char → Bool} {c : Char} (hc : p c = true) (s t : Text) :
    words p (s ++ c :: t) = words p s ++ words p t := by
  rw [words_eq, List.splitOnP_append_cons s t hc, List.filter_append, ← words_eq, ← words_eq]

/-- A text that is not empty and holds no character of the class is one run. -/
theorem words_of_forall {p : Char → Bool} {word : Text} (hne : word ≠ []) (h : ∀ c ∈ word, p c = false) :
    words p word = [word] := by
  rw [words_eq, List.splitOnP_eq_singleton h]
  simp [hne]

/-- Among characters of the class alone there is no run. -/
theorem words_eq_nil {p : Char → Bool} {s : Text} (h : ∀ c ∈ s, p c = true) : words p s = [] := by
  induction s with
  | nil => rfl
  | cons c s ih =>
    have hrest : words p s = [] := ih fun d hd => h d (List.mem_cons_of_mem _ hd)
    have hsplit : words p ([] ++ c :: s) = words p [] ++ words p s := words_append_cons (h c List.mem_cons_self) [] s
    rw [List.nil_append, hrest, List.append_nil] at hsplit
    rw [hsplit]
    rfl

/-- Runs are found again once they are joined by a character of the class. -/
theorem words_joinWith {p : Char → Bool} {sep : Char} (hsep : p sep = true) {parts : List Text}
    (h : ∀ part ∈ parts, part ≠ [] ∧ ∀ c ∈ part, p c = false) : words p (joinWith [sep] parts) = parts := by
  induction parts with
  | nil => rfl
  | cons part parts ih =>
    obtain ⟨hne, hclass⟩ := h part List.mem_cons_self
    have hpart : words p part = [part] := words_of_forall hne hclass
    by_cases hlast : parts = []
    · subst hlast
      exact hpart
    · have hparts := ih fun other hother => h other (List.mem_cons_of_mem _ hother)
      rw [joinWith_cons hlast, List.append_assoc, List.singleton_append, words_append_cons hsep, hpart, hparts]
      rfl

/-- Joined parts of which none is empty and none holds a character of the class are not trimmed, whatever joins them. -/
theorem trim_joinWith {p : Char → Bool} {sep : Text} {parts : List Text}
    (h : ∀ part ∈ parts, part ≠ [] ∧ ∀ c ∈ part, p c = false) : trim p (joinWith sep parts) = joinWith sep parts := by
  refine trim_eq_self ?_ (fun c hc => of_getLast?_joinWith h hc)
  intro c hc
  cases parts with
  | nil => cases hc
  | cons part parts =>
    obtain ⟨hne, hclass⟩ := h part List.mem_cons_self
    rw [head?_joinWith_cons sep hne] at hc
    exact hclass c (List.mem_of_head? hc)

/-! ## Blanks around a text -/

/-- Blanks behind a text do not change what is between its blanks. -/
theorem strip_append_blanks {back : Text} (s : Text) (h : ∀ c ∈ back, isBlank c = true) : strip (s ++ back) = strip s := by
  rw [strip, strip, trim, trim, trimStart, trimStart, List.dropWhile_append]
  split
  · rename_i hall
    rw [List.dropWhile_eq_nil_iff.2 h, List.isEmpty_iff.1 hall]
  · rw [trimEnd, List.reverse_append, List.dropWhile_append_of_pos (fun c hc => h c (List.mem_reverse.1 hc)), trimEnd]

/-- A blank in front of a text does not change what is between its blanks. -/
theorem strip_cons_blank {c : Char} (h : isBlank c = true) (s : Text) : strip (c :: s) = strip s := by
  rw [strip, strip, trim, trim, trimStart, List.dropWhile_cons_of_pos h, trimStart]

/-- What depends neither on blanks behind a text nor on blanks in front of it is found between the blanks. -/
theorem apply_strip {α : Type} {f : Text → α} (hback : ∀ s back : Text, (∀ c ∈ back, isBlank c = true) → f (s ++ back) = f s)
    (hfront : ∀ c s, isBlank c = true → f (c :: s) = f s) (s : Text) : f s.strip = f s := by
  have hdrop : ∀ t : Text, f (t.dropWhile isBlank) = f t := by
    intro t
    induction t with
    | nil => rfl
    | cons c t ih =>
      by_cases hc : isBlank c = true
      · rw [List.dropWhile_cons_of_pos hc, ih, hfront c t hc]
      · rw [List.dropWhile_cons_of_neg hc]
  obtain ⟨back, hs, hblank⟩ := exists_eq_trimEnd_append isBlank (s.dropWhile isBlank)
  calc f s.strip = f (s.strip ++ back) := (hback _ _ hblank).symm
    _ = f (s.dropWhile isBlank) := congrArg f hs.symm
    _ = f s := hdrop s

/-- What is between the blanks has no blanks around it. -/
theorem strip_strip (s : Text) : s.strip.strip = s.strip :=
  apply_strip (fun s _ h => strip_append_blanks s h) (fun _ s h => strip_cons_blank h s) s

/-- The runs between blanks are found between the blanks around the text. -/
theorem fields_strip (s : Text) : s.strip.fields = s.fields := by
  refine apply_strip ?_ ?_ s
  · intro s back h
    cases back with
    | nil => rw [List.append_nil]
    | cons c back =>
      have hback : words isBlank back = [] := words_eq_nil fun d hd => h d (List.mem_cons_of_mem _ hd)
      rw [fields, fields, words_append_cons (h c List.mem_cons_self), hback, List.append_nil]
  · intro c s h
    exact words_append_cons h [] s

/-- The first run of characters that are no blanks. -/
def firstWord (s : Text) : Text :=
  (s.dropWhile isBlank).takeWhile (fun c => !isBlank c)

/-- A text without a first word holds blanks only. -/
theorem isBlank_of_firstWord_eq_nil {s : Text} (h : firstWord s = []) : ∀ c ∈ s, isBlank c = true := by
  obtain ⟨front, hs, hfront, hstop⟩ := eq_append_of_dropWhile (rfl : s.dropWhile isBlank = s.dropWhile isBlank)
  cases hd : s.dropWhile isBlank with
  | nil => exact List.dropWhile_eq_nil_iff.1 hd
  | cons c rest =>
    rw [firstWord, hd, List.takeWhile_cons_of_pos (by simp [hstop c (by rw [hd]; rfl)])] at h
    cases h

/-- The first word is found between the blanks. -/
theorem firstWord_strip (s : Text) : firstWord s.strip = firstWord s := by
  refine apply_strip ?_ ?_ s
  · intro s back h
    rw [firstWord, firstWord, List.dropWhile_append]
    split
    · rename_i hall
      rw [List.dropWhile_eq_nil_iff.2 h, List.isEmpty_iff.1 hall]
    · refine takeWhile_append_of_stop _ fun c hc => ?_
      rw [h c (List.mem_of_head? hc)]
      rfl
  · intro c s h
    rw [firstWord, firstWord, List.dropWhile_cons_of_pos h]

end SymbolSearch.Text
