import SymbolSearch.Proofs.Definition.Grammar

/-!
# The names of a text

The pass over a text from left to right goes on behind the brace of each definition it meets. What it passes over there holds no
further line start that reads as a definition, so the names are those of all line starts, each on its own (`namesFrom_eq`). With
it, the names of a text (`mem_names_iff`) and the search for one of them (`find?_isSome_iff`) come down to the same grammar.
-/

namespace SymbolSearch.Definition

/-! ## Line starts -/

/-- The text in front of a line start is empty or ends with a line feed. -/
def EndsLine (front : Text) : Prop :=
  front = [] ∨ ∃ before, front = before ++ ['\n']

/-- The later line starts are the places behind line feeds. -/
theorem mem_laterLines_iff {s line : Text} : line ∈ laterLines s ↔ ∃ before, s = before ++ '\n' :: line := by
  induction s with
  | nil => simp [laterLines]
  | cons c rest ih =>
    have hsplit : (∃ before, c :: rest = before ++ '\n' :: line) ↔
        (c = '\n' ∧ line = rest) ∨ ∃ before, rest = before ++ '\n' :: line := by
      constructor
      · rintro ⟨before, he⟩
        cases before with
        | nil => cases he; exact Or.inl ⟨rfl, rfl⟩
        | cons d before => cases he; exact Or.inr ⟨before, rfl⟩
      · rintro (⟨rfl, rfl⟩ | ⟨before, rfl⟩)
        · exact ⟨[], rfl⟩
        · exact ⟨c :: before, rfl⟩
    rw [hsplit, laterLines]
    by_cases hc : c = '\n'
    · simp [hc, ih]
    · simp [hc, ih]

/-- The line starts of a text are the places behind a front that ends a line. -/
theorem mem_lineStarts_iff {s line : Text} : line ∈ lineStarts s ↔ ∃ front, EndsLine front ∧ s = front ++ line := by
  simp only [lineStarts, List.mem_cons, mem_laterLines_iff]
  constructor
  · rintro (rfl | ⟨before, rfl⟩)
    · exact ⟨[], Or.inl rfl, rfl⟩
    · exact ⟨before ++ ['\n'], Or.inr ⟨before, rfl⟩, by simp⟩
  · rintro ⟨front, rfl | ⟨before, rfl⟩, rfl⟩
    · exact Or.inl rfl
    · exact Or.inr ⟨before, by simp⟩

/-- A front without line feeds adds no line start. -/
theorem laterLines_append {front rest : Text} (h : ∀ c ∈ front, c ≠ '\n') : laterLines (front ++ rest) = laterLines rest := by
  induction front with
  | nil => rfl
  | cons c front ih =>
    rw [List.cons_append, laterLines, if_neg (h c (by simp)), ih (fun d hd => h d (List.mem_cons_of_mem c hd))]

/-! ## What a definition passes over -/

/-- A line that starts with a brace, blanks in front of it not counted, defines nothing. -/
theorem nameAt?_brace {indent rest : Text} (h : ∀ c ∈ indent, Text.isGap c = true) :
    nameAt? (indent ++ '\x7b' :: rest) = none := by
  have hd : (indent ++ '\x7b' :: rest).dropWhile Text.isGap = '\x7b' :: rest :=
    Text.dropWhile_append_stop h (by rintro c ⟨⟩; decide)
  have hg : takeGroup? ('\x7b' :: rest) = none := by
    have hs : Text.isNameStart '\x7b' = false := by decide
    simp [takeGroup?, hs]
  have hp : namePlaces ('\x7b' :: rest) = [] := by
    rw [namePlaces, namePlacesFrom, hg]
  rw [nameAt?, definitionAt?, hd, hp]
  rfl

/-- No part of a definition in front of its parameter list's end holds a line feed. -/
theorem ne_lineFeed {c : Char} (h : Text.isWordChar c = true ∨ isSeparator c = true ∨ isParameterChar c = true) :
    c ≠ '\n' := by
  rintro rfl
  revert h
  decide

/-- A definition ends with its brace, and the line starts inside it define nothing. -/
theorem Reads.passes {line name behind : Text} (h : Reads line name behind) :
    ∃ c front, line = c :: (front ++ '\x7b' :: behind) ∧
      (laterLines line).filterMap nameAt? = (laterLines behind).filterMap nameAt? := by
  obtain ⟨indent, groups, rest, hindent, hne, hgroups, hname,
    ⟨gap, parameters, tail, hgap, hpar, ⟨blank, lineEnd, indent', hblank, hend, hindent', rfl⟩, rfl⟩, rfl⟩ := h
  have hgap' : ∀ {s : Text}, (∀ c ∈ s, Text.isGap c = true) → ∀ c ∈ s, c ≠ '\n' :=
    fun hs c hc => ne_lineFeed (Or.inr (Or.inl (isSeparator_of_isGap (hs c hc))))
  -- everything up to the end of the line holds no line feed
  let head := indent ++ groupsText groups ++ name ++ gap ++ '(' :: parameters ++ ')' :: blank
  have hline : indent ++ groupsText groups ++ name ++ (gap ++ '(' :: parameters ++
      ')' :: (blank ++ lineEnd ++ indent' ++ '\x7b' :: behind)) =
      head ++ (lineEnd ++ (indent' ++ '\x7b' :: behind)) := by
    simp [head]
  have hhead : ∀ c ∈ head, c ≠ '\n' := by
    intro c hc
    simp only [head, List.mem_append, List.mem_cons] at hc
    rcases hc with ((((hc | hc) | hc) | hc) | rfl | hc) | rfl | hc
    · exact hgap' hindent c hc
    · exact ne_lineFeed ((of_mem_groupsText hgroups hc).imp_right Or.inl)
    · exact ne_lineFeed (Or.inl (hname.isWordChar c hc))
    · exact hgap' hgap c hc
    · decide
    · exact ne_lineFeed (Or.inr (Or.inr (hpar c hc)))
    · decide
    · exact hgap' hblank c hc
  have hbrace : laterLines (indent' ++ '\x7b' :: behind) = laterLines behind := by
    rw [laterLines_append (hgap' hindent')]
    rfl
  have hlater : (laterLines (lineEnd ++ (indent' ++ '\x7b' :: behind))).filterMap nameAt? =
      (laterLines behind).filterMap nameAt? := by
    simp only [List.mem_cons, List.not_mem_nil, or_false] at hend
    rcases hend with rfl | rfl | rfl
    · rw [List.nil_append, hbrace]
    · simp [laterLines, nameAt?_brace hindent', hbrace]
    · simp [laterLines, nameAt?_brace hindent', hbrace]
  obtain ⟨c, front, hfront⟩ := List.exists_cons_of_ne_nil (l := head ++ (lineEnd ++ indent')) (by simp [head])
  refine ⟨c, front, ?_, ?_⟩
  · rw [hline, ← List.append_assoc lineEnd, ← List.append_assoc, hfront, List.cons_append]
  · rw [hline, laterLines_append hhead, hlater]

/-- Characters of the last definition are passed over up to its end. -/
theorem namesFrom_skip (front rest : Text) (c : Char) (atLineStart : Bool) :
    namesFrom (front.length + 1) atLineStart (front ++ c :: rest) = namesFrom 0 (c = '\n') rest := by
  induction front generalizing atLineStart with
  | nil => rfl
  | cons d front ih =>
    rw [List.length_cons, List.cons_append, namesFrom]
    exact ih _

/-- The pass over a text meets the names of all its line starts; a text that is entered inside a line has only the later ones. -/
theorem namesFrom_eq (s : Text) (atLineStart : Bool) :
    namesFrom 0 atLineStart s = ((if atLineStart then [s] else []) ++ laterLines s).filterMap nameAt? := by
  induction hn : s.length using Nat.strongRecOn generalizing s atLineStart with
  | ind n ih =>
    cases s with
    | nil =>
      have hnone : nameAt? [] = none := by
        simp [nameAt?, definitionAt?, namePlaces, namePlacesFrom, takeGroup?]
      cases atLineStart <;> simp [namesFrom, laterLines, hnone]
    | cons c rest =>
      subst hn
      have hnext : namesFrom 0 (c = '\n') rest = (laterLines (c :: rest)).filterMap nameAt? := by
        rw [ih rest.length (by simp) rest _ rfl, laterLines]
        by_cases hc : c = '\n' <;> simp [hc]
      cases atLineStart with
      | false =>
        rw [namesFrom]
        simpa using hnext
      | true =>
        cases hd : definitionAt? (c :: rest) with
        | none =>
          have hname : nameAt? (c :: rest) = none := by rw [nameAt?, hd]; rfl
          rw [namesFrom]
          simp only [if_true, hd, List.cons_append, List.nil_append, List.filterMap_cons, hname]
          exact hnext
        | some found =>
          obtain ⟨name, behind⟩ := found
          obtain ⟨d, front, hline, hlater⟩ := (definitionAt?_eq_some_iff.1 hd).passes
          cases hline
          have hname : nameAt? (c :: (front ++ '\x7b' :: behind)) = some name := by rw [nameAt?, hd]; rfl
          have hskip : (front ++ '\x7b' :: behind).length - behind.length = front.length + 1 := by
            rw [List.length_append, List.length_cons]
            omega
          have hrest := ih behind.length (by simp; omega) behind false rfl
          rw [namesFrom]
          simp only [if_true, hd, hskip, List.cons_append, List.nil_append, List.filterMap_cons, hname, hlater,
            namesFrom_skip]
          simpa using hrest

/-! ## Names and the search for one -/

/-- A name of a text is one that some line start defines, and no control word. -/
theorem mem_names_iff {s name : Text} :
    name ∈ names s ↔ name ∉ controlWords ∧ ∃ line ∈ lineStarts s, ∃ behind, Reads line name behind := by
  simp only [names, namesFrom_eq, if_true, List.cons_append, List.nil_append, List.mem_filter, List.mem_filterMap,
    nameAt?_eq_some_iff, lineStarts, Bool.not_eq_true', List.contains_eq_mem, decide_eq_false_iff_not]
  exact and_comm

/-- The names of a text are words. -/
theorem isWord_of_mem_names {s name : Text} (h : name ∈ names s) : IsWord name := by
  obtain ⟨-, line, -, behind, -, -, -, -, -, -, hname, -⟩ := mem_names_iff.1 h
  exact hname

/-- The search for a word succeeds in the texts in which some line start defines it. -/
theorem find?_isSome_iff {s name : Text} (hname : IsWord name) :
    (find? name s).isSome = true ↔ ∃ line ∈ lineStarts s, ∃ behind, Reads line name behind := by
  simp only [find?, Option.isSome_map, List.isSome_findSome?, List.any_eq_true, placeAt?_isSome_iff hname]

end SymbolSearch.Definition
