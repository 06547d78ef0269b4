import SymbolSearch.Definition
import SymbolSearch.Proofs.Text

/-!
# The grammar of definitions

`Reads line name behind` says how a definition of `name` is written at a line start, part by part and without a search. The
two matchers of the scan follow it: `definitionAt?` finds the name that is defined, whatever it is (`definitionAt?_eq_some_iff`),
and `placeAt?` looks for a given one (`placeAt?_isSome_iff`). A line start has at most one reading (`Reads.unique`), and the
part of a definition that reaches into the next line hides no other one (`namesFrom_eq`).
-/

namespace SymbolSearch.Definition

/-! ## Classes of characters -/

/-- A separator is no word character. -/
theorem isWordChar_of_isSeparator {c : Char} (h : isSeparator c = true) : Text.isWordChar c = false := by
  simp only [isSeparator, Text.isGap, Bool.or_eq_true, decide_eq_true_eq] at h
  rcases h with ((rfl | rfl) | rfl) | rfl <;> decide

/-- A space or a tab is a separator. -/
theorem isSeparator_of_isGap {c : Char} (h : Text.isGap c = true) : isSeparator c = true := by
  simp [isSeparator, h]

/-- A word may go on with what it may start with. -/
theorem isWordChar_of_isNameStart {c : Char} (h : Text.isNameStart c = true) : Text.isWordChar c = true := by
  simp only [Text.isNameStart, Bool.or_eq_true] at h
  rcases h with h | h <;> simp [Text.isWordChar, h]

/-- A word character is no separator. -/
theorem isSeparator_of_isWordChar {c : Char} (h : Text.isWordChar c = true) : isSeparator c = false := by
  cases hs : isSeparator c with
  | false => rfl
  | true => rw [isWordChar_of_isSeparator hs] at h; cases h

/-- A word character is neither a space nor a tab. -/
theorem isGap_of_isWordChar {c : Char} (h : Text.isWordChar c = true) : Text.isGap c = false := by
  cases hg : Text.isGap c with
  | false => rfl
  | true => rw [isWordChar_of_isSeparator (isSeparator_of_isGap hg)] at h; cases h

/-- A space or a tab is no word character. -/
theorem isWordChar_of_isGap {c : Char} (h : Text.isGap c = true) : Text.isWordChar c = false :=
  isWordChar_of_isSeparator (isSeparator_of_isGap h)

/-! ## The grammar -/

/-- A word: a letter or the underscore, and word characters behind it. -/
def IsWord (s : Text) : Prop :=
  ∃ c rest, s = c :: rest ∧ Text.isNameStart c = true ∧ ∀ d ∈ rest, Text.isWordChar d = true

/-- A group is a word and at least one separator. -/
def Group.IsProper (group : Group) : Prop :=
  IsWord group.word ∧ group.gap ≠ [] ∧ ∀ c ∈ group.gap, isSeparator c = true

/-- Groups as they are written. -/
def groupsText (groups : List Group) : Text :=
  groups.flatMap (fun group => group.word ++ group.gap)

/-- A body opens: a brace stands on this line or on the next one, and `behind` follows it. -/
def Opens (s behind : Text) : Prop :=
  ∃ gap lineEnd indent, (∀ c ∈ gap, Text.isGap c = true) ∧ lineEnd ∈ [[], ['\n'], ['\r', '\n']] ∧
    (∀ c ∈ indent, Text.isGap c = true) ∧ s = gap ++ lineEnd ++ indent ++ '\x7b' :: behind

/-- What follows a defined name: a parameter list, and a body that opens. -/
def Follows (s behind : Text) : Prop :=
  ∃ gap parameters rest, (∀ c ∈ gap, Text.isGap c = true) ∧ (∀ c ∈ parameters, isParameterChar c = true) ∧
    Opens rest behind ∧ s = gap ++ '(' :: parameters ++ ')' :: rest

/-- The line reads as a definition of `name`, and `behind` follows its opening brace. -/
def Reads (line name behind : Text) : Prop :=
  ∃ indent groups rest, (∀ c ∈ indent, Text.isGap c = true) ∧ groups ≠ [] ∧ (∀ group ∈ groups, group.IsProper) ∧
    IsWord name ∧ Follows rest behind ∧ line = indent ++ groupsText groups ++ name ++ rest

/-- Every character of a word is a word character. -/
theorem IsWord.isWordChar {s : Text} (h : IsWord s) : ∀ c ∈ s, Text.isWordChar c = true := by
  obtain ⟨c, rest, rfl, hc, hrest⟩ := h
  intro d hd
  rcases List.mem_cons.1 hd with rfl | hd
  · exact isWordChar_of_isNameStart hc
  · exact hrest d hd

/-- A word is not empty. -/
theorem IsWord.ne_nil {s : Text} (h : IsWord s) : s ≠ [] := by
  obtain ⟨c, rest, rfl, -⟩ := h
  exact List.cons_ne_nil c rest

/-- What starts with a word does not start with a separator. -/
theorem IsWord.head?_append {s : Text} (h : IsWord s) (rest : Text) :
    ∀ c, (s ++ rest).head? = some c → isSeparator c = false := by
  obtain ⟨c, tail, rfl, hc, -⟩ := h
  intro d hd
  cases hd
  exact isSeparator_of_isWordChar (isWordChar_of_isNameStart hc)

/-! ## What follows a name -/

/-- A line end, or none, and what the brace follows: the cases of `bodyAfter?`. -/
theorem bodyAfter?_eq_some_iff {s behind : Text} : bodyAfter? s = some behind ↔ Opens s behind := by
  have brace : ∀ {indent rest : Text}, (∀ c ∈ indent, Text.isGap c = true) →
      (indent ++ '\x7b' :: rest).dropWhile Text.isGap = '\x7b' :: rest := by
    intro indent rest hi
    exact Text.dropWhile_append_stop hi (by rintro c ⟨⟩; decide)
  constructor
  · intro h
    obtain ⟨gap, hs, hgap, -⟩ := Text.eq_append_of_dropWhile (p := Text.isGap) (s := s) rfl
    unfold bodyAfter? at h
    split at h
    · rename_i rest hrest
      obtain ⟨indent, hr, hindent, -⟩ := Text.eq_append_of_dropWhile (p := Text.isGap) (s := rest) rfl
      rw [Text.after?_eq_some_iff] at h
      refine ⟨gap, ['\n'], indent, hgap, by simp, hindent, ?_⟩
      rw [hs, hrest, hr, h]
      simp
    · rename_i rest hrest
      obtain ⟨indent, hr, hindent, -⟩ := Text.eq_append_of_dropWhile (p := Text.isGap) (s := rest) rfl
      rw [Text.after?_eq_some_iff] at h
      refine ⟨gap, ['\r', '\n'], indent, hgap, by simp, hindent, ?_⟩
      rw [hs, hrest, hr, h]
      simp
    · rw [Text.after?_eq_some_iff] at h
      refine ⟨gap, [], [], hgap, by simp, by simp, ?_⟩
      rw [hs, h]
      simp
  · rintro ⟨gap, lineEnd, indent, hgap, hend, hindent, rfl⟩
    simp only [List.mem_cons, List.not_mem_nil, or_false] at hend
    rcases hend with rfl | rfl | rfl
    · have hall : ∀ c ∈ gap ++ indent, Text.isGap c = true := by
        intro c hc
        rcases List.mem_append.1 hc with hc | hc
        · exact hgap c hc
        · exact hindent c hc
      have hd : (gap ++ [] ++ indent ++ '\x7b' :: behind).dropWhile Text.isGap = '\x7b' :: behind := by
        rw [List.append_nil]
        exact brace hall
      simp only [bodyAfter?, hd]
      rfl
    · have hd : (gap ++ ['\n'] ++ indent ++ '\x7b' :: behind).dropWhile Text.isGap = '\n' :: (indent ++ '\x7b' :: behind) := by
        simp only [List.append_assoc, List.cons_append, List.nil_append]
        exact Text.dropWhile_append_stop hgap (by rintro c ⟨⟩; decide)
      simp only [bodyAfter?, hd, brace hindent]
      rfl
    · have hd : (gap ++ ['\r', '\n'] ++ indent ++ '\x7b' :: behind).dropWhile Text.isGap =
          '\r' :: '\n' :: (indent ++ '\x7b' :: behind) := by
        simp only [List.append_assoc, List.cons_append, List.nil_append]
        exact Text.dropWhile_append_stop hgap (by rintro c ⟨⟩; decide)
      simp only [bodyAfter?, hd, brace hindent]
      rfl

/-- `definedAfter?` accepts exactly what may follow a defined name. -/
theorem definedAfter?_eq_some_iff {s behind : Text} : definedAfter? s = some behind ↔ Follows s behind := by
  constructor
  · intro h
    obtain ⟨gap, hs, hgap, -⟩ := Text.eq_append_of_dropWhile (p := Text.isGap) (s := s) rfl
    unfold definedAfter? at h
    split at h
    · rename_i rest hrest
      obtain ⟨parameters, hr, hparameters, -⟩ := Text.eq_append_of_dropWhile (p := isParameterChar) (s := rest) rfl
      split at h
      · rename_i tail htail
        refine ⟨gap, parameters, tail, hgap, hparameters, bodyAfter?_eq_some_iff.1 h, ?_⟩
        rw [hs, hrest, hr, htail]
        simp
      · cases h
    · cases h
  · rintro ⟨gap, parameters, rest, hgap, hparameters, hrest, rfl⟩
    have hd : (gap ++ '(' :: parameters ++ ')' :: rest).dropWhile Text.isGap = '(' :: (parameters ++ ')' :: rest) := by
      rw [List.append_assoc, List.cons_append]
      exact Text.dropWhile_append_stop hgap (by rintro c ⟨⟩; decide)
    have hp : (parameters ++ ')' :: rest).dropWhile isParameterChar = ')' :: rest :=
      Text.dropWhile_append_stop hparameters (by rintro c ⟨⟩; decide)
    simp only [definedAfter?, hd, hp]
    exact bodyAfter?_eq_some_iff.2 hrest

/-- What follows a defined name does not go on with a word character. -/
theorem Follows.head? {s behind : Text} (h : Follows s behind) : ∀ c, s.head? = some c → Text.isWordChar c = false := by
  obtain ⟨gap, parameters, rest, hgap, -, -, rfl⟩ := h
  intro c hc
  cases gap with
  | nil => cases hc; decide
  | cons d gap =>
    cases hc
    exact isWordChar_of_isGap (hgap c (by simp))

/-- A name is taken as a whole: the word at the start of a text is taken where no word character follows it. -/
theorem takeName?_append {name rest : Text} (hn : IsWord name)
    (hr : ∀ c, rest.head? = some c → Text.isWordChar c = false) : takeName? (name ++ rest) = some (name, rest) := by
  obtain ⟨c, tail, rfl, hc, htail⟩ := hn
  simp only [List.cons_append, takeName?, hc, if_true, Text.takeWhile_append_stop htail hr,
    Text.dropWhile_append_stop htail hr]

/-- A name that is taken from a text is a word, and the text starts with it. -/
theorem of_takeName? {s name rest : Text} (h : takeName? s = some (name, rest)) : IsWord name ∧ s = name ++ rest := by
  cases s with
  | nil => cases h
  | cons c s =>
    simp only [takeName?] at h
    split at h
    · rename_i hc
      cases h
      refine ⟨⟨c, _, rfl, hc, fun d hd => List.mem_takeWhile_imp hd⟩, ?_⟩
      rw [List.cons_append, List.takeWhile_append_dropWhile]
    · cases h

/-! ## Where a name may stand -/

/-- A group that is taken from a text is a proper one, and the text starts with it. -/
theorem of_takeGroup? {s rest : Text} {group : Group} (h : takeGroup? s = some (group, rest)) :
    group.IsProper ∧ s = group.word ++ group.gap ++ rest := by
  cases s with
  | nil => simp [takeGroup?] at h
  | cons c s =>
    simp only [takeGroup?] at h
    split at h
    · rename_i hc
      simp only [Bool.and_eq_true, Bool.not_eq_true', List.isEmpty_eq_false_iff] at hc
      cases h
      refine ⟨⟨⟨c, _, rfl, hc.1, fun d hd => List.mem_takeWhile_imp hd⟩, hc.2, fun d hd => List.mem_takeWhile_imp hd⟩, ?_⟩
      simp only [List.cons_append, List.append_assoc, List.takeWhile_append_dropWhile]
    · cases h

/-- A proper group is taken as a whole where no separator follows it. -/
theorem takeGroup?_append {group : Group} {rest : Text} (hg : group.IsProper)
    (hr : ∀ c, rest.head? = some c → isSeparator c = false) :
    takeGroup? (group.word ++ group.gap ++ rest) = some (group, rest) := by
  obtain ⟨word, gap⟩ := group
  obtain ⟨⟨c, tail, hw, hc, htail⟩, hne, hgap⟩ := hg
  simp only at hw hne hgap
  subst hw
  have hstop : ∀ d, (gap ++ rest).head? = some d → Text.isWordChar d = false := by
    intro d hd
    cases gap with
    | nil => exact absurd rfl hne
    | cons e gap =>
      cases hd
      exact isWordChar_of_isSeparator (hgap d (by simp))
  have ht : (tail ++ (gap ++ rest)).takeWhile Text.isWordChar = tail := Text.takeWhile_append_stop htail hstop
  have hd : (tail ++ (gap ++ rest)).dropWhile Text.isWordChar = gap ++ rest := Text.dropWhile_append_stop htail hstop
  simp only [List.cons_append, List.append_assoc, takeGroup?, ht, hd, Text.takeWhile_append_stop hgap hr,
    Text.dropWhile_append_stop hgap hr, hc, Bool.true_and, Bool.not_eq_true', List.isEmpty_eq_false_iff, ne_eq, hne,
    not_false_eq_true, if_true]

/-- A place behind separators is an old one, or has separators and nothing else in front of it. -/
theorem mem_placesBehind {found : List Text} {s place : Text} (h : place ∈ placesBehind found s) :
    place ∈ found ∨ ∃ gap, gap ≠ [] ∧ (∀ c ∈ gap, isSeparator c = true) ∧ s = gap ++ place := by
  induction s generalizing found with
  | nil => exact Or.inl h
  | cons c rest ih =>
    simp only [placesBehind] at h
    split at h
    · rename_i hc
      rcases ih h with hm | ⟨gap, -, hgap, rfl⟩
      · rcases List.mem_cons.1 hm with rfl | hm
        · exact Or.inr ⟨[c], by simp, by simpa using hc, rfl⟩
        · exact Or.inl hm
      · refine Or.inr ⟨c :: gap, by simp, ?_, rfl⟩
        intro d hd
        rcases List.mem_cons.1 hd with rfl | hd
        · exact hc
        · exact hgap d hd
    · exact Or.inl h

/-- The places found before stay. -/
theorem subset_placesBehind (found : List Text) (s : Text) : found ⊆ placesBehind found s := by
  induction s generalizing found with
  | nil => exact List.Subset.refl _
  | cons c rest ih =>
    simp only [placesBehind]
    split
    · exact List.Subset.trans (List.subset_cons_self _ _) (ih _)
    · exact List.Subset.refl _

/-- The place behind all separators is found. -/
theorem append_mem_placesBehind {found : List Text} {gap place : Text} (hne : gap ≠ [])
    (hgap : ∀ c ∈ gap, isSeparator c = true) : place ∈ placesBehind found (gap ++ place) := by
  induction gap generalizing found with
  | nil => exact absurd rfl hne
  | cons c gap ih =>
    have hc : isSeparator c = true := hgap c (by simp)
    simp only [List.cons_append, placesBehind, hc, if_true]
    cases gap with
    | nil => exact subset_placesBehind _ _ (by simp)
    | cons d gap => exact ih (by simp) (fun e he => hgap e (List.mem_cons_of_mem c he))

/-- A place behind groups is an old one, or has proper groups and nothing else in front of it. -/
theorem mem_namePlacesFrom {found : List Text} {s place : Text} (h : place ∈ namePlacesFrom found s) :
    place ∈ found ∨ ∃ groups, groups ≠ [] ∧ (∀ group ∈ groups, group.IsProper) ∧ s = groupsText groups ++ place := by
  induction found, s using namePlacesFrom.induct with
  | case1 found s hs =>
    rw [namePlacesFrom, hs] at h
    exact Or.inl h
  | case2 found s group rest hs ih =>
    rw [namePlacesFrom, hs] at h
    obtain ⟨hg, rfl⟩ := of_takeGroup? hs
    rcases ih h with hm | ⟨groups, -, hgroups, rfl⟩
    · rcases mem_placesBehind hm with hm | ⟨gap, hne, hgap, he⟩
      · exact Or.inl hm
      -- the place may lie inside the separators of the group, so the group in front of it has fewer of them
      · refine Or.inr ⟨[⟨group.word, gap⟩], by simp, ?_, ?_⟩
        · intro g hmem
          rw [List.mem_singleton] at hmem
          subst hmem
          exact ⟨hg.1, hne, hgap⟩
        · rw [List.append_assoc, he]
          simp [groupsText]
    · refine Or.inr ⟨group :: groups, by simp, ?_, ?_⟩
      · intro g hmem
        rcases List.mem_cons.1 hmem with rfl | hmem
        · exact hg
        · exact hgroups g hmem
      · simp [groupsText]

/-- The places found before stay. -/
theorem subset_namePlacesFrom (found : List Text) (s : Text) : found ⊆ namePlacesFrom found s := by
  induction found, s using namePlacesFrom.induct with
  | case1 found s hs =>
    rw [namePlacesFrom, hs]
    exact List.Subset.refl _
  | case2 found s group rest hs ih =>
    rw [namePlacesFrom, hs]
    exact List.Subset.trans (subset_placesBehind found _) ih

/-- The place behind any number of proper groups is found, provided that no separator follows them. -/
theorem append_mem_namePlacesFrom {groups : List Group} {place : Text} (hne : groups ≠ [])
    (hgroups : ∀ group ∈ groups, group.IsProper) (hp : ∀ c, place.head? = some c → isSeparator c = false) :
    ∀ found, place ∈ namePlacesFrom found (groupsText groups ++ place) := by
  induction groups with
  | nil => exact absurd rfl hne
  | cons group groups ih =>
    intro found
    have hg := hgroups group (by simp)
    have hrest : ∀ g ∈ groups, g.IsProper := fun g hmem => hgroups g (List.mem_cons_of_mem group hmem)
    have htext : groupsText (group :: groups) ++ place = group.word ++ group.gap ++ (groupsText groups ++ place) := by
      simp [groupsText]
    have hstop : ∀ c, (groupsText groups ++ place).head? = some c → isSeparator c = false := by
      cases groups with
      | nil => exact hp
      | cons g groups =>
        intro c hc
        refine (hrest g (by simp)).1.head?_append (g.gap ++ (groupsText groups ++ place)) c ?_
        rw [← hc]
        simp [groupsText]
    rw [htext, namePlacesFrom, takeGroup?_append hg hstop]
    cases groups with
    | nil => exact subset_namePlacesFrom _ _ (append_mem_placesBehind hg.2.1 hg.2.2)
    | cons g groups => exact ih (by simp) hrest _

/-! ## One reading at most -/

/-- What groups are written with: word characters and separators. -/
theorem of_mem_groupsText {groups : List Group} (hgroups : ∀ group ∈ groups, group.IsProper) {c : Char}
    (hc : c ∈ groupsText groups) : Text.isWordChar c = true ∨ isSeparator c = true := by
  simp only [groupsText, List.mem_flatMap, List.mem_append] at hc
  obtain ⟨group, hg, hc | hc⟩ := hc
  · exact Or.inl ((hgroups group hg).1.isWordChar c hc)
  · exact Or.inr ((hgroups group hg).2.2 c hc)

/-- Groups end with a separator. -/
theorem getLast?_groupsText {groups : List Group} (hne : groups ≠ []) (hgroups : ∀ group ∈ groups, group.IsProper) :
    ∃ front c, groupsText groups = front ++ [c] ∧ isSeparator c = true := by
  obtain ⟨before, group, rfl⟩ := (List.eq_nil_or_concat groups).resolve_left hne
  obtain ⟨-, hgap, hsep⟩ := hgroups group (by simp)
  obtain ⟨gap, c, hc⟩ := (List.eq_nil_or_concat group.gap).resolve_left hgap
  refine ⟨groupsText before ++ group.word ++ gap, c, ?_, hsep c (by simp [hc])⟩
  simp [groupsText, hc]

/-- The last word in front of the first opening parenthesis, blanks between the two not counted. -/
def lastWord (line : Text) : Text :=
  (((line.takeWhile (· ≠ '(')).reverse.dropWhile Text.isGap).takeWhile Text.isWordChar).reverse

/-- The parts in front of the parameter list hold no parenthesis, so the list starts at the first one. -/
theorem Reads.split {line name behind : Text} (h : Reads line name behind) :
    name = lastWord line ∧ definedAfter? (line.dropWhile (· ≠ '(')) = some behind := by
  obtain ⟨indent, groups, rest, hindent, hne, hgroups, hname, ⟨gap, parameters, tail, hgap, hpar, hopen, rfl⟩, rfl⟩ := h
  have hline : indent ++ groupsText groups ++ name ++ (gap ++ '(' :: parameters ++ ')' :: tail) =
      (indent ++ groupsText groups ++ name ++ gap) ++ '(' :: (parameters ++ ')' :: tail) := by simp
  have hfree : ∀ c ∈ indent ++ groupsText groups ++ name ++ gap, decide (c ≠ '(') = true := by
    intro c hc
    rw [decide_eq_true_eq]
    rintro rfl
    simp only [List.mem_append] at hc
    rcases hc with ((hc | hc) | hc) | hc
    · exact absurd (hindent _ hc) (by decide)
    · rcases of_mem_groupsText hgroups hc with hc | hc
      · exact absurd hc (by decide)
      · exact absurd hc (by decide)
    · exact absurd (hname.isWordChar _ hc) (by decide)
    · exact absurd (hgap _ hc) (by decide)
  have hstop : ∀ c, ('(' :: (parameters ++ ')' :: tail)).head? = some c → decide (c ≠ '(') = false := by
    rintro c ⟨⟩
    decide
  rw [hline, Text.dropWhile_append_stop hfree hstop]
  constructor
  · -- from the back: the blanks, then the word, then the separator that ends the groups
    obtain ⟨front, sep, hfront, hsep⟩ := getLast?_groupsText hne hgroups
    rw [lastWord, Text.takeWhile_append_stop hfree hstop, hfront]
    simp only [List.reverse_append, List.append_assoc, List.reverse_cons, List.nil_append,
      List.cons_append]
    have hblank : ∀ c, (name.reverse ++ sep :: (front.reverse ++ indent.reverse)).head? = some c → Text.isGap c = false := by
      intro c hc
      apply isGap_of_isWordChar
      apply hname.isWordChar
      obtain ⟨last, tail, hl⟩ := List.exists_cons_of_ne_nil (List.reverse_ne_nil_iff.2 hname.ne_nil)
      rw [hl] at hc
      cases hc
      exact List.mem_reverse.1 (by simp [hl])
    have hword : ∀ c, (sep :: (front.reverse ++ indent.reverse)).head? = some c → Text.isWordChar c = false := by
      rintro c ⟨⟩
      exact isWordChar_of_isSeparator hsep
    rw [Text.dropWhile_append_stop (fun c hc => hgap c (List.mem_reverse.1 hc)) hblank,
      Text.takeWhile_append_stop (fun c hc => hname.isWordChar c (List.mem_reverse.1 hc)) hword, List.reverse_reverse]
  · exact definedAfter?_eq_some_iff.2 ⟨[], parameters, tail, by simp, hpar, hopen, rfl⟩

/-- A line start defines at most one name, and its definition ends at one place only. -/
theorem Reads.unique {line name name' behind behind' : Text} (h : Reads line name behind)
    (h' : Reads line name' behind') : name = name' ∧ behind = behind' := by
  obtain ⟨hname, hbehind⟩ := h.split
  obtain ⟨hname', hbehind'⟩ := h'.split
  exact ⟨hname.trans hname'.symm, Option.some.inj (hbehind.symm.trans hbehind')⟩

/-! ## The two matchers -/

/-- The reading of a line from a place where its name may stand. -/
theorem reads_of_mem_namePlaces {line place name rest behind : Text}
    (hp : place ∈ namePlaces (line.dropWhile Text.isGap)) (hname : IsWord name) (hplace : place = name ++ rest)
    (hrest : definedAfter? rest = some behind) : Reads line name behind := by
  obtain ⟨indent, hline, hindent, -⟩ := Text.eq_append_of_dropWhile (p := Text.isGap) (s := line) rfl
  rcases mem_namePlacesFrom hp with hp | ⟨groups, hne, hgroups, he⟩
  · cases hp
  · refine ⟨indent, groups, rest, hindent, hne, hgroups, hname, definedAfter?_eq_some_iff.1 hrest, ?_⟩
    rw [hline, he, hplace]
    simp

/-- In a line that reads as a definition, the name stands where one is looked for. -/
theorem Reads.mem_namePlaces {line name behind : Text} (h : Reads line name behind) :
    ∃ rest, name ++ rest ∈ namePlaces (line.dropWhile Text.isGap) ∧ Follows rest behind := by
  obtain ⟨indent, groups, rest, hindent, hne, hgroups, hname, hrest, rfl⟩ := h
  refine ⟨rest, ?_, hrest⟩
  have hstart : ∀ c, (groupsText groups ++ (name ++ rest)).head? = some c → Text.isGap c = false := by
    obtain ⟨group, groups, rfl⟩ := List.exists_cons_of_ne_nil hne
    obtain ⟨c, tail, hw, hc, -⟩ := (hgroups group (by simp)).1
    intro d hd
    simp only [groupsText, List.flatMap_cons, hw, List.cons_append, List.head?_cons, Option.some.injEq] at hd
    subst hd
    exact isGap_of_isWordChar (isWordChar_of_isNameStart hc)
  rw [List.append_assoc, List.append_assoc, Text.dropWhile_append_stop hindent hstart]
  exact append_mem_namePlacesFrom hne hgroups (hname.head?_append rest) []

/-- The search for any definition finds the name that the line defines, and what follows its opening brace. -/
theorem definitionAt?_eq_some_iff {line name behind : Text} :
    definitionAt? line = some (name, behind) ↔ Reads line name behind := by
  have sound : ∀ {name behind : Text}, definitionAt? line = some (name, behind) → Reads line name behind := by
    intro name behind h
    obtain ⟨place, hp, hplace⟩ := List.exists_of_findSome?_eq_some h
    split at hplace
    · rename_i found rest hfound
      obtain ⟨b, hb, he⟩ := Option.map_eq_some_iff.1 hplace
      cases he
      obtain ⟨hname, htext⟩ := of_takeName? hfound
      exact reads_of_mem_namePlaces hp hname htext hb
    · cases hplace
  refine ⟨sound, fun h => ?_⟩
  obtain ⟨rest, hp, hrest⟩ := h.mem_namePlaces
  obtain ⟨-, -, -, -, -, -, hname, -⟩ := id h
  have hsome : (definitionAt? line).isSome = true := by
    rw [definitionAt?, List.isSome_findSome?, List.any_eq_true]
    refine ⟨name ++ rest, hp, ?_⟩
    simp only [takeName?_append hname hrest.head?, definedAfter?_eq_some_iff.2 hrest]
    rfl
  obtain ⟨⟨name', behind'⟩, he⟩ := Option.isSome_iff_exists.1 hsome
  obtain ⟨rfl, rfl⟩ := h.unique (sound he)
  exact he

/-- The name at a line start is the one that the line defines. -/
theorem nameAt?_eq_some_iff {line name : Text} : nameAt? line = some name ↔ ∃ behind, Reads line name behind := by
  simp only [nameAt?, Option.map_eq_some_iff, Prod.exists, exists_and_right, exists_eq_right, definitionAt?_eq_some_iff]

/-- The search for a given name succeeds at the line starts that define it, and at no others. -/
theorem placeAt?_isSome_iff {line name : Text} (hname : IsWord name) :
    (placeAt? name line).isSome = true ↔ ∃ behind, Reads line name behind := by
  rw [placeAt?, List.find?_isSome]
  constructor
  · rintro ⟨place, hp, hplace⟩
    split at hplace
    · rename_i rest hrest
      obtain ⟨behind, hb⟩ := Option.isSome_iff_exists.1 hplace
      exact ⟨behind, reads_of_mem_namePlaces hp hname (Text.after?_eq_some_iff.1 hrest) hb⟩
    · cases hplace
  · rintro ⟨behind, h⟩
    obtain ⟨rest, hp, hrest⟩ := h.mem_namePlaces
    refine ⟨name ++ rest, hp, ?_⟩
    rw [Text.after?_eq_some_iff.2 rfl]
    exact Option.isSome_iff_exists.2 ⟨behind, definedAfter?_eq_some_iff.2 hrest⟩

end SymbolSearch.Definition
