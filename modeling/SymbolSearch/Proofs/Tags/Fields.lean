import SymbolSearch.Proofs.Characters
import SymbolSearch.Proofs.Symbol
import SymbolSearch.Proofs.Text
import SymbolSearch.Tags.Line

/-!
# The fields behind a command

Kind and attributes are looked for in the text of all fields together, where one field could be taken for part of another. Fields
without blanks keep apart, since a word and a value end at the tab behind them: a field without a colon gives no attribute
(`attributesFrom_plain`), a field with a key, a colon and a value gives just that one (`attributesFrom_written`), and the first
field is the marked word (`markedWord?_fields`). Blanks around the fields are not seen (`markedWord?_terminator`,
`attributesOf_terminator`, `attributesOf_strip`).
-/

namespace SymbolSearch.Tags

/-- A text that is not empty and holds no blanks. -/
def IsToken (s : Text) : Prop := s ≠ [] ∧ ∀ c ∈ s, Text.isBlank c = false

/-- A text that is not empty and holds word characters only. -/
def IsKey (s : Text) : Prop := s ≠ [] ∧ ∀ c ∈ s, Text.isWordChar c = true

instance (s : Text) : Decidable (IsToken s) :=
  decidable_of_iff ((!s.isEmpty && s.all (fun c => !Text.isBlank c)) = true) (by simp [IsToken])

instance (s : Text) : Decidable (IsKey s) :=
  decidable_of_iff ((!s.isEmpty && s.all Text.isWordChar) = true) (by simp [IsKey])

/-- The field in which an attribute is written. -/
def written (pair : Text × Text) : Text := pair.1 ++ ':' :: pair.2

/-- A text goes on with a blank, or ends. -/
def BlankNext (s : Text) : Prop := ∀ c, s.head? = some c → Text.isBlank c = true

variable {field rest key value : Text} {fields : List Text}

/-! ## Tokens and what divides them -/

/-- A command is freed of the terminator that is glued to it. -/
theorem splitTerminator_glued (command : Text) : splitTerminator (command ++ terminator) = (command, true) := by
  have hends : Text.endsWith terminator (command ++ terminator) = true :=
    List.isSuffixOf_iff_suffix.2 (List.suffix_append _ _)
  rw [splitTerminator, if_pos hends, List.length_append, Nat.add_sub_cancel, List.take_left']
  rfl

/-- A blank is no word character. -/
theorem isWordChar_of_isBlank {c : Char} (h : Text.isBlank c = true) : Text.isWordChar c = false := by
  rw [← Bool.not_eq_true]
  intro hw
  rw [Text.isBlank_of_isWordChar hw] at h
  cases h

/-- A blank may come next. -/
theorem blankNext_cons {c : Char} (h : Text.isBlank c = true) (s : Text) : BlankNext (c :: s) := by
  intro d hd
  cases hd
  exact h

/-- Behind the first of several fields the text ends, or goes on with a tab and the other fields. -/
theorem exists_joinWith_cons (field : Text) (fields : List Text) :
    ∃ rest, Text.joinWith ['\t'] (field :: fields) = field ++ rest ∧ BlankNext rest ∧
      rest.tail = Text.joinWith ['\t'] fields := by
  cases fields with
  | nil => exact ⟨[], by rw [Text.joinWith, List.append_nil], nofun, rfl⟩
  | cons next fields =>
    refine ⟨'\t' :: Text.joinWith ['\t'] (next :: fields), ?_, ?_, rfl⟩
    · rw [Text.joinWith_cons (List.cons_ne_nil _ _), List.append_assoc, List.singleton_append]
    · exact blankNext_cons (by decide) _

/-- A blank stands in no token. -/
theorem IsToken.not_mem {c : Char} (h : IsToken field) (hc : Text.isBlank c = true) : c ∉ field := by
  intro hmem
  rw [h.2 c hmem] at hc
  cases hc

/-- The field of an attribute is a token. -/
theorem isToken_written (hkey : IsKey key) (hvalue : IsToken value) : IsToken (written (key, value)) := by
  refine ⟨List.append_ne_nil_of_right_ne_nil _ (List.cons_ne_nil _ _), ?_⟩
  intro c hc
  rcases List.mem_append.1 hc with hc | hc
  · exact Text.isBlank_of_isWordChar (hkey.2 c hc)
  · rcases List.mem_cons.1 hc with rfl | hc
    · decide
    · exact hvalue.2 c hc

/-! ## The word behind the terminator -/

/-- Without a semicolon there is no terminator. -/
theorem markedWord?_eq_none {s : Text} (h : ';' ∉ s) : markedWord? s = none := by
  induction s with
  | nil => rfl
  | cons c s ih =>
    have hafter : Text.after? terminator (c :: s) = none := by
      refine Option.eq_none_iff_forall_ne_some.2 fun tail htail => h ?_
      rw [Text.after?_eq_some_iff.1 htail]
      exact List.mem_cons_self
    simp only [markedWord?, hafter]
    exact ih (fun hmem => h (List.mem_cons_of_mem _ hmem))

/-- The word that a terminator marks is the first one behind it. -/
theorem markedWord?_terminator (h : BlankNext rest) :
    markedWord? (terminator ++ rest) = if (Text.firstWord rest).isEmpty then none else some (Text.firstWord rest) := by
  have hafter : Text.after? terminator (';' :: '"' :: rest) = some rest := Text.after?_eq_some_iff.2 rfl
  rw [show terminator ++ rest = ';' :: '"' :: rest from rfl, markedWord?]
  simp only [hafter]
  change (if (rest.head?.any Text.isBlank && !(Text.firstWord rest).isEmpty) = true then some (Text.firstWord rest)
    else markedWord? ('"' :: rest)) = _
  cases rest with
  | nil => rfl
  | cons c rest =>
    have hblank : ((c :: rest).head?.any Text.isBlank) = true := h c rfl
    rw [hblank, Bool.true_and]
    by_cases hword : Text.firstWord (c :: rest) = []
    · have hnone : markedWord? ('"' :: c :: rest) = none := by
        refine markedWord?_eq_none fun hmem => ?_
        rcases List.mem_cons.1 hmem with hmem | hmem
        · exact absurd hmem (by decide)
        · exact absurd (Text.isBlank_of_firstWord_eq_nil hword ';' hmem) (by decide)
      rw [hword, hnone]
      rfl
    · have hsome : (Text.firstWord (c :: rest)).isEmpty = false := List.isEmpty_eq_false_iff.2 hword
      rw [hsome]
      rfl

/-- The first field behind a terminator is the marked word. -/
theorem markedWord?_fields (h : IsToken field) (fields : List Text) :
    markedWord? (terminator ++ '\t' :: Text.joinWith ['\t'] (field :: fields)) = some field := by
  obtain ⟨rest, hjoined, hrest, -⟩ := exists_joinWith_cons field fields
  have hword : Text.firstWord ('\t' :: (field ++ rest)) = field := by
    rw [Text.firstWord, List.dropWhile_cons_of_pos (by decide), Text.dropWhile_eq_self]
    · exact Text.takeWhile_append_stop (fun c hc => by simp [h.2 c hc]) (fun c hc => by simp [hrest c hc])
    · intro c hc
      rw [List.head?_append_of_ne_nil _ h.1] at hc
      exact h.2 c (List.mem_of_head? hc)
  rw [hjoined, markedWord?_terminator (blankNext_cons (by decide) _), hword, if_neg (by simpa using h.1)]

/-! ## Attributes -/

/-- An attribute starts with a word and a colon. -/
theorem attributeAt?_eq_none {s : Text} (h : ∀ t, s.dropWhile Text.isWordChar ≠ ':' :: t) : attributeAt? s = none := by
  unfold attributeAt?
  split
  · rename_i t ht
    exact absurd ht (h t)
  · rfl

/-- A word that no colon follows starts no attribute. -/
theorem attributeAt?_plain (hc : ':' ∉ field) (h : BlankNext rest) : attributeAt? (field ++ rest) = none := by
  refine attributeAt?_eq_none fun t ht => ?_
  induction field with
  | nil =>
    rw [List.nil_append, Text.dropWhile_eq_self (fun c hc => isWordChar_of_isBlank (h c hc))] at ht
    exact absurd (h ':' (by rw [ht]; rfl)) (by decide)
  | cons c field ih =>
    rw [List.mem_cons, not_or] at hc
    rw [List.cons_append] at ht
    by_cases hword : Text.isWordChar c = true
    · rw [List.dropWhile_cons_of_pos hword] at ht
      exact ih hc.2 ht
    · rw [List.dropWhile_cons_of_neg hword] at ht
      exact hc.1 (List.cons.inj ht).1.symm

/-- A blank starts no attribute and keeps words apart. -/
theorem attributesFrom_blankNext (h : BlankNext rest) (afterWord : Bool) :
    attributesFrom 0 afterWord rest = attributesFrom 0 false rest.tail := by
  cases rest with
  | nil => rfl
  | cons c rest =>
    have hnone : attributeAt? (c :: rest) = none := attributeAt?_plain List.not_mem_nil h
    rw [attributesFrom, hnone, ite_self, isWordChar_of_isBlank (h c rfl), List.tail_cons]

/-- A field without a colon gives no attribute. -/
theorem attributesFrom_plain (hc : ':' ∉ field) (h : BlankNext rest) (afterWord : Bool) :
    attributesFrom 0 afterWord (field ++ rest) = attributesFrom 0 false rest.tail := by
  induction field generalizing afterWord with
  | nil => exact attributesFrom_blankNext h afterWord
  | cons c field ih =>
    have hnone : attributeAt? (c :: (field ++ rest)) = none := attributeAt?_plain hc h
    rw [List.cons_append, attributesFrom, hnone, ite_self]
    exact ih (fun hmem => hc (List.mem_cons_of_mem _ hmem)) _

/-- The field of an attribute starts with it. -/
theorem attributeAt?_written (hkey : IsKey key) (hvalue : IsToken value) (h : BlankNext rest) :
    attributeAt? (written (key, value) ++ rest) = some (key, value) := by
  have htext : written (key, value) ++ rest = key ++ (':' :: (value ++ rest)) := by simp [written]
  have hstop : ∀ c, (':' :: (value ++ rest)).head? = some c → Text.isWordChar c = false := by
    intro c hc
    cases hc
    decide
  have hvalueTake : (value ++ rest).takeWhile (fun c => !Text.isBlank c) = value :=
    Text.takeWhile_append_stop (fun c hc => by simp [hvalue.2 c hc]) (fun c hc => by simp [h c hc])
  simp only [attributeAt?, htext, Text.takeWhile_append_stop hkey.2 hstop, Text.dropWhile_append_stop hkey.2 hstop,
    hvalueTake]
  simp [hkey.1, hvalue.1]

/-- Passing over a text leaves what follows it. -/
theorem exists_attributesFrom_skip (passed : Text) (afterWord : Bool) (rest : Text) :
    ∃ afterWord', attributesFrom passed.length afterWord (passed ++ rest) = attributesFrom 0 afterWord' rest := by
  induction passed generalizing afterWord with
  | nil => exact ⟨afterWord, rfl⟩
  | cons c passed ih => exact ih (Text.isWordChar c)

/-- The field of an attribute gives that attribute and no other. -/
theorem attributesFrom_written (hkey : IsKey key) (hvalue : IsToken value) (h : BlankNext rest) :
    attributesFrom 0 false (written (key, value) ++ rest) = (key, value) :: attributesFrom 0 false rest.tail := by
  obtain ⟨c, key', rfl⟩ := List.exists_cons_of_ne_nil hkey.1
  -- what is passed over is all of the field behind the first character of its key
  have htext : written (c :: key', value) ++ rest = c :: ((key' ++ ':' :: value) ++ rest) := by simp [written]
  have hlength : (c :: key').length + value.length = (key' ++ ':' :: value).length := by
    simp only [List.length_cons, List.length_append]
    omega
  have hfound := attributeAt?_written hkey hvalue h
  obtain ⟨afterWord, hskip⟩ := exists_attributesFrom_skip (key' ++ ':' :: value) (Text.isWordChar c) rest
  rw [htext] at hfound ⊢
  simp only [attributesFrom, hfound, Bool.false_eq_true, if_false]
  rw [hlength, hskip]
  rw [attributesFrom_blankNext h]

/-- Fields of attributes give these attributes. -/
theorem attributesFrom_fields {pairs : List (Text × Text)} (hkeys : ∀ pair ∈ pairs, IsKey pair.1)
    (hvalues : ∀ pair ∈ pairs, IsToken pair.2) :
    attributesFrom 0 false (Text.joinWith ['\t'] (pairs.map written)) = pairs := by
  induction pairs with
  | nil => rfl
  | cons pair pairs ih =>
    obtain ⟨rest, hjoined, hrest, htail⟩ := exists_joinWith_cons (written pair) (pairs.map written)
    rw [List.map_cons, hjoined,
      attributesFrom_written (hkeys pair List.mem_cons_self) (hvalues pair List.mem_cons_self) hrest, htail,
      ih (fun p hp => hkeys p (List.mem_cons_of_mem _ hp)) (fun p hp => hvalues p (List.mem_cons_of_mem _ hp))]

/-! ## Blanks around the fields -/

/-- Blanks behind a text neither start an attribute nor change one. -/
theorem attributeAt?_append_blanks (s : Text) {back : Text} (h : ∀ c ∈ back, Text.isBlank c = true) :
    attributeAt? (s ++ back) = attributeAt? s := by
  have hblank : BlankNext back := fun c hc => h c (List.mem_of_head? hc)
  have hword : ∀ c, back.head? = some c → Text.isWordChar c = false := fun c hc => isWordChar_of_isBlank (hblank c hc)
  have hdrop := Text.dropWhile_append_of_stop s hword
  by_cases hcolon : ∃ t, s.dropWhile Text.isWordChar = ':' :: t
  · obtain ⟨t, ht⟩ := hcolon
    have hvalue : (t ++ back).takeWhile (fun c => !Text.isBlank c) = t.takeWhile (fun c => !Text.isBlank c) :=
      Text.takeWhile_append_of_stop t (fun c hc => by rw [hblank c hc]; rfl)
    rw [ht, List.cons_append] at hdrop
    simp only [attributeAt?, hdrop, ht, Text.takeWhile_append_of_stop s hword, hvalue]
  · rw [not_exists] at hcolon
    rw [attributeAt?_eq_none hcolon, attributeAt?_eq_none]
    intro t ht
    rw [hdrop] at ht
    cases hs : s.dropWhile Text.isWordChar with
    | nil =>
      rw [hs, List.nil_append] at ht
      exact absurd (hblank ':' (by rw [ht]; rfl)) (by decide)
    | cons c rest =>
      rw [hs, List.cons_append] at ht
      obtain ⟨rfl, -⟩ := List.cons.inj ht
      exact hcolon rest hs

/-- Blanks give no attributes. -/
theorem attributesFrom_blanks {back : Text} (h : ∀ c ∈ back, Text.isBlank c = true) (skip : Nat) (afterWord : Bool) :
    attributesFrom skip afterWord back = [] := by
  induction back generalizing skip afterWord with
  | nil => rfl
  | cons c back ih =>
    have hrest := ih (fun d hd => h d (List.mem_cons_of_mem _ hd))
    cases skip with
    | zero => rw [attributesFrom_blankNext (fun d hd => h d (List.mem_of_head? hd)), List.tail_cons, hrest]
    | succ skip => rw [attributesFrom, hrest]

/-- Blanks behind a text change none of its attributes. -/
theorem attributesFrom_append_blanks {back : Text} (h : ∀ c ∈ back, Text.isBlank c = true) (skip : Nat) (afterWord : Bool)
    (s : Text) : attributesFrom skip afterWord (s ++ back) = attributesFrom skip afterWord s := by
  induction s generalizing skip afterWord with
  | nil => exact attributesFrom_blanks h skip afterWord
  | cons c s ih =>
    have hat : attributeAt? (c :: (s ++ back)) = attributeAt? (c :: s) := attributeAt?_append_blanks (c :: s) h
    simp only [List.cons_append, attributesFrom, hat, ih]

/-- The attributes of a text are found between its blanks. -/
theorem attributesOf_strip (s : Text) : attributesOf s.strip = attributesOf s := by
  refine Text.apply_strip ?_ ?_ s
  · intro s back h
    rw [attributesOf, attributesFrom_append_blanks h, attributesOf]
  · intro c s h
    rw [attributesOf, attributesFrom_blankNext (blankNext_cons h s), List.tail_cons, attributesOf]

/-- A terminator hides none of the attributes behind it. -/
theorem attributesOf_terminator (h : BlankNext rest) : attributesOf (terminator ++ rest) = attributesOf rest := by
  rw [attributesOf, attributesFrom_plain (by decide) h, ← attributesFrom_blankNext h false, attributesOf]

end SymbolSearch.Tags
