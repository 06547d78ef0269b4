import SymbolSearch.Proofs.Characters
import SymbolSearch.Proofs.Text
import SymbolSearch.Text.LowerCase

/-!
# Lower case: what stays and what moves

What comes out of lowering a text stays as it is wherever it stands (`isLowered_of_mem_lower`, `lowerFrom_eq_self`). Which form
a capital sigma takes depends on its neighbours, but not across an underscore, which is neither a letter nor passed over:
lowering goes segment by segment (`splitOn_lower`).
-/

namespace SymbolSearch.Text

/-! ## The table of capital letters -/

/-- The lower-case letter of the first capital letter in a row of the table. -/
def shiftedFirst (row : Nat × Nat × Nat × Int) : Nat := (row.1 + row.2.2.2).toNat

/-- The lower-case letter of the last capital letter in a row. -/
def shiftedLast (row : Nat × Nat × Nat × Int) : Nat := (row.2.1 + row.2.2.2).toNat

/-- No lower-case letter of a row is a capital letter of another one: the two stretches of code points do not meet, or they
interlace. -/
def missesRow (row other : Nat × Nat × Nat × Int) : Bool :=
  Nat.blt (shiftedLast row) other.1 || Nat.blt other.2.1 (shiftedFirst row) ||
    (Nat.beq other.2.2.1 2 && (Nat.beq row.2.2.1 2 || Nat.beq row.1 row.2.1) &&
      Nat.beq ((shiftedFirst row + other.1) % 2) 1)

/-- The lower-case letters of a row are code points behind the underscore and the ASCII capitals, and neither blanks nor the two
capital letters that the table leaves out: the I with a dot above and the sigma. -/
def shiftsApart (row : Nat × Nat × Nat × Int) : Bool :=
  Nat.blt 0x5F (shiftedFirst row) && (Nat.blt (shiftedLast row) 0xD800 || Nat.blt 0xDFFF (shiftedFirst row)) &&
    Nat.blt (shiftedLast row) 0x110000 && (Nat.blt (shiftedLast row) 0x130 || Nat.blt 0x130 (shiftedFirst row)) &&
    (Nat.blt (shiftedLast row) 0x3A3 || Nat.blt 0x3A3 (shiftedFirst row)) &&
    blankRanges.all (fun range => Nat.blt (shiftedLast row) range.1 || Nat.blt range.2 (shiftedFirst row))

/-- Rows are compared with rows, not letters with rows: the table holds far fewer rows than letters. -/
theorem lowerShifts_apart :
    (lowerShifts.all fun row => shiftsApart row && lowerShifts.all (missesRow row)) = true := by
  decide +kernel

/-- A character that lowering leaves as it is wherever it stands. -/
def IsLowered (c : Char) : Prop := lowerChar c = [c] ∧ c.toNat ≠ 0x3A3

instance (c : Char) : Decidable (IsLowered c) :=
  inferInstanceAs (Decidable (lowerChar c = [c] ∧ c.toNat ≠ 0x3A3))

/-- A character that comes out of lowering another one: it stays as it is, and is neither a blank nor the underscore. -/
structure IsSettled (c : Char) : Prop where
  lowered : IsLowered c
  notBlank : isBlank c = false
  notMark : c ≠ '_'

instance (c : Char) : Decidable (IsSettled c) :=
  decidable_of_iff (IsLowered c ∧ isBlank c = false ∧ c ≠ '_')
    ⟨fun ⟨h1, h2, h3⟩ => ⟨h1, h2, h3⟩, fun ⟨h1, h2, h3⟩ => ⟨h1, h2, h3⟩⟩

/-- The lower-case letter that the table gives for a capital one is settled. -/
theorem isSettled_of_mem_lowerShifts {lo hi step n : Nat} {shift : Int} (hrow : (lo, hi, step, shift) ∈ lowerShifts)
    (hlo : lo ≤ n) (hhi : n ≤ hi) (hstep : (n - lo) % step = 0) : IsSettled (Char.ofNat (n + shift).toNat) := by
  have hall := List.all_eq_true.1 lowerShifts_apart _ hrow
  simp only [shiftsApart, missesRow, shiftedFirst, shiftedLast, Bool.and_eq_true, Bool.or_eq_true, Nat.blt_eq,
    Nat.beq_eq, List.all_eq_true] at hall
  obtain ⟨⟨⟨⟨⟨⟨hmark, hplane⟩, hlast⟩, hdotted⟩, hsigma⟩, hblank⟩, hmisses⟩ := hall
  generalize hm : (n + shift).toNat = m
  have hfirst : (lo + shift).toNat ≤ m := by omega
  have hlast' : m ≤ (hi + shift).toNat := by omega
  have hvalid : m.isValidChar := by
    rcases hplane with h | h
    · exact Or.inl (by omega)
    · exact Or.inr ⟨by omega, by omega⟩
  have hnat : (Char.ofNat m).toNat = m := by
    rw [Char.ofNat, dif_pos hvalid]
    rfl
  refine ⟨⟨?_, by omega⟩, ?_, ?_⟩
  · have hcapital : ¬('A' ≤ Char.ofNat m ∧ Char.ofNat m ≤ 'Z') := by
      rintro ⟨-, h⟩
      have h : (Char.ofNat m).toNat ≤ 0x5A := h
      omega
    have hmissed : ∀ lo' hi' step' shift', (lo', hi', step', shift') ∈ lowerShifts → lo' ≤ m → m ≤ hi' →
        (m - lo') % step' ≠ 0 := by
      intro lo' hi' step' shift' hrow' hlo' hhi' hstep'
      have hmisses : ((hi + shift).toNat < lo' ∨ hi' < (lo + shift).toNat) ∨
          (step' = 2 ∧ (step = 2 ∨ lo = hi)) ∧ ((lo + shift).toNat + lo') % 2 = 1 := hmisses _ hrow'
      rcases hmisses with (h | h) | ⟨⟨rfl, rfl | rfl⟩, hodd⟩
      · omega
      · omega
      -- the other row takes every other code point, and its first one has another parity
      · omega
      · omega
    unfold lowerChar
    simp only [hnat, Bool.and_eq_true, decide_eq_true_eq, if_neg hcapital]
    split
    · rfl
    · rw [if_neg (by omega), List.find?_eq_none.2]
      rintro ⟨lo', hi', step', shift'⟩ hrow' h
      simp only [Bool.and_eq_true, decide_eq_true_eq, beq_iff_eq] at h
      exact hmissed lo' hi' step' shift' hrow' h.1.1 h.1.2 h.2
  · rw [isBlank, hnat, Bool.eq_false_iff]
    intro h
    obtain ⟨range, hmem, hstart, hend⟩ := exists_of_contains h
    rcases hblank range hmem with h | h <;> omega
  · intro h
    have h : (Char.ofNat m).toNat = 0x5F := by rw [h]; rfl
    omega

/-- A character is left as it is when it is lowered, or becomes settled ones. -/
theorem lowerChar_eq_self_or (c : Char) : lowerChar c = [c] ∨ ∀ d ∈ lowerChar c, IsSettled d := by
  have hletters : ∀ n < 26, IsSettled (Char.ofNat (0x61 + n)) := by decide
  have hdotted : IsSettled (Char.ofNat 0x69) ∧ IsSettled (Char.ofNat 0x307) := by decide
  unfold lowerChar
  simp only
  split
  · split
    · rename_i hcapital
      right
      simp only [Bool.and_eq_true, decide_eq_true_eq] at hcapital
      have hlo : 0x41 ≤ c.toNat := hcapital.1
      have hhi : c.toNat ≤ 0x5A := hcapital.2
      intro d hd
      rw [List.mem_singleton.1 hd, show c.toNat + 32 = 0x61 + (c.toNat - 0x41) by omega]
      exact hletters _ (by omega)
    · exact Or.inl rfl
  · split
    · right
      intro d hd
      rcases List.mem_cons.1 hd with rfl | hd
      · exact hdotted.1
      · rw [List.mem_singleton.1 hd]
        exact hdotted.2
    · split
      · rename_i lo hi step shift hfind
        right
        intro d hd
        have hcovers := List.find?_some hfind
        simp only [Bool.and_eq_true, decide_eq_true_eq, beq_iff_eq] at hcovers
        rw [List.mem_singleton.1 hd]
        exact isSettled_of_mem_lowerShifts (List.mem_of_find?_eq_some hfind) hcovers.1.1 hcovers.1.2 hcovers.2
      · exact Or.inl rfl

/-! ## Whole texts -/

/-- A character of a lowered text is settled, or was there before and stays. -/
theorem of_mem_lowerFrom {inWord : Bool} {s : Text} {d : Char} (h : d ∈ lowerFrom inWord s) :
    IsSettled d ∨ d ∈ s ∧ IsLowered d := by
  have hsigma : ∀ final : Bool, IsSettled (Char.ofNat (if final then 0x3C2 else 0x3C3)) := by decide
  induction s generalizing inWord with
  | nil => cases h
  | cons c rest ih =>
    rw [lowerFrom] at h
    split at h
    · rcases List.mem_cons.1 h with rfl | h
      · exact Or.inl (hsigma _)
      · exact (ih h).imp_right (fun hd => ⟨List.mem_cons_of_mem _ hd.1, hd.2⟩)
    · rename_i hne
      rcases List.mem_append.1 h with h | h
      · rcases lowerChar_eq_self_or c with hc | hc
        · rw [hc, List.mem_singleton] at h
          subst h
          exact Or.inr ⟨List.mem_cons_self, hc, hne⟩
        · exact Or.inl (hc d h)
      · exact (ih h).imp_right (fun hd => ⟨List.mem_cons_of_mem _ hd.1, hd.2⟩)

/-- The characters of a lowered text stay as they are when it is lowered again. -/
theorem isLowered_of_mem_lower {s : Text} {d : Char} (h : d ∈ lower s) : IsLowered d := by
  rcases of_mem_lowerFrom h with hd | ⟨-, hd⟩
  · exact hd.lowered
  · exact hd

/-- Lowering passes over characters that stay, whatever precedes them. -/
theorem exists_lowerFrom_append {s : Text} (h : ∀ c ∈ s, IsLowered c) (inWord : Bool) (rest : Text) :
    ∃ inWord', lowerFrom inWord (s ++ rest) = s ++ lowerFrom inWord' rest := by
  induction s generalizing inWord with
  | nil => exact ⟨inWord, rfl⟩
  | cons c s ih =>
    have hc := h c List.mem_cons_self
    obtain ⟨inWord', hs⟩ := ih (fun d hd => h d (List.mem_cons_of_mem _ hd)) (if isCaseIgnorable c then inWord else isCased c)
    refine ⟨inWord', ?_⟩
    rw [List.cons_append, lowerFrom, if_neg hc.2, hs, hc.1]
    rfl

/-- A text whose characters all stay is its own lower-case form. -/
theorem lowerFrom_eq_self {s : Text} (h : ∀ c ∈ s, IsLowered c) (inWord : Bool) : lowerFrom inWord s = s := by
  obtain ⟨inWord', hs⟩ := exists_lowerFrom_append h inWord []
  rw [List.append_nil] at hs
  rw [hs, lowerFrom, List.append_nil]

/-- What is already lower case and stands in a text stands in its lower-case form. -/
theorem infix_lowerFrom {needle s : Text} (h : ∀ c ∈ needle, IsLowered c) (hs : needle <:+: s) (inWord : Bool) :
    needle <:+: lowerFrom inWord s := by
  obtain ⟨front, back, rfl⟩ := hs
  rw [List.append_assoc]
  induction front generalizing inWord with
  | nil =>
    obtain ⟨inWord', he⟩ := exists_lowerFrom_append h inWord back
    rw [List.nil_append, he]
    exact List.infix_append_left
  | cons c front ih =>
    rw [List.cons_append, lowerFrom]
    split
    · exact List.infix_cons (ih _)
    · exact (ih _).trans List.infix_append_right

/-- A text that is not empty has a lower-case form that is not empty. -/
theorem lower_ne_nil {s : Text} (h : s ≠ []) : lower s ≠ [] := by
  cases s with
  | nil => exact absurd rfl h
  | cons c rest =>
    have hchar : lowerChar c ≠ [] := by
      unfold lowerChar
      simp only
      split
      · split <;> exact List.cons_ne_nil _ _
      · split
        · exact List.cons_ne_nil _ _
        · split <;> exact List.cons_ne_nil _ _
    rw [lower, lowerFrom]
    split
    · exact List.cons_ne_nil _ _
    · exact List.append_ne_nil_of_left_ne_nil hchar _

/-- Lowering brings no blanks. -/
theorem isBlank_of_mem_lower {s : Text} (h : ∀ c ∈ s, isBlank c = false) {d : Char} (hd : d ∈ lower s) : isBlank d = false := by
  rcases of_mem_lowerFrom hd with hd | ⟨hd, -⟩
  · exact hd.notBlank
  · exact h d hd

/-! ## Segments -/

/-- What follows behind an underscore has no say in which letter follows before it. -/
theorem casedFollows_append_mark (s rest : Text) : casedFollows (s ++ '_' :: rest) = casedFollows s := by
  have hignorable : isCaseIgnorable '_' = false := by decide
  have hcased : isCased '_' = false := by decide
  unfold casedFollows
  induction s with
  | nil => simp [hignorable, hcased]
  | cons c s ih =>
    rw [List.cons_append]
    cases hc : isCaseIgnorable c with
    | true => rw [List.dropWhile_cons_of_pos hc, List.dropWhile_cons_of_pos hc, ih]
    | false => rw [List.dropWhile_cons_of_neg (by simp [hc]), List.dropWhile_cons_of_neg (by simp [hc])]

/-- A text is lowered before and behind an underscore on its own. -/
theorem lowerFrom_append_mark (inWord : Bool) (s rest : Text) :
    lowerFrom inWord (s ++ '_' :: rest) = lowerFrom inWord s ++ '_' :: lower rest := by
  induction s generalizing inWord with
  | nil => rfl
  | cons c s ih =>
    rw [List.cons_append, lowerFrom, lowerFrom]
    simp only [casedFollows_append_mark, ih]
    split
    · rfl
    · rw [List.append_assoc]

/-- Parts joined by underscores are lowered one by one. -/
theorem lower_joinWith (parts : List Text) : lower (joinWith ['_'] parts) = joinWith ['_'] (parts.map lower) := by
  induction parts with
  | nil => rfl
  | cons part parts ih =>
    by_cases hne : parts = []
    · rw [hne]
      rfl
    · have hne' : parts.map lower ≠ [] := by simpa using hne
      rw [joinWith_cons hne, List.append_assoc, List.singleton_append, lower, lowerFrom_append_mark, ih, List.map_cons,
        joinWith_cons hne', List.append_assoc, List.singleton_append, lower]

/-- The segments of a lowered name are the lowered segments. -/
theorem splitOn_lower (s : Text) : splitOn '_' (lower s) = (splitOn '_' s).map lower := by
  have hfree : ∀ part ∈ (splitOn '_' s).map lower, '_' ∉ part := by
    intro part hpart hmark
    obtain ⟨segment, hsegment, rfl⟩ := List.mem_map.1 hpart
    rcases of_mem_lowerFrom hmark with h | ⟨h, -⟩
    · exact h.notMark rfl
    · exact not_mem_of_mem_splitOn hsegment h
  have hne : (splitOn '_' s).map lower ≠ [] := by simpa using splitOn_ne_nil '_' s
  calc splitOn '_' (lower s)
      = splitOn '_' (lower (joinWith ['_'] (splitOn '_' s))) := by rw [joinWith_splitOn]
    _ = splitOn '_' (joinWith ['_'] ((splitOn '_' s).map lower)) := by rw [lower_joinWith]
    _ = (splitOn '_' s).map lower := splitOn_joinWith hne hfree

end SymbolSearch.Text
