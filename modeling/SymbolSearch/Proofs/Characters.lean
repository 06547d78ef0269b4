import Mathlib.Data.List.Basic
import SymbolSearch.Text.Blank
import SymbolSearch.Text.Digit
import SymbolSearch.Text.WordChar

/-!
# Classes of characters

No character is a word character and a blank (`isBlank_of_isWordChar`). The decimal digits of a number are digits, and reading
them gives the number back (`digitsValue_ofNat`).
-/

namespace SymbolSearch.Text

variable {c : Char}

/-! ## Ranges -/

/-- A character of a class lies in one of its ranges. -/
theorem exists_of_contains {ranges : Ranges} {n : Nat} (h : ranges.contains n = true) :
    ∃ range ∈ ranges, range.1 ≤ n ∧ n ≤ range.2 := by
  fun_induction Ranges.contains ranges n with
  | case1 => cases h
  | case2 => cases h
  | case3 lo hi rest n hlo hhi => exact ⟨(lo, hi), List.mem_cons_self, Nat.le_of_not_lt hlo, hhi⟩
  | case4 lo hi rest n hlo hhi ih =>
    obtain ⟨range, hmem, hn⟩ := ih h
    exact ⟨range, List.mem_cons_of_mem _ hmem, hn⟩

/-- The ASCII word characters as ranges. -/
def asciiWordRanges : Ranges :=
  [(0x30, 0x39), (0x41, 0x5A), (0x5F, 0x5F), (0x61, 0x7A)]

/-- Ranges are compared with ranges, not characters with ranges. -/
theorem wordRanges_apart :
    ((asciiWordRanges ++ wordRanges).all fun range =>
      blankRanges.all fun blank => Nat.blt range.2 blank.1 || Nat.blt blank.2 range.1) = true := by
  decide +kernel

/-- A word character lies in a range of word characters. -/
theorem exists_range_of_isWordChar (h : isWordChar c = true) :
    ∃ range ∈ asciiWordRanges ++ wordRanges, range.1 ≤ c.toNat ∧ c.toNat ≤ range.2 := by
  simp only [isWordChar, isAsciiLetter, isAsciiDigit, Bool.or_eq_true, Bool.and_eq_true, decide_eq_true_eq] at h
  rcases h with (((⟨hlo, hhi⟩ | ⟨hlo, hhi⟩) | ⟨hlo, hhi⟩) | rfl) | h
  · exact ⟨(0x61, 0x7A), by simp [asciiWordRanges], hlo, hhi⟩
  · exact ⟨(0x41, 0x5A), by simp [asciiWordRanges], hlo, hhi⟩
  · exact ⟨(0x30, 0x39), by simp [asciiWordRanges], hlo, hhi⟩
  · exact ⟨(0x5F, 0x5F), by simp [asciiWordRanges], by decide⟩
  · obtain ⟨range, hmem, hn⟩ := exists_of_contains h
    exact ⟨range, List.mem_append_right _ hmem, hn⟩

/-- A word character is no blank. -/
theorem isBlank_of_isWordChar (h : isWordChar c = true) : isBlank c = false := by
  obtain ⟨range, hmem, hlo, hhi⟩ := exists_range_of_isWordChar h
  rw [← Bool.not_eq_true]
  intro hblank
  obtain ⟨blank, hblankMem, hlo', hhi'⟩ := exists_of_contains hblank
  have hapart := List.all_eq_true.1 (List.all_eq_true.1 wordRanges_apart _ hmem) _ hblankMem
  simp only [Bool.or_eq_true, Nat.blt_eq] at hapart
  omega

/-! ## Decimal digits -/

/-- An ASCII digit is a digit with its usual value. -/
theorem digit_of_isAsciiDigit (h : c.isDigit = true) :
    isDigit c = true ∧ digitValue? c = some (c.toNat - '0'.toNat) ∧ isWordChar c = true := by
  obtain ⟨hlo, hhi⟩ := Char.isDigit_iff_toNat.1 h
  have hascii : isAsciiDigit c = true := Bool.and_eq_true_iff.2 ⟨decide_eq_true hlo, decide_eq_true hhi⟩
  simp only [Char.reduceToNat] at hlo hhi ⊢
  refine ⟨?_, ?_, ?_⟩
  · rw [isDigit, digitRanges, Ranges.contains, if_neg (by omega), if_pos hhi]
  · rw [digitValue?, digitRanges, List.find?_cons_of_pos (by simp [hlo, hhi]), Option.map_some]
    exact congrArg some (Nat.mod_eq_of_lt (by omega))
  · simp [isWordChar, hascii]

/-- A number is written in digits. -/
theorem digit_of_mem_ofNat {n : Nat} (h : c ∈ ofNat n) :
    isDigit c = true ∧ digitValue? c = some (c.toNat - '0'.toNat) ∧ isWordChar c = true :=
  digit_of_isAsciiDigit (Nat.isDigit_of_mem_toDigits (by decide) (by decide) h)

/-- The digits of a number denote it. -/
theorem digitsValue_ofNat (n : Nat) : digitsValue (ofNat n) = n := by
  calc digitsValue (ofNat n)
      = (ofNat n).foldl (fun value c => 10 * value + (c.toNat - '0'.toNat)) 0 := by
        refine List.foldl_ext _ _ _ fun value c hc => ?_
        rw [(digit_of_mem_ofNat hc).2.1, Option.getD_some, Nat.mul_comm]
    _ = Nat.ofDigitChars 10 (Nat.toDigits 10 n) 0 := Nat.ofDigitChars_eq_foldl.symm
    _ = n := Nat.ofDigitChars_ten_toDigits

end SymbolSearch.Text
