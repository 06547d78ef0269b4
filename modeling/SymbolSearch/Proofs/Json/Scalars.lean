import Mathlib.Tactic.SplitIfs
import SymbolSearch.Json.Writer
import SymbolSearch.Proofs.Characters
import SymbolSearch.Proofs.Text

/-!
# Strings and integers read back

What the writer makes of a text or an integer, the reader takes for that text or integer (`stringBody_flatMap_escapeChar`,
`number?_ofInt`). A character is escaped where the reader would not take it for itself (`escapeChar_cases`), so a text may be followed by
anything; an integer ends where no digit, point or exponent follows (`Follows`).
-/

namespace SymbolSearch.Json

/-! ## Strings -/

/-- The codes of control characters are written with four hexadecimal digits that denote them. -/
theorem hexNumber?_hexPadded {n : Nat} (h : n < 0x20) :
    ∃ a b c d, Text.hexPadded 4 n = [a, b, c, d] ∧ hexNumber? [a, b, c, d] = some n := by
  have hall : ∀ n < 0x20, (Text.hexPadded 4 n).length = 4 ∧ hexNumber? (Text.hexPadded 4 n) = some n := by decide +kernel
  obtain ⟨hlength, hvalue⟩ := hall n h
  obtain ⟨a, b, c, d, hdigits⟩ : ∃ a b c d, Text.hexPadded 4 n = [a, b, c, d] := List.length_eq_four.1 hlength
  exact ⟨a, b, c, d, hdigits, hdigits ▸ hvalue⟩

/-- A character is written as an escape of one letter, as an escape of its code, or as itself. -/
theorem escapeChar_cases (c : Char) :
    (∃ letter, escapeChar c = ['\\', letter] ∧ letter ≠ 'u' ∧ simpleEscape? letter = some c) ∨
      (escapeChar c = ['\\', 'u'] ++ Text.hexPadded 4 c.toNat ∧ c.toNat < 0x20) ∨
      (escapeChar c = [c] ∧ ¬c.toNat < 0x20 ∧ c ≠ '"' ∧ c ≠ '\\') := by
  unfold escapeChar
  split_ifs with hquote hb hf hn hr ht hcontrol
  · rw [Bool.or_eq_true, decide_eq_true_eq, decide_eq_true_eq] at hquote
    rcases hquote with rfl | rfl
    · exact .inl ⟨'"', rfl, by decide, rfl⟩
    · exact .inl ⟨'\\', rfl, by decide, rfl⟩
  · exact .inl ⟨'b', rfl, by decide, by rw [hb]; rfl⟩
  · exact .inl ⟨'f', rfl, by decide, by rw [hf]; rfl⟩
  · exact .inl ⟨'n', rfl, by decide, by rw [hn]; rfl⟩
  · exact .inl ⟨'r', rfl, by decide, by rw [hr]; rfl⟩
  · exact .inl ⟨'t', rfl, by decide, by rw [ht]; rfl⟩
  · exact .inr (.inl ⟨rfl, hcontrol⟩)
  · rw [Bool.or_eq_true, decide_eq_true_eq, decide_eq_true_eq, not_or] at hquote
    exact .inr (.inr ⟨rfl, hcontrol, hquote⟩)

/-- A character as it is written stands for itself. -/
theorem stringBody_escapeChar (c : Char) (rest : Text) : stringBody (escapeChar c ++ rest) = prepend c (stringBody rest) := by
  obtain ⟨letter, hwritten, hletter, hvalue⟩ | ⟨hwritten, hcontrol⟩ | ⟨hwritten, hcontrol, hquote, hslash⟩ := escapeChar_cases c
  · rw [hwritten, List.cons_append, List.singleton_append, stringBody, hvalue]
    intro a b c d rest' hu
    exact absurd hu hletter
  · obtain ⟨a, b, c', d, hdigits, hvalue⟩ := hexNumber?_hexPadded hcontrol
    have hhigh : isHighSurrogate c.toNat = false := by rw [isHighSurrogate, decide_eq_false (by omega), Bool.false_and]
    have hlow : isLowSurrogate c.toNat = false := by rw [isLowSurrogate, decide_eq_false (by omega), Bool.false_and]
    rw [hwritten, hdigits]
    simp only [List.cons_append, List.nil_append, stringBody, hvalue, hhigh, hlow, Bool.false_eq_true, if_false, Char.ofNat_toNat]
  · rw [hwritten, List.singleton_append, stringBody, if_neg (by simp [hcontrol, hslash])]
    · exact hquote
    · intro a b c' d rest' hc
      exact absurd hc hslash
    · intro d rest' hc
      exact absurd hc hslash

/-- A written text is read as the text, up to its closing quote. -/
theorem stringBody_flatMap_escapeChar (s rest : Text) : stringBody (s.flatMap escapeChar ++ '"' :: rest) = some (s, rest) := by
  induction s with
  | nil => rfl
  | cons c s ih => rw [List.flatMap_cons, List.append_assoc, stringBody_escapeChar, ih, prepend]

/-! ## Integers -/

/-- What follows a value in a written document: nothing, a comma or the end of the line. -/
def Follows (rest : Text) : Prop :=
  ∀ c, rest.head? = some c → c = ',' ∨ c = '\n'

/-- A character of a number is an ASCII digit. -/
theorem isAsciiDigit_of_mem_ofNat {n : Nat} {c : Char} (h : c ∈ Text.ofNat n) : Text.isAsciiDigit c = true := by
  obtain ⟨hlo, hhi⟩ := Char.isDigit_iff_toNat.1 (Nat.isDigit_of_mem_toDigits (by decide) (by decide) h)
  exact Bool.and_eq_true_iff.2 ⟨decide_eq_true hlo, decide_eq_true hhi⟩

/-- A number has a digit. -/
theorem ofNat_ne_nil (n : Nat) : Text.ofNat n ≠ [] :=
  Nat.toDigits_ne_nil

/-- Only zero is written with a zero in front. -/
theorem head_ofNat_ne_zero {n : Nat} (h : 0 < n) : (Text.ofNat n).head? ≠ some '0' := by
  induction n using Nat.strongRecOn with
  | ind n ih =>
    by_cases hn : n < 10
    · have hall : ∀ n < 10, 0 < n → (Text.ofNat n).head? ≠ some '0' := by decide
      exact hall n hn h
    · rw [Text.ofNat, Nat.toDigits_of_base_le (by decide) (by omega), List.head?_append_of_ne_nil _ Nat.toDigits_ne_nil]
      exact ih (n / 10) (by omega) (by omega)

/-- The digits of a number end where nothing, a comma or the end of the line follows. -/
theorem wholePart?_ofNat (n : Nat) {rest : Text} (hrest : Follows rest) :
    wholePart? (Text.ofNat n ++ rest) = some (Text.ofNat n, rest) := by
  have hstop : ∀ c, rest.head? = some c → Text.isAsciiDigit c = false := by
    intro c hc
    rcases hrest c hc with rfl | rfl <;> decide
  rcases Nat.eq_zero_or_pos n with rfl | hpos
  · rfl
  · have hhead : (Text.ofNat n ++ rest).head? ≠ some '0' := by
      rw [List.head?_append_of_ne_nil _ (ofNat_ne_nil n)]
      exact head_ofNat_ne_zero hpos
    unfold wholePart?
    split
    · rename_i tail hzero
      rw [hzero] at hhead
      exact absurd rfl hhead
    · rw [Number.digits, Text.takeWhile_append_stop (fun c hc => isAsciiDigit_of_mem_ofNat hc) hstop,
        Text.dropWhile_append_stop (fun c hc => isAsciiDigit_of_mem_ofNat hc) hstop]
      exact if_neg (by rw [List.isEmpty_iff]; exact ofNat_ne_nil n)

/-- Behind an integer there is no fraction. -/
theorem fractionPart?_of_follows {rest : Text} (hrest : Follows rest) : fractionPart? rest = some (none, rest) := by
  unfold fractionPart?
  split
  · rename_i tail
    rcases hrest '.' rfl with h | h <;> exact absurd h (by decide)
  · rfl

/-- Behind an integer there is no exponent. -/
theorem exponentPart?_of_follows {rest : Text} (hrest : Follows rest) : exponentPart? rest = some (none, rest) := by
  cases rest with
  | nil => rfl
  | cons c tail =>
    rw [exponentPart?, if_neg]
    rcases hrest c rfl with rfl | rfl <;> decide

/-- A number does not start with a minus sign. -/
theorem minus_ofNat (n : Nat) (rest : Text) : Number.minus (Text.ofNat n ++ rest) = (false, Text.ofNat n ++ rest) := by
  unfold Number.minus
  split
  · rename_i tail hminus
    have hhead : (Text.ofNat n).head? = some '-' := by
      rw [← List.head?_append_of_ne_nil _ (ofNat_ne_nil n), hminus]
      rfl
    exact absurd (isAsciiDigit_of_mem_ofNat (List.mem_of_head? hhead)) (by decide)
  · rfl

/-- Digits that end where the number does are read as an integer, with the sign in front of them. -/
theorem number?_of_minus (rules : Rules) {s rest : Text} {negative : Bool} {n : Nat} (hrest : Follows rest)
    (hs : Number.minus s = (negative, Text.ofNat n ++ rest)) :
    number? rules s = (rules.integer (if negative then -(n : Int) else n)).map fun v => (v, rest) := by
  rw [number?, hs]
  simp only [wholePart?_ofNat n hrest, fractionPart?_of_follows hrest, exponentPart?_of_follows hrest, Option.bind_eq_bind,
    Option.bind_some, Text.digitsValue_ofNat]
  cases rules.integer (if negative then -(n : Int) else n) <;> rfl

/-- A written integer is read as the integer, under the rules for integers. -/
theorem number?_ofInt (rules : Rules) (n : Int) {rest : Text} (hrest : Follows rest) :
    number? rules (Text.ofInt n ++ rest) = (rules.integer n).map fun v => (v, rest) := by
  cases n with
  | ofNat n => exact number?_of_minus rules hrest (minus_ofNat n rest)
  | negSucc n => exact number?_of_minus rules hrest (s := '-' :: Text.ofNat (n + 1) ++ rest) rfl

end SymbolSearch.Json
