import Mathlib
import SymbolSearch.Proofs.Text
import SymbolSearch.Toml.Value

/-!
# TOML: what readers leave and why they fail

A reader leaves a suffix of its text, and fails for one of three reasons: the text is malformed, a number in it has too many digits,
or its lists and tables stand inside each other beyond the room for them. `Reads` says so of what a reader comes to; it holds of one
reader behind another (`Reads.bind`), and so of every reader of keys, strings, numbers and moments.
-/

namespace SymbolSearch.Toml

variable {α β : Type} {room : Nat} {s rest : Text} {a : α}

/-! ## Reasons to fail -/

/-- A run of digits, with underscores among them, that has more digits than are read. -/
def HasLongNumber (s : Text) : Prop :=
  ∃ run, run <:+: s ∧ (∀ c ∈ run, Text.isAsciiDigit c = true ∨ c = '_') ∧ Number.digitLimit < run.countP Text.isAsciiDigit

/-- The room that is taken where every bracket and brace of a text stands inside those before it. -/
def nesting (s : Text) : Nat :=
  2 * s.count '[' + 3 * s.count '\x7b'

/-- What a text is like for which a reader with so much room fails. -/
def Blames (room : Nat) (s : Text) : Failure → Prop
  | .malformed => True
  | .tooManyDigits => HasLongNumber s
  | .nestedTooDeep => room < nesting s

theorem nesting_le (h : rest <:+ s) : nesting rest ≤ nesting s := by
  have hlist := h.sublist.count_le '['
  have htable := h.sublist.count_le '\x7b'
  simp only [nesting]
  omega

theorem Blames.of_suffix {failure : Failure} (h : rest <:+ s) (hrest : Blames room rest failure) : Blames room s failure := by
  cases failure with
  | malformed => trivial
  | tooManyDigits =>
    obtain ⟨run, hrun, hdigits⟩ := hrest
    exact ⟨run, hrun.trans h.isInfix, hdigits⟩
  | nestedTooDeep => exact Nat.lt_of_lt_of_le hrest (nesting_le h)

/-- What a reader comes to at the start of a text: it leaves a suffix, or it fails for a reason. -/
structure Reads (room : Nat) (s : Text) (r : Except Failure (α × Text)) : Prop where
  suffix : ∀ {a rest}, r = .ok (a, rest) → rest <:+ s
  blames : ∀ {failure}, r = .error failure → Blames room s failure

namespace Reads

theorem ok (h : rest <:+ s) (a : α) : Reads room s (.ok (a, rest)) where
  suffix := by
    rintro _ _ ⟨⟩
    exact h
  blames := by
    rintro _ ⟨⟩

theorem malformed : Reads room s (.error .malformed : Except Failure (α × Text)) where
  suffix := by
    rintro _ _ ⟨⟩
  blames := by
    rintro _ ⟨⟩
    trivial

theorem tooManyDigits (h : HasLongNumber s) : Reads room s (.error .tooManyDigits : Except Failure (α × Text)) where
  suffix := by
    rintro _ _ ⟨⟩
  blames := by
    rintro _ ⟨⟩
    exact h

variable {r : Except Failure (α × Text)} {next : α × Text → Except Failure (β × Text)}

theorem of_suffix (h : rest <:+ s) (hr : Reads room rest r) : Reads room s r where
  suffix hok := (hr.suffix hok).trans h
  blames herror := (hr.blames herror).of_suffix h

theorem cons (c : Char) (hr : Reads room s r) : Reads room (c :: s) r :=
  hr.of_suffix (List.suffix_cons c s)

/-- A reader behind another one. -/
theorem bind (hr : Reads room s r) (hnext : ∀ a rest, rest <:+ s → Reads room rest (next (a, rest))) :
    Reads room s (r >>= next) := by
  cases r with
  | ok p => exact (hnext p.1 p.2 (hr.suffix rfl)).of_suffix (hr.suffix rfl)
  | error failure =>
    constructor
    · rintro _ _ ⟨⟩
    · rintro _ ⟨⟩
      exact hr.blames rfl

theorem map (hr : Reads room s r) (f : α → β) : Reads room s (r.map fun (a, rest) => (f a, rest)) :=
  hr.bind fun a rest _ => ok (List.suffix_refl rest) (f a)

end Reads

/-! ## Fillers, strings and keys -/

theorem skipGaps_suffix (s : Text) : skipGaps s <:+ s :=
  List.dropWhile_suffix _

theorem splitFirst?_suffix {sep : Char} {front : Text} (h : s.splitFirst? sep = some (front, rest)) : rest <:+ s := by
  induction s generalizing front with
  | nil => cases h
  | cons c s ih =>
    simp only [Text.splitFirst?] at h
    split at h
    · cases h
      exact List.suffix_cons c _
    · obtain ⟨⟨front, rest⟩, hs, hpair⟩ := Option.map_eq_some_iff.1 h
      cases hpair
      exact (ih hs).trans (List.suffix_cons c s)

/-- Fillers and comments in front of a reader. -/
theorem Reads.skipFillers {next : Text → Except Failure (α × Text)} (inComment : Bool)
    (hnext : ∀ rest, rest <:+ s → Reads room rest (next rest)) : Reads room s (Toml.skipFillers inComment s >>= next) := by
  fun_induction Toml.skipFillers inComment s with
  | case1 => exact hnext [] (List.suffix_refl [])
  | case2 rest ih => exact (ih fun rest' h => hnext rest' (h.trans (List.suffix_cons _ rest))).cons _
  | case3 c rest => exact .malformed
  | case4 c rest _ _ ih => exact (ih fun rest' h => hnext rest' (h.trans (List.suffix_cons c rest))).cons c
  | case5 _ c rest _ _ ih => exact (ih fun rest' h => hnext rest' (h.trans (List.suffix_cons c rest))).cons c
  | case6 _ rest _ _ ih => exact (ih fun rest' h => hnext rest' (h.trans (List.suffix_cons _ rest))).cons _
  | case7 _ c rest => exact hnext (c :: rest) (List.suffix_refl _)

theorem reads_literalString (s : Text) : Reads room s (literalString s) := by
  unfold literalString
  split
  · rename_i body rest h
    split
    · exact .malformed
    · exact .ok (splitFirst?_suffix h) body
  · exact .malformed

theorem reads_prepend {r : Except Failure (Text × Text)} (c : Char) (hr : Reads room s r) : Reads room s (prepend c r) :=
  hr.map _

theorem reads_prependScalar {r : Except Failure (Text × Text)} (digits : Text) (hr : Reads room s r) :
    Reads room s (prependScalar digits r) := by
  unfold prependScalar
  split
  · exact reads_prepend _ hr
  · exact .malformed

theorem reads_quotedString (several : Bool) (state : StringState) (s : Text) :
    Reads room s (quotedString several state s) := by
  fun_induction quotedString several state s
  case case1 | case2 | case5 | case8 | case10 | case12 | case16 | case19 | case21 | case23 => exact .malformed
  case case3 rest _ _ => exact .ok (List.suffix_append ['"', '"', '"'] rest) []
  case case4 => exact .ok (List.suffix_cons '"' _) []
  case case7 => exact .ok (List.suffix_cons '"' _) []
  case case6 ih | case22 ih | case24 ih => exact (reads_prepend _ ih).cons _
  case case9 a b c d rest _ ih =>
    exact (reads_prependScalar _ ih).of_suffix (List.suffix_append ['\\', 'u', a, b, c, d] rest)
  case case11 a b c d e f g h rest _ ih =>
    exact (reads_prependScalar _ ih).of_suffix (List.suffix_append ['\\', 'U', a, b, c, d, e, f, g, h] rest)
  case case13 ih | case14 ih => exact (ih.cons _).cons _
  case case15 ih => exact ((reads_prepend _ ih).cons _).cons _
  case case17 ih | case18 ih | case20 ih => exact ih.cons _

theorem dropFirstLineEnd_suffix (s : Text) : dropFirstLineEnd s <:+ s := by
  unfold dropFirstLineEnd
  split
  · exact List.tail_suffix s
  · exact List.suffix_refl s

theorem reads_quotedLines (s : Text) : Reads room s (quotedLines s) := by
  refine .of_suffix (dropFirstLineEnd_suffix s) (.bind (reads_quotedString true .reading _) ?_)
  intro body rest _
  exact .ok (List.drop_suffix _ rest) _

theorem reads_literalLines (s : Text) : Reads room s (literalLines s) := by
  refine .of_suffix (dropFirstLineEnd_suffix s) ?_
  simp only [literalLines]
  split
  · exact .malformed
  · split
    · exact .malformed
    · exact .ok ((List.drop_suffix _ _).trans (List.drop_suffix _ _)) _

theorem reads_keyPart (s : Text) : Reads room s (keyPart s) := by
  unfold keyPart
  split
  · exact (reads_literalString _).cons _
  · exact (reads_quotedString _ _ _).cons _
  · simp only
    split
    · exact .malformed
    · exact .ok (List.drop_suffix _ s) _

theorem reads_moreKeyParts (fuel : Nat) (s : Text) : Reads room s (moreKeyParts fuel s) := by
  induction fuel generalizing s with
  | zero => exact .malformed
  | succ fuel ih =>
    unfold moreKeyParts
    split
    · rename_i rest
      refine .cons '.' (.of_suffix (skipGaps_suffix rest) (.bind (reads_keyPart _) ?_))
      intro part rest _
      refine .of_suffix (skipGaps_suffix rest) (.bind (ih _) ?_)
      intro parts rest _
      exact .ok (List.suffix_refl rest) _
    · exact .ok (List.suffix_refl s) _

theorem reads_key (s : Text) : Reads room s (key s) := by
  refine .bind (reads_keyPart s) ?_
  intro part rest _
  refine .of_suffix (skipGaps_suffix rest) (.bind (reads_moreKeyParts _ _) ?_)
  intro parts rest _
  exact .ok (List.suffix_refl rest) _

/-! ## Numbers and moments -/

/-- An optional reader leaves a suffix of its text. -/
structure Leaves (s : Text) (r : Option (α × Text)) : Prop where
  suffix : ∀ {a rest}, r = some (a, rest) → rest <:+ s

namespace Leaves

theorem none : Leaves s (Option.none : Option (α × Text)) where
  suffix := by
    rintro _ _ ⟨⟩

theorem some (h : rest <:+ s) (a : α) : Leaves s (Option.some (a, rest)) where
  suffix := by
    rintro _ _ ⟨⟩
    exact h

variable {r : Option (α × Text)} {next : α × Text → Option (β × Text)}

theorem of_suffix (h : rest <:+ s) (hr : Leaves rest r) : Leaves s r where
  suffix heq := (hr.suffix heq).trans h

theorem bind (hr : Leaves s r) (hnext : ∀ a rest, Leaves rest (next (a, rest))) : Leaves s (r >>= next) := by
  cases r with
  | none => exact none
  | some p => exact (hnext p.1 p.2).of_suffix (hr.suffix rfl)

/-- Behind a given character. -/
theorem behind {next : Text → Option (α × Text)} (c : Char) (hnext : ∀ rest, Leaves rest (next rest)) :
    Leaves s (behind? c s >>= next) := by
  unfold behind?
  split
  · exact (hnext s.tail).of_suffix (List.tail_suffix s)
  · exact none

/-- Where a part may be absent, the text behind it. -/
theorem getD_suffix (hr : Leaves s r) : (r.map (·.2)).getD s <:+ s := by
  cases r with
  | none => exact List.suffix_refl s
  | some p => exact hr.suffix rfl

end Leaves

theorem sign_suffix (s : Text) : (Number.sign s).2 <:+ s := by
  unfold Number.sign
  split
  · exact List.suffix_cons _ _
  · exact List.suffix_cons _ _
  · exact List.suffix_refl s

/-- The digits of a run are those of a part of the text that has only such digits and underscores. -/
theorem exists_digitRun (isKind : Char → Bool) (s : Text) :
    ∃ run, s = run ++ (digitRun isKind s).2 ∧ (∀ c ∈ run, isKind c = true ∨ c = '_') ∧
      run.filter isKind = (digitRun isKind s).1 := by
  induction s with
  | nil => exact ⟨[], rfl, by simp, rfl⟩
  | cons c s ih =>
    obtain ⟨run, hs, hrun, hdigits⟩ := ih
    simp only [digitRun]
    split
    case isTrue hc =>
      refine ⟨c :: run, congrArg (c :: ·) hs, ?_, ?_⟩
      · simpa [hc] using hrun
      · rw [List.filter_cons_of_pos hc, hdigits]
    case isFalse hc =>
      split
      case isTrue hmark =>
        rw [Bool.and_eq_true, decide_eq_true_eq] at hmark
        refine ⟨c :: run, congrArg (c :: ·) hs, ?_, ?_⟩
        · simpa [hmark.1] using hrun
        · rw [List.filter_cons_of_neg hc, hdigits]
      case isFalse => exact ⟨[], rfl, by simp, rfl⟩

theorem digitRun_suffix (isKind : Char → Bool) (s : Text) : (digitRun isKind s).2 <:+ s := by
  obtain ⟨run, hs, -⟩ := exists_digitRun isKind s
  exact ⟨run, hs.symm⟩

theorem leaves_fixedDigits? (count : Nat) (s : Text) : Leaves s (fixedDigits? count s) := by
  simp only [fixedDigits?]
  split
  · exact .some (List.drop_suffix count s) _
  · exact .none

theorem leaves_boundedDigits? (count least most : Nat) (s : Text) : Leaves s (boundedDigits? count least most s) := by
  refine .bind (leaves_fixedDigits? count s) fun n rest => ?_
  simp only
  split
  · exact .some (List.suffix_refl rest) n
  · exact .none

theorem micros_suffix (s : Text) : (micros s).2 <:+ s := by
  unfold micros
  split
  · simp only
    split
    · exact List.suffix_refl _
    · exact (List.dropWhile_suffix _).trans (List.suffix_cons _ _)
  · exact List.suffix_refl s

theorem leaves_timeOfDay? (s : Text) : Leaves s (timeOfDay? s) := by
  refine .bind (leaves_boundedDigits? 2 0 23 s) fun hour s => ?_
  refine .behind ':' fun s => .bind (leaves_boundedDigits? 2 0 59 s) fun minute s => ?_
  refine .behind ':' fun s => .bind (leaves_boundedDigits? 2 0 59 s) fun second s => ?_
  exact .some (micros_suffix s) _

theorem leaves_date? (s : Text) : Leaves s (date? s) := by
  refine .bind (leaves_fixedDigits? 4 s) fun year s => ?_
  refine .behind '-' fun s => .bind (leaves_boundedDigits? 2 1 12 s) fun month s => ?_
  refine .behind '-' fun s => .bind (leaves_boundedDigits? 2 1 31 s) fun day s => ?_
  exact .some (List.suffix_refl s) _

theorem leaves_offset? (s : Text) : Leaves s (offset? s) := by
  unfold offset?
  split
  · split
    · exact .some (List.suffix_cons _ _) _
    · split
      · refine .of_suffix (List.suffix_cons _ _) (.bind (leaves_boundedDigits? 2 0 23 _) fun hours s => ?_)
        refine .behind ':' fun s => .bind (leaves_boundedDigits? 2 0 59 s) fun minutes s => ?_
        exact .some (List.suffix_refl s) _
      · exact .none
  · exact .none

theorem timeBehindDate?_suffix {time : TimeOfDay} {offset : Option Int} (h : timeBehindDate? s = some (time, offset, rest)) :
    rest <:+ s := by
  unfold timeBehindDate? at h
  split at h
  · rename_i c s'
    split at h
    · obtain ⟨⟨time', s''⟩, htime, h⟩ := Option.bind_eq_some_iff.1 h
      have hbehind : s'' <:+ c :: s' := ((leaves_timeOfDay? s').suffix htime).trans (List.suffix_cons c s')
      simp only at h
      split at h
      · rename_i hoffset
        cases h
        exact ((leaves_offset? s'').suffix hoffset).trans hbehind
      · cases h
        exact hbehind
    · cases h
  · cases h

theorem reads_moment? {r : Except Failure (Value × Text)} (h : moment? s = some r) : Reads room s r := by
  unfold moment? at h
  split at h
  · rename_i date s' hdate
    have hs' := (leaves_date? s).suffix hdate
    split at h
    · cases h
      exact .malformed
    · split at h
      · rename_i htime
        cases h
        exact .ok ((timeBehindDate?_suffix htime).trans hs') _
      · cases h
        exact .ok hs' _
  · obtain ⟨⟨time, s'⟩, htime, rfl⟩ := Option.map_eq_some_iff.1 h
    exact .ok ((leaves_timeOfDay? s).suffix htime) _

theorem leaves_basedInteger? (s : Text) : Leaves s (basedInteger? s) := by
  unfold basedInteger?
  split
  · rename_i c d s'
    cases base? c with
    | none => exact .none
    | some base =>
      simp only [Option.bind_eq_bind, Option.bind_some]
      split
      · exact .of_suffix (List.suffix_append ['0', c] (d :: s')) (.some (digitRun_suffix _ (d :: s')) _)
      · exact .none
  · exact .none

/-- The digits before the point are those of a part of the text that has only digits and underscores. -/
theorem exists_wholePart? {whole : Text} (h : wholePart? s = some (whole, rest)) :
    ∃ run, s = run ++ rest ∧ (∀ c ∈ run, Text.isAsciiDigit c = true ∨ c = '_') ∧ run.filter Text.isAsciiDigit = whole := by
  unfold wholePart? at h
  split at h
  · cases h
    exact ⟨['0'], rfl, by simp [Text.isAsciiDigit], by decide⟩
  · split at h
    · rename_i c s' _ _
      obtain ⟨run, hs, hrun, hdigits⟩ := exists_digitRun Text.isAsciiDigit (c :: s')
      rw [Option.some.inj h] at hs hdigits
      exact ⟨run, hs, hrun, hdigits⟩
    · cases h
  · cases h

theorem leaves_fractionPart? (s : Text) : Leaves s (fractionPart? s) := by
  unfold fractionPart?
  split
  · split
    · exact .some ((digitRun_suffix _ _).trans (List.suffix_cons _ _)) _
    · exact .none
  · exact .none

theorem leaves_exponentPart? (s : Text) : Leaves s (exponentPart? s) := by
  unfold exponentPart?
  split
  · rename_i c s'
    simp only
    split
    · exact .some ((digitRun_suffix _ _).trans ((sign_suffix s').trans (List.suffix_cons c s'))) _
    · exact .none
  · exact .none

theorem reads_decimal? {r : Except Failure (Value × Text)} (h : decimal? s = some r) : Reads room s r := by
  refine .of_suffix (sign_suffix s) ?_
  unfold decimal? at h
  obtain ⟨⟨whole, t⟩, hwhole, h⟩ := Option.bind_eq_some_iff.1 h
  obtain ⟨run, hs, hrun, hdigits⟩ := exists_wholePart? hwhole
  have hfraction := (leaves_fractionPart? t).getD_suffix
  have hpower := (leaves_exponentPart? (((fractionPart? t).map (·.2)).getD t)).getD_suffix
  have hrest := (hpower.trans hfraction).trans ⟨run, hs.symm⟩
  simp only at h
  split at h
  · cases h
    exact .ok hrest _
  · split at h
    case isTrue hlong =>
      cases h
      rw [← hdigits, ← List.countP_eq_length_filter] at hlong
      exact .tooManyDigits ⟨run, ⟨[], t, hs.symm⟩, hrun, hlong⟩
    case isFalse =>
      cases h
      exact .ok hrest _

theorem leaves_specialNumber? (s : Text) : Leaves s (specialNumber? s) := by
  refine .of_suffix (sign_suffix s) ?_
  unfold specialNumber?
  simp only
  split
  · rename_i rest h
    rw [h]
    exact .some (List.suffix_append ['i', 'n', 'f'] rest) _
  · rename_i rest h
    rw [h]
    exact .some (List.suffix_append ['n', 'a', 'n'] rest) _
  · exact .none

theorem reads_scalar (s : Text) : Reads room s (scalar s) := by
  unfold scalar
  split
  · rename_i h
    exact reads_moment? h
  · split
    · rename_i h
      exact .ok ((leaves_basedInteger? s).suffix h) _
    · split
      · rename_i h
        exact reads_decimal? h
      · split
        · rename_i h
          exact .ok ((leaves_specialNumber? s).suffix h) _
        · exact .malformed

end SymbolSearch.Toml
