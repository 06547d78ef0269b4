import Mathlib
import SymbolSearch.Proofs.Answer
import SymbolSearch.Proofs.Toml.Readers
import SymbolSearch.Toml.Document

/-!
# TOML: which documents cannot be read

Where a document fails although it may be well formed, its text shows why without being read: it has a long run of digits, or many
brackets and braces (`parse_error`). Both limits are met: brackets behind an equals sign fail as soon as there are too many of them,
whatever follows (`parse_brackets`), and so do digits (`parse_digits`).
-/

namespace SymbolSearch.Toml

variable {α β : Type} {room : Nat} {s rest : Text}

/-! ## Lists and tables -/

/-- What a character opens takes up the room that it counts for. -/
theorem Reads.inside {next : Nat → Except Failure (α × Text)} {c : Char} {taken : Nat}
    (hc : nesting (c :: s) = taken + nesting s) (hnext : Reads (room - taken) s (next (room - taken))) :
    Reads room (c :: s) (roomInside room taken >>= next) := by
  unfold roomInside
  split
  case isTrue =>
    refine ⟨fun hok => (hnext.suffix hok).trans (List.suffix_cons c s), fun {failure} herror => ?_⟩
    have hblames := hnext.blames herror
    cases failure with
    | malformed => trivial
    | tooManyDigits => exact hblames.of_suffix (List.suffix_cons c s)
    | nestedTooDeep =>
      simp only [Blames] at hblames ⊢
      omega
  case isFalse hroom =>
    constructor
    · rintro _ _ ⟨⟩
    · rintro _ ⟨⟩
      simp only [Blames]
      omega

theorem nesting_bracket (s : Text) : nesting ('[' :: s) = 2 + nesting s := by
  simp [nesting]
  omega

theorem nesting_brace (s : Text) : nesting ('\x7b' :: s) = 3 + nesting s := by
  simp [nesting]
  omega

variable {fuel : Nat}

theorem reads_value_succ (hitems : ∀ room s, Reads room s (items fuel room s))
    (hpairs : ∀ room done closed s, Reads room s (pairs fuel room done closed s)) (room : Nat) (s : Text) :
    Reads room s (value (fuel + 1) room s) := by
  unfold value
  split
  · exact .of_suffix (List.suffix_append ['"', '"', '"'] _) ((reads_quotedLines _).map _)
  · exact .cons _ ((reads_quotedString _ _ _).map _)
  · exact .of_suffix (List.suffix_append ['\'', '\'', '\''] _) ((reads_literalLines _).map _)
  · exact .cons _ ((reads_literalString _).map _)
  · exact .ok (List.suffix_append ['t', 'r', 'u', 'e'] _) _
  · exact .ok (List.suffix_append ['f', 'a', 'l', 's', 'e'] _) _
  · refine .inside (nesting_bracket _) (.bind (hitems _ _) fun vs rest _ => ?_)
    exact .ok (List.suffix_refl rest) _
  · rename_i rest
    refine .inside (nesting_brace _) (.of_suffix (skipGaps_suffix rest) ?_)
    split
    · rename_i h
      rw [h]
      exact .ok (List.suffix_cons _ _) _
    · refine .bind (hpairs _ _ _ _) fun ps rest _ => ?_
      exact .ok (List.suffix_refl rest) _
  · exact reads_scalar s

theorem reads_items_succ (hvalue : ∀ room s, Reads room s (value fuel room s))
    (hitems : ∀ room s, Reads room s (items fuel room s)) (room : Nat) (s : Text) :
    Reads room s (items (fuel + 1) room s) := by
  unfold items
  refine .skipFillers false fun s _ => ?_
  split
  · exact .ok (List.suffix_cons _ _) _
  · refine .bind (hvalue room s) fun v s _ => .skipFillers false fun s _ => ?_
    split
    · exact .ok (List.suffix_cons _ _) _
    · refine .cons _ (.bind (hitems room _) fun vs rest _ => ?_)
      exact .ok (List.suffix_refl rest) _
    · exact .malformed

theorem reads_pairs_succ (hvalue : ∀ room s, Reads room s (value fuel room s))
    (hpairs : ∀ room done closed s, Reads room s (pairs fuel room done closed s)) (room : Nat) (done : Pairs)
    (closed : List (List Text)) (s : Text) : Reads room s (pairs (fuel + 1) room done closed s) := by
  unfold pairs
  refine .bind (reads_key s) fun k s _ => ?_
  simp only
  split
  · refine .cons _ (.of_suffix (skipGaps_suffix _) (.bind (hvalue room _) fun v s _ => ?_))
    simp only
    split
    · exact .malformed
    · split
      · exact .malformed
      · refine .of_suffix (skipGaps_suffix s) ?_
        split
        · rename_i h
          rw [h]
          exact .ok (List.suffix_cons _ _) _
        · rename_i h
          rw [h]
          exact .cons _ (.of_suffix (skipGaps_suffix _) (hpairs room _ _ _))
        · exact .malformed
  · exact .malformed

/-- Values, items and pairs are readers; the induction is on the fuel that they share. -/
theorem reads_all (fuel : Nat) :
    (∀ room s, Reads room s (value fuel room s)) ∧ (∀ room s, Reads room s (items fuel room s)) ∧
      ∀ room done closed s, Reads room s (pairs fuel room done closed s) := by
  induction fuel with
  | zero => exact ⟨fun _ _ => .malformed, fun _ _ => .malformed, fun _ _ _ _ => .malformed⟩
  | succ fuel ih =>
    obtain ⟨hvalue, hitems, hpairs⟩ := ih
    exact ⟨reads_value_succ hitems hpairs, reads_items_succ hvalue hitems, reads_pairs_succ hvalue hpairs⟩

/-! ## Documents -/

section Drafts

variable {draft : Draft} {k : List Text} {failure : Failure}

/-- What is refused, or cannot be made, is malformed. -/
theorem guarded_error {refused : Bool} {made : Option α} {finish : α → Draft}
    (h : (if refused then .error .malformed else do .ok (finish (← orMalformed made))) = Except.error failure) :
    failure = .malformed := by
  split at h
  · cases h
    rfl
  · cases made <;> cases h
    rfl

theorem openTable_error (h : draft.openTable k = .error failure) : failure = .malformed :=
  guarded_error h

theorem openItem_error (h : draft.openItem k = .error failure) : failure = .malformed :=
  guarded_error h

theorem addPair_error {v : Value} (h : draft.addPair k v = .error failure) : failure = .malformed :=
  guarded_error h

end Drafts

/-- A step that fails only for malformed documents, in front of a reader. -/
theorem Reads.step {r : Except Failure α} {next : α → Except Failure (β × Text)}
    (hr : ∀ {failure}, r = .error failure → failure = .malformed) (hnext : ∀ a, Reads room s (next a)) :
    Reads room s (r >>= next) := by
  cases r with
  | ok a => exact hnext a
  | error failure =>
    obtain rfl := hr rfl
    exact .malformed

theorem reads_statement (room : Nat) (draft : Draft) (s : Text) : Reads room s (statement room draft s) := by
  unfold statement
  split
  · rename_i rest
    refine .cons _ (.cons _ (.of_suffix (skipGaps_suffix rest) (.bind (reads_key _) fun k rest _ => ?_)))
    refine .step openItem_error fun draft => ?_
    split
    · exact .ok (List.suffix_append [']', ']'] _) _
    · exact .malformed
  · rename_i rest _
    refine .cons _ (.of_suffix (skipGaps_suffix rest) (.bind (reads_key _) fun k rest _ => ?_))
    refine .step openTable_error fun draft => ?_
    split
    · exact .ok (List.suffix_cons _ _) _
    · exact .malformed
  · exact .ok (List.suffix_refl _) _
  · refine .bind (reads_key s) fun k rest _ => ?_
    simp only
    split
    · refine .cons _ (.of_suffix (skipGaps_suffix _) (.bind ((reads_all _).1 room _) fun v rest _ => ?_))
      exact .step addPair_error fun draft => .ok (List.suffix_refl rest) _
    · exact .malformed

theorem skipComment_suffix (h : skipComment s = .ok rest) : rest <:+ s := by
  unfold skipComment at h
  split at h
  · split at h
    · cases h
    · cases h
      exact (List.dropWhile_suffix _).trans (List.suffix_cons _ _)
  · cases h
    exact List.suffix_refl s

theorem skipComment_error {failure : Failure} (h : skipComment s = .error failure) : failure = .malformed := by
  unfold skipComment at h
  split at h
  · split at h <;> cases h
    rfl
  · cases h

/-- Statements fail for a reason. -/
theorem statements_error {draft : Draft} {failure : Failure} (h : statements room fuel draft s = .error failure) :
    Blames room s failure := by
  induction fuel generalizing draft s with
  | zero =>
    cases h
    trivial
  | succ fuel ih =>
    refine .of_suffix (skipGaps_suffix s) ?_
    simp only [statements] at h
    split at h
    · cases h
    · rename_i hs
      rw [hs]
      exact (ih h).of_suffix (List.suffix_cons _ _)
    · have hstatement := reads_statement room draft (skipGaps s)
      rcases bind_eq_error_iff.1 h with h | ⟨⟨draft', rest⟩, hok, h⟩
      · exact hstatement.blames h
      · refine .of_suffix (hstatement.suffix hok) ?_
        rcases bind_eq_error_iff.1 h with h | ⟨rest', hcomment, h⟩
        · rw [skipComment_error h]
          trivial
        · refine .of_suffix ((skipComment_suffix hcomment).trans (skipGaps_suffix rest)) ?_
          split at h
          · cases h
          · exact (ih h).of_suffix (List.suffix_cons _ _)
          · cases h
            trivial

/-- The text with a line feed for each line end of two characters. -/
def plainLineEnds : Text → Text
  | [] => []
  | '\r' :: '\n' :: rest => '\n' :: plainLineEnds rest
  | c :: rest => c :: plainLineEnds rest

theorem replaceAll_eq_plainLineEnds (s : Text) : Text.replaceAll ['\r', '\n'] ['\n'] s = plainLineEnds s := by
  rw [Text.replaceAll, if_neg (by decide)]
  fun_induction plainLineEnds s with
  | case1 => rfl
  | case2 rest ih =>
    rw [← ih]
    rfl
  | case3 c rest hne ih =>
    have hother : ['\r', '\n'].isPrefixOf (c :: rest) = false := by
      rw [← Bool.not_eq_true, List.isPrefixOf_iff_prefix, List.cons_prefix_cons]
      rintro ⟨rfl, rest', rfl⟩
      exact hne rest' rfl rfl
    rw [Text.replaceFrom, hother, if_neg Bool.false_ne_true, ih]

theorem plainLineEnds_sublist (s : Text) : (plainLineEnds s).Sublist s := by
  fun_induction plainLineEnds s with
  | case1 => exact .slnil
  | case2 rest ih => exact (ih.cons_cons _).cons _
  | case3 c rest hne ih => exact ih.cons_cons c

theorem prefix_of_plainLineEnds {run : Text} (hrun : '\n' ∉ run) (h : run <+: plainLineEnds s) : run <+: s := by
  fun_induction plainLineEnds s generalizing run with
  | case1 => exact h
  | case2 rest ih =>
    cases run with
    | nil => exact List.nil_prefix
    | cons c run =>
      obtain ⟨rfl, -⟩ := List.cons_prefix_cons.1 h
      exact absurd List.mem_cons_self hrun
  | case3 c rest hne ih =>
    cases run with
    | nil => exact List.nil_prefix
    | cons d run =>
      obtain ⟨rfl, hrest⟩ := List.cons_prefix_cons.1 h
      exact List.cons_prefix_cons.2 ⟨rfl, ih (fun hmem => hrun (List.mem_cons_of_mem _ hmem)) hrest⟩

theorem exists_suffix_of_plainLineEnds {back : Text} (h : back <:+ plainLineEnds s) :
    ∃ rest, rest <:+ s ∧ plainLineEnds rest = back := by
  fun_induction plainLineEnds s with
  | case1 => exact ⟨[], List.suffix_refl [], (List.suffix_nil.1 h).symm⟩
  | case2 rest ih =>
    rcases List.suffix_cons_iff.1 h with rfl | h
    · exact ⟨'\r' :: '\n' :: rest, List.suffix_refl _, by rw [plainLineEnds]⟩
    · obtain ⟨rest', hrest', rfl⟩ := ih h
      exact ⟨rest', hrest'.trans (List.suffix_append ['\r', '\n'] rest), rfl⟩
  | case3 c rest hne ih =>
    rcases List.suffix_cons_iff.1 h with rfl | h
    · exact ⟨c :: rest, List.suffix_refl _, by rw [plainLineEnds]; exact hne⟩
    · obtain ⟨rest', hrest', rfl⟩ := ih h
      exact ⟨rest', hrest'.trans (List.suffix_cons c rest), rfl⟩

/-- A part without line feeds is a part of the text before its line ends were made plain. -/
theorem infix_of_plainLineEnds {run : Text} (hrun : '\n' ∉ run) (h : run <:+: plainLineEnds s) : run <:+: s := by
  obtain ⟨back, hfront, hback⟩ := List.infix_iff_prefix_suffix.1 h
  obtain ⟨rest, hrest, rfl⟩ := exists_suffix_of_plainLineEnds hback
  exact (prefix_of_plainLineEnds hrun hfront).isInfix.trans hrest.isInfix

/-- A document fails for a reason that its text shows. -/
theorem parse_error {failure : Failure} (h : parse room s = .error failure) : Blames room s failure := by
  unfold parse at h
  simp only [replaceAll_eq_plainLineEnds] at h
  rcases bind_eq_error_iff.1 h with h | ⟨_, _, h⟩
  · have hblames := statements_error h
    cases failure with
    | malformed => trivial
    | tooManyDigits =>
      obtain ⟨run, hinfix, hrun, hlong⟩ := hblames
      refine ⟨run, infix_of_plainLineEnds (fun hmem => ?_) hinfix, hrun, hlong⟩
      exact absurd (hrun _ hmem) (by decide)
    | nestedTooDeep =>
      have hlist := (plainLineEnds_sublist s).count_le '['
      have htable := (plainLineEnds_sublist s).count_le '\x7b'
      simp only [Blames, nesting] at hblames ⊢
      omega
  · cases h

/-! ## The limits are met -/

variable {failure : Failure}

theorem items_bracket_error (h : value fuel room ('[' :: s) = .error failure) :
    items (fuel + 1) room ('[' :: s) = .error failure := by
  have hfillers : skipFillers false ('[' :: s) = .ok ('[' :: s) := rfl
  simp [items, hfillers, h, bind, Except.bind]

/-- More brackets than there is room for are refused, whatever follows them. -/
theorem value_brackets {n : Nat} (hroom : room < 2 * n) (hfuel : 2 * n ≤ fuel) (rest : Text) :
    value fuel room (List.replicate n '[' ++ rest) = .error .nestedTooDeep := by
  induction n generalizing room fuel with
  | zero => omega
  | succ n ih =>
    obtain ⟨fuel, rfl⟩ : ∃ m, fuel = m + 2 := ⟨fuel - 2, by omega⟩
    rw [List.replicate_succ, List.cons_append]
    simp only [value, roomInside]
    split
    case isTrue hinside =>
      obtain ⟨n, rfl⟩ : ∃ m, n = m + 1 := ⟨n - 1, by omega⟩
      have hdeeper : value fuel (room - 2) (List.replicate (n + 1) '[' ++ rest) = .error .nestedTooDeep :=
        ih (by omega) (by omega)
      have hitems : items (fuel + 1) (room - 2) (List.replicate (n + 1) '[' ++ rest) = .error .nestedTooDeep :=
        items_bracket_error hdeeper
      simp only [bind, Except.bind, hitems]
    case isFalse => rfl

theorem plainLineEnds_append {front : Text} (h : '\r' ∉ front) (rest : Text) :
    plainLineEnds (front ++ rest) = front ++ plainLineEnds rest := by
  induction front with
  | nil => rfl
  | cons c front ih =>
    rw [List.mem_cons, not_or] at h
    rw [List.cons_append, plainLineEnds, ih h.2, List.cons_append]
    rintro rest' rfl -
    exact h.1 rfl

/-- A document that starts with a pair fails as the pair's value does. -/
theorem parse_pair_error (hgap : skipGaps (plainLineEnds s) = plainLineEnds s)
    (h : value (2 * (plainLineEnds s).length + 1) room (plainLineEnds s) = .error failure) :
    parse room ("x=".toList ++ s) = .error failure := by
  have hlines : plainLineEnds ('x' :: '=' :: s) = 'x' :: '=' :: plainLineEnds s :=
    plainLineEnds_append (show '\r' ∉ ['x', '='] by decide) s
  have hkey : key ('x' :: '=' :: plainLineEnds s) = .ok ([['x']], '=' :: plainLineEnds s) := rfl
  have hstatement : statement room .empty ('x' :: '=' :: plainLineEnds s) = .error failure := by
    simp [statement, hkey, hgap, h, bind, Except.bind]
  have hfront : skipGaps ('x' :: '=' :: plainLineEnds s) = 'x' :: '=' :: plainLineEnds s := rfl
  change parse room ('x' :: '=' :: s) = .error failure
  simp [parse, replaceAll_eq_plainLineEnds, hlines, statements, hfront, hstatement, bind, Except.bind]

/-- A list inside too many lists is not read. -/
theorem parse_brackets {n : Nat} (h : room < 2 * n) (rest : Text) :
    parse room ("x=".toList ++ (List.replicate n '[' ++ rest)) = .error .nestedTooDeep := by
  have hplain : plainLineEnds (List.replicate n '[' ++ rest) = List.replicate n '[' ++ plainLineEnds rest :=
    plainLineEnds_append (fun hmem => absurd (List.eq_of_mem_replicate hmem) (by decide)) rest
  have hgap : skipGaps (List.replicate n '[' ++ plainLineEnds rest) = List.replicate n '[' ++ plainLineEnds rest := by
    obtain ⟨n, rfl⟩ : ∃ m, n = m + 1 := ⟨n - 1, by omega⟩
    rfl
  refine parse_pair_error (s := List.replicate n '[' ++ rest) (by rw [hplain, hgap]) ?_
  rw [hplain]
  refine value_brackets h ?_ _
  rw [List.length_append, List.length_replicate]
  omega

section Digits

variable {digits : Text}

theorem behind?_digits {c : Char} (hc : Text.isAsciiDigit c = false) (h : ∀ d ∈ digits, Text.isAsciiDigit d = true) :
    behind? c digits = none := by
  cases digits with
  | nil => rfl
  | cons d digits =>
    refine if_neg fun heq => ?_
    obtain rfl : d = c := by simpa using heq
    rw [h d List.mem_cons_self] at hc
    cases hc

theorem bind_none_of_forall {o : Option α} {next : α → Option β} (h : ∀ a, o = some a → next a = none) :
    (o >>= next) = none := by
  cases o with
  | none => rfl
  | some a => exact h a rfl

/-- Digits alone are no moment. -/
theorem moment?_digits (h : ∀ d ∈ digits, Text.isAsciiDigit d = true) : moment? digits = none := by
  have hdate : date? digits = none := by
    unfold date?
    refine bind_none_of_forall ?_
    rintro ⟨year, rest⟩ hyear
    have hrest : rest <:+ digits := (leaves_fixedDigits? 4 digits).suffix hyear
    have hbehind : behind? '-' rest = none := behind?_digits (by decide) fun d hd => h d (hrest.subset hd)
    simp only [hbehind]
    rfl
  have htime : timeOfDay? digits = none := by
    unfold timeOfDay?
    refine bind_none_of_forall ?_
    rintro ⟨hour, rest⟩ hhour
    have hrest : rest <:+ digits := (leaves_boundedDigits? 2 0 23 digits).suffix hhour
    have hbehind : behind? ':' rest = none := behind?_digits (by decide) fun d hd => h d (hrest.subset hd)
    simp only [hbehind]
    rfl
  simp only [moment?, hdate, htime, Option.map_none]

theorem digitRun_digits (h : ∀ d ∈ digits, Text.isAsciiDigit d = true) : digitRun Text.isAsciiDigit digits = (digits, []) := by
  induction digits with
  | nil => rfl
  | cons d digits ih =>
    rw [List.forall_mem_cons] at h
    simp only [digitRun, h.1, if_true, ih h.2]

/-- Digits that do not start with a zero are an integer, if there are not too many of them. -/
theorem scalar_digits (h : ∀ d ∈ digits, Text.isAsciiDigit d = true) (hzero : digits.head? ≠ some '0')
    (hlong : Number.digitLimit < digits.length) : scalar digits = .error .tooManyDigits := by
  have hbased : basedInteger? digits = none := by
    unfold basedInteger?
    split
    · exact absurd rfl hzero
    · rfl
  have hsign : Number.sign digits = (false, digits) := by
    unfold Number.sign
    split
    · exact absurd (h _ List.mem_cons_self) (by decide)
    · exact absurd (h _ List.mem_cons_self) (by decide)
    · rfl
  have hwhole : wholePart? digits = some (digits, []) := by
    unfold wholePart?
    split
    · exact absurd rfl hzero
    · rename_i d digits _
      rw [if_pos (h d List.mem_cons_self), digitRun_digits h]
    · cases hlong
  have hdecimal : decimal? digits = some (.error .tooManyDigits) := by
    simp [decimal?, hsign, hwhole, fractionPart?, exponentPart?, hlong]
  simp only [scalar, moment?_digits h, hbased, hdecimal]

theorem value_digit {d : Char} (hd : Text.isAsciiDigit d = true) (s : Text) :
    value (fuel + 1) room (d :: s) = scalar (d :: s) := by
  unfold value
  split
  case h_9 => rfl
  all_goals
    rename_i heq
    cases heq
    exact absurd hd (by decide)

/-- An integer with too many digits is not read. -/
theorem parse_digits (h : ∀ d ∈ digits, Text.isAsciiDigit d = true) (hzero : digits.head? ≠ some '0')
    (hlong : Number.digitLimit < digits.length) : parse room ("x=".toList ++ digits) = .error .tooManyDigits := by
  have hplain : plainLineEnds digits = digits := by
    have happend := plainLineEnds_append (fun hmem => absurd (h _ hmem) (by decide)) []
    simpa [plainLineEnds] using happend
  have hscalar := scalar_digits h hzero hlong
  cases digits with
  | nil => cases hlong
  | cons d digits =>
    have hd : Text.isAsciiDigit d = true := h d List.mem_cons_self
    refine parse_pair_error ?_ ?_
    · rw [hplain]
      refine Text.dropWhile_eq_self fun c hc => ?_
      obtain rfl : d = c := Option.some.inj hc
      rw [← Bool.not_eq_true]
      intro hgap
      rw [Text.isGap, Bool.or_eq_true, decide_eq_true_eq, decide_eq_true_eq] at hgap
      rcases hgap with rfl | rfl <;> exact absurd hd (by decide)
    · rw [hplain, value_digit hd, hscalar]

end Digits

end SymbolSearch.Toml
