import SymbolSearch.Proofs.Answer
import SymbolSearch.Host

/-!
# What a disk refuses

Which errors the questions to a disk can end with. Where a path leads is found out by following it, and only a name that is too
long, or a directory that may not be searched, keeps a question about it from being answered (`isFile_error`); a NUL character is
refused before the disk is asked (`readText_error_nul_iff`).
-/

namespace SymbolSearch

/-- A file that holds an ASCII text and was last written at a given time. -/
def Entry.ofAscii (s : Text) (stamp : Int) : Entry :=
  .file (s.map (fun c => c.toNat.toUInt8)) stamp false

/-- A directory with which all may be done. -/
def Entry.folder (children : List (Text × Entry)) : Entry :=
  .directory .full children

/-- A host whose disk holds these entries, seen from its root. -/
def Host.ofRoot (root : List (Text × Entry)) (h : Entry.areSound root = true) : Host :=
  ⟨⟨.full, root, h⟩, ⟨.slash, []⟩, "/".toList, .direct⟩

/-- A host whose disk holds nothing. -/
def Host.empty : Host :=
  ⟨.empty, ⟨.slash, []⟩, "/".toList, .direct⟩

namespace Disk

variable {disk : Disk} {workingDir : Place} {s : Text} {e : DiskError}

/-- Following names never ends in a refusal of the names themselves, nor for what the entry they lead to is. -/
theorem follow_error {followLast : Bool} {budget : Nat} {way : Way} {names : List Text}
    (h : disk.follow followLast budget way names = .error e) :
    e = .notDirectory ∨ e = .denied ∨ e = .nameTooLong ∨ e = .notFound ∨ e = .tooManyLinks := by
  fun_induction follow disk followLast budget way names with
  | case1 => cases h
  | case2 => cases h; exact Or.inl rfl
  | case3 => cases h; exact Or.inr (Or.inl rfl)
  | case4 => rename_i ih; exact ih h
  | case5 => rename_i ih; exact ih h
  | case6 => cases h; exact Or.inr (Or.inr (Or.inl rfl))
  | case7 => cases h; exact Or.inr (Or.inr (Or.inr (Or.inl rfl)))
  | case8 => cases h
  | case9 => cases h; exact Or.inr (Or.inr (Or.inr (Or.inr rfl)))
  | case10 => rename_i ih; exact ih h
  | case11 => rename_i ih; exact ih h

/-- Names that cannot be followed to a last link cannot be followed beyond it. -/
theorem follow_error_of_unfollowed {budget : Nat} {way : Way} {names : List Text}
    (h : disk.follow false budget way names = .error e) : disk.follow true budget way names = .error e := by
  fun_induction follow disk false budget way names with
  | case1 => cases h
  | case2 budget way name rest hdir =>
    rw [follow, if_pos hdir]
    exact h
  | case3 budget way name rest hdir hadmits =>
    rw [follow, if_neg hdir, if_pos hadmits]
    exact h
  | case4 budget way name rest hdir hadmits hkept ih =>
    rw [follow, if_neg hdir, if_neg hadmits, if_pos hkept]
    exact ih h
  | case5 budget way rest hdir hadmits hkept ih =>
    rw [follow, if_neg hdir, if_neg hadmits, if_neg hkept, if_pos rfl]
    exact ih h
  | case6 budget way name rest hdir hadmits hkept hname hlong =>
    rw [follow, if_neg hdir, if_neg hadmits, if_neg hkept, if_neg hname, if_pos hlong]
    exact h
  | case7 budget way name rest hdir hadmits hkept hname hlong hchild =>
    rw [follow, if_neg hdir, if_neg hadmits, if_neg hkept, if_neg hname, if_neg hlong, hchild]
    exact h
  | case8 => cases h
  | case9 way name rest hdir hadmits hkept hname hlong target hchild hlast =>
    rw [follow, if_neg hdir, if_neg hadmits, if_neg hkept, if_neg hname, if_neg hlong, hchild]
    simpa using h
  | case10 way name rest hdir hadmits hkept hname hlong target hchild hlast budget ih =>
    rw [follow, if_neg hdir, if_neg hadmits, if_neg hkept, if_neg hname, if_neg hlong, hchild]
    simpa using ih h
  | case11 budget way name rest hdir hadmits hkept hname hlong entry hlink hchild ih =>
    rw [follow, if_neg hdir, if_neg hadmits, if_neg hkept, if_neg hname, if_neg hlong, hchild]
    cases entry with
    | link target => exact absurd rfl (hlink target)
    | file content stamp denied => exact ih h
    | directory access children => exact ih h

/-- Names that cannot be followed cannot be followed with others behind them. -/
theorem follow_append_error {budget : Nat} {way : Way} {names : List Text} (h : disk.follow true budget way names = .error e)
    (back : List Text) : disk.follow true budget way (names ++ back) = .error e := by
  generalize hlast : true = followLast at h ⊢
  fun_induction follow disk followLast budget way names with
  | case1 => cases h
  | case2 budget way name rest hdir =>
    rw [List.cons_append, follow, if_pos hdir]
    exact h
  | case3 budget way name rest hdir hadmits =>
    rw [List.cons_append, follow, if_neg hdir, if_pos hadmits]
    exact h
  | case4 budget way name rest hdir hadmits hkept ih =>
    rw [List.cons_append, follow, if_neg hdir, if_neg hadmits, if_pos hkept]
    exact ih h
  | case5 budget way rest hdir hadmits hkept ih =>
    rw [List.cons_append, follow, if_neg hdir, if_neg hadmits, if_neg hkept, if_pos rfl]
    exact ih h
  | case6 budget way name rest hdir hadmits hkept hname hlong =>
    rw [List.cons_append, follow, if_neg hdir, if_neg hadmits, if_neg hkept, if_neg hname, if_pos hlong]
    exact h
  | case7 budget way name rest hdir hadmits hkept hname hlong hchild =>
    rw [List.cons_append, follow, if_neg hdir, if_neg hadmits, if_neg hkept, if_neg hname, if_neg hlong, hchild]
    exact h
  | case8 => cases h
  | case9 way name rest hdir hadmits hkept hname hlong target hchild =>
    rw [List.cons_append, follow, if_neg hdir, if_neg hadmits, if_neg hkept, if_neg hname, if_neg hlong, hchild]
    subst hlast
    simpa using h
  | case10 way name rest hdir hadmits hkept hname hlong target hchild hempty budget ih =>
    rw [List.cons_append, follow, if_neg hdir, if_neg hadmits, if_neg hkept, if_neg hname, if_neg hlong, hchild]
    have hrest := ih h
    subst hlast
    simpa using hrest
  | case11 budget way name rest hdir hadmits hkept hname hlong entry hlink hchild ih =>
    rw [List.cons_append, follow, if_neg hdir, if_neg hadmits, if_neg hkept, if_neg hname, if_neg hlong, hchild]
    cases entry with
    | link target => exact absurd rfl (hlink target)
    | file content stamp denied => exact ih h
    | directory access children => exact ih h

/-- A path that cannot be followed to a last link cannot be followed beyond it. -/
theorem locate_error_of_unfollowed (h : disk.locate false workingDir s = .error e) :
    disk.locate true workingDir s = .error e := by
  unfold locate at h ⊢
  -- only the names of the path are followed differently
  split at h
  · rw [if_pos ‹_›, h]
  · split at h
    · rw [if_neg ‹_›, if_pos ‹_›, h]
    · split at h
      · rw [if_neg ‹_›, if_neg ‹_›, if_pos ‹_›, h]
      · rw [if_neg ‹_›, if_neg ‹_›, if_neg ‹_›]
        split at h
        · exact follow_error_of_unfollowed h
        · exact h

/-- A path is refused for a NUL character exactly if it holds one. -/
theorem stat_error_nul_iff : disk.stat workingDir s = .error .nulCharacter ↔ '\x00' ∈ s := by
  rw [stat, map_eq_error_iff, locate]
  constructor
  · intro h
    split at h
    · rename_i hc
      simpa using hc
    · split at h
      · cases h
      · split at h
        · cases h
        · split at h
          · rcases follow_error h with h | h | h | h | h <;> cases h
          · cases h
  · intro h
    rw [if_pos (by simpa using h)]

/-- Looking at what a path leads to fails only in these ways. -/
theorem stat_error (h : disk.stat workingDir s = .error e) :
    e = .nulCharacter ∨ e = .notDirectory ∨ e = .denied ∨ e = .nameTooLong ∨ e = .notFound ∨ e = .tooManyLinks := by
  rw [stat, map_eq_error_iff, locate] at h
  split at h
  · cases h; exact Or.inl rfl
  · split at h
    · cases h; simp
    · split at h
      · cases h; simp
      · split at h
        · exact Or.inr (follow_error h)
        · cases h; simp

/-- A question about a path stays unanswered only for what is no absence. -/
theorem asks_error {answer : Except DiskError Bool} (h : asks answer = .error e) :
    answer = .error e ∧ e.isAbsence = false := by
  unfold asks at h
  split at h
  · cases h
  · split at h
    · cases h
    · rename_i he
      cases h
      exact ⟨rfl, by simpa using he⟩

/-- Links are not replaced where a name is refused, or where too many of them are inside each other. -/
theorem resolveFrom_error {depth : Nat} {met : List (Path × Option Path)} {here : Path} {names : List Text} {fault : Fault}
    (h : disk.resolveFrom workingDir depth met here names = .error fault) :
    fault = .disk .nulCharacter ∨ fault = .nestedTooDeep := by
  fun_induction resolveFrom disk workingDir depth met here names with
  | case1 => cases h
  | case2 => rename_i ih; exact ih h
  | case3 => rename_i ih; exact ih h
  | case4 => cases h; exact Or.inl rfl
  | case5 => rename_i ih; exact ih h
  | case6 => cases h
  | case7 => cases h; exact Or.inr rfl
  | case8 =>
    rename_i ihTarget ihRest
    rcases bind_eq_error_iff.1 h with h | ⟨inner, -, h⟩
    · exact ihTarget h
    · split at h
      · cases h
      · exact ihRest inner h
  | case9 => rename_i ih; exact ih h

end Disk

namespace Host

variable {host : Host} {s : Text} {e : DiskError}

/-- Whether a path leads to a file stays unanswered only because a directory may not be searched or a name is too long. -/
theorem isFile_error (h : host.isFile s = .error e) : e = .denied ∨ e = .nameTooLong := by
  obtain ⟨hb, ha⟩ := Disk.asks_error h
  rcases bind_eq_error_iff.1 hb with hs | ⟨entry, -, hs⟩
  · rcases Disk.stat_error hs with rfl | rfl | rfl | rfl | rfl | rfl
    · cases ha
    · cases ha
    · exact Or.inl rfl
    · exact Or.inr rfl
    · cases ha
    · cases ha
  · split at hs <;> cases hs

/-- Where it stays unanswered whether a path is a link, it does so whether it leads to a file. -/
theorem isFile_of_isLink_error (h : host.isLink s = .error e) : host.isFile s = .error e := by
  obtain ⟨hlink, habsence⟩ := Disk.asks_error h
  have hlocate : host.disk.locate true host.workingDir.names s = .error e := by
    rcases bind_eq_error_iff.1 hlink with hlocate | ⟨way, -, hway⟩
    · exact Disk.locate_error_of_unfollowed hlocate
    · split at hway <;> cases hway
  simp [isFile, Disk.isFile, Disk.stat, hlocate, Disk.asks, habsence, Except.map, bind, Except.bind]

/-- The text of a file is refused for a NUL character exactly if its path holds one. -/
theorem readText_error_nul_iff : host.readText s = .error .nulCharacter ↔ '\x00' ∈ s := by
  rw [readText, map_eq_error_iff, read, Disk.read, bind_eq_error_iff, Disk.stat_error_nul_iff]
  constructor
  · rintro (h | ⟨entry, -, h⟩)
    · exact h
    · split at h
      · split at h <;> cases h
      · cases h
  · exact Or.inl

/-- A path from which a text can be read leads to a file. -/
theorem isFile_of_readText {text : Text} (h : host.readText s = .ok text) : host.isFile s = .ok true := by
  obtain ⟨content, hr, -⟩ := map_eq_ok_iff.1 h
  obtain ⟨entry, hs, hr⟩ := bind_eq_ok_iff.1 hr
  rw [isFile, Disk.isFile, hs]
  split at hr
  · rfl
  · cases hr

/-- A path that holds a NUL character leads to no file. -/
theorem isFile_of_nul (h : '\x00' ∈ s) : host.isFile s = .ok false := by
  rw [isFile, Disk.isFile, Disk.stat_error_nul_iff.2 h]
  rfl

/-- The way of a path without links is not found where they lead around in circles or are nested too deep, or where the disk
refuses the path. -/
theorem canonical_error {fault : Fault} (h : host.canonical s = .error fault) :
    fault = .linkLoop ∨ fault = .nestedTooDeep ∨ fault = .disk .nulCharacter := by
  rcases bind_eq_error_iff.1 h with h | ⟨found, -, h⟩
  · rcases Disk.resolveFrom_error h with rfl | rfl
    · exact Or.inr (Or.inr rfl)
    · exact Or.inr (Or.inl rfl)
  · simp only at h
    split at h <;> cases h
    · exact Or.inl rfl
    · exact Or.inr (Or.inr rfl)

end Host

end SymbolSearch
