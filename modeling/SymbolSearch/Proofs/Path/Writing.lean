import SymbolSearch.Disk.Basic
import SymbolSearch.Proofs.Text

/-!
# Writing paths and reading them

A path with names that a path can keep is read back from its written form (`ofText_text`), and followed name by name
(`steps_text`). Names behind a path are written behind its text, so a path is longer than what it lies under (`size_text_le`). The
normal absolute form of a path only takes double dots away (`ofText_absolute`).
-/

namespace SymbolSearch

/-! ## Sizes -/

/-- The size of a text that is counted on from a number. -/
theorem Utf8.foldl_size (n : Nat) (s : Text) : s.foldl (fun n c => n + c.utf8Size) n = n + Utf8.size s := by
  induction s generalizing n with
  | nil => rfl
  | cons c rest ih =>
    have hsize : Utf8.size (c :: rest) = 0 + c.utf8Size + Utf8.size rest := ih (0 + c.utf8Size)
    rw [List.foldl_cons, ih, hsize]
    omega

/-- Two texts together take as many octets as both. -/
theorem Utf8.size_append (s t : Text) : Utf8.size (s ++ t) = Utf8.size s + Utf8.size t := by
  rw [Utf8.size, List.foldl_append, Utf8.foldl_size]
  rfl

namespace Path

variable {p : Path} {names front back : List Text}

/-! ## Written paths -/

/-- The names of the path can stand in its written form: a path keeps them, and no slash is in them. -/
def IsWritten (p : Path) : Prop :=
  ∀ name ∈ p.names, isKept name = true ∧ '/' ∉ name

/-- A path that is read is a written one. -/
theorem isWritten_ofText (s : Text) : (ofText s).IsWritten := by
  intro name hname
  obtain ⟨hpart, hkept⟩ := List.mem_filter.1 hname
  exact ⟨hkept, Text.not_mem_of_mem_splitOn hpart⟩

/-- The path with names behind it. -/
def extend (p : Path) (names : List Text) : Path :=
  ⟨p.root, p.names ++ names⟩

theorem extend_nil (p : Path) : p.extend [] = p := by
  rw [extend, List.append_nil]

theorem extend_extend (p : Path) (front back : List Text) : (p.extend front).extend back = p.extend (front ++ back) := by
  rw [extend, extend, extend, List.append_assoc]

theorem child_eq_extend (p : Path) (name : Text) : p.child name = p.extend [name] := rfl

theorem child_extend (p : Path) (name : Text) (names : List Text) : (p.child name).extend names = p.extend (name :: names) := by
  rw [child_eq_extend, extend_extend, List.singleton_append]

/-- A written path stays one with names behind it that can stand there. -/
theorem IsWritten.extend (hw : p.IsWritten) (hn : ∀ name ∈ names, isKept name = true ∧ '/' ∉ name) :
    (p.extend names).IsWritten := by
  intro name hname
  rcases List.mem_append.1 hname with hname | hname
  · exact hw name hname
  · exact hn name hname

/-- What lies behind a path is found there again. -/
theorem below?_extend (p : Path) (names : List Text) : (p.extend names).below? p = some names := by
  have hprefix : p.names.isPrefixOf (p.names ++ names) = true := List.isPrefixOf_iff_prefix.2 (List.prefix_append _ _)
  simp [below?, Path.extend, hprefix]

/-- The names that lead from one path to another are those that stand behind it. -/
theorem below?_eq_some_iff {q : Path} : q.below? p = some names ↔ q = p.extend names := by
  constructor
  · intro h
    unfold below? at h
    split at h
    · rename_i hbelow
      obtain ⟨hroot, hprefix⟩ := Bool.and_eq_true_iff.1 hbelow
      obtain ⟨rest, hrest⟩ := List.isPrefixOf_iff_prefix.1 hprefix
      rw [← hrest, List.drop_left] at h
      cases h
      rw [extend, ← of_decide_eq_true hroot, hrest]
    · cases h
  · rintro rfl
    exact below?_extend p names

/-- The text of an absolute path: its root, and its names with slashes between them. -/
theorem text_eq (ha : p.isAbsolute = true) : p.text = p.root.text ++ Text.joinWith ['/'] p.names := by
  obtain ⟨root, names⟩ := p
  cases root with
  | relative => cases ha
  | slash => rfl
  | doubleSlash => rfl

/-- A written path is followed name by name; in front of the names there are only slashes. -/
theorem steps_text (ha : p.isAbsolute = true) (hw : p.IsWritten) :
    ∃ blanks : List Text, Disk.steps p.text = blanks ++ p.names ∧ ∀ blank ∈ blanks, blank = [] := by
  have hsplit : ∃ blanks : List Text, Text.splitOn '/' (Text.joinWith ['/'] p.names) = blanks ++ p.names ∧
      ∀ blank ∈ blanks, blank = [] := by
    by_cases hne : p.names = []
    · exact ⟨[[]], by rw [hne]; rfl, by simp⟩
    · exact ⟨[], Text.splitOn_joinWith hne (fun name hname => (hw name hname).2), by simp⟩
  obtain ⟨blanks, hblanks, hempty⟩ := hsplit
  have hslash : ∀ s, Text.splitOn '/' ('/' :: s) = [] :: Text.splitOn '/' s := fun s => by simp [Text.splitOn]
  have hmore : ∀ more : List Text, (∀ blank ∈ more, blank = []) → ∀ blank ∈ more ++ blanks, blank = [] := by
    intro more hmore blank hblank
    rcases List.mem_append.1 hblank with hblank | hblank
    · exact hmore blank hblank
    · exact hempty blank hblank
  rw [Disk.steps, text_eq ha]
  cases hroot : p.root with
  | relative => simp [isAbsolute, hroot] at ha
  | slash =>
    refine ⟨[[]] ++ blanks, ?_, hmore _ (by simp)⟩
    simp only [PathRoot.text, List.cons_append, List.nil_append, hslash, hblanks]
  | doubleSlash =>
    refine ⟨[[], []] ++ blanks, ?_, hmore _ (by simp)⟩
    simp only [PathRoot.text, List.cons_append, List.nil_append, hslash, hblanks]

/-- The names of a written path do not start with a slash. -/
theorem head?_joinWith (hw : p.IsWritten) : (Text.joinWith ['/'] p.names).head? ≠ some '/' := by
  intro hhead
  cases hnames : p.names with
  | nil =>
    rw [hnames] at hhead
    cases hhead
  | cons name rest =>
    obtain ⟨hkept, hslash⟩ := hw name (by rw [hnames]; exact List.mem_cons_self)
    have hne : name ≠ [] := by
      rintro rfl
      cases hkept
    rw [hnames, Text.head?_joinWith_cons ['/'] hne] at hhead
    exact hslash (List.mem_of_mem_head? hhead)

/-- One slash in front is the root. -/
theorem rootOf_slash {s : Text} (h : s.head? ≠ some '/') : rootOf ('/' :: s) = .slash := by
  unfold rootOf
  split
  · rfl
  · rename_i heq
    cases heq
    exact absurd rfl h
  · rfl
  · rename_i hslash
    exact absurd rfl (hslash s)

/-- Just two slashes in front are a root of their own. -/
theorem rootOf_doubleSlash {s : Text} (h : s.head? ≠ some '/') : rootOf ('/' :: '/' :: s) = .doubleSlash := by
  unfold rootOf
  split
  · rename_i heq
    cases heq
    exact absurd rfl h
  · rfl
  · rename_i hslash heq
    cases heq
    exact absurd rfl (hslash s)
  · rename_i hslash
    exact absurd rfl (hslash _)

/-- A written path is read back from its text. -/
theorem ofText_text (ha : p.isAbsolute = true) (hw : p.IsWritten) : ofText p.text = p := by
  have hnames : (Text.splitOn '/' p.text).filter isKept = p.names := by
    obtain ⟨blanks, hsteps, hblanks⟩ := steps_text ha hw
    have hdropped : blanks.filter isKept = [] := List.filter_eq_nil_iff.2 fun blank hb => by simp [hblanks blank hb, isKept]
    have hall : p.names.filter isKept = p.names := List.filter_eq_self.2 fun name hname => (hw name hname).1
    rw [show Text.splitOn '/' p.text = blanks ++ p.names from hsteps, List.filter_append, hdropped, hall, List.nil_append]
  have hroot : rootOf p.text = p.root := by
    have hhead := head?_joinWith hw
    rw [text_eq ha]
    cases hroot : p.root with
    | relative => simp [isAbsolute, hroot] at ha
    | slash => exact rootOf_slash hhead
    | doubleSlash => exact rootOf_doubleSlash hhead
  rw [ofText, hnames, hroot]

/-! ## Names behind a path -/

/-- Joined names are written behind those in front of them. -/
theorem prefix_joinWith (sep : Text) (front back : List Text) :
    Text.joinWith sep front <+: Text.joinWith sep (front ++ back) := by
  fun_induction Text.joinWith sep front with
  | case1 => exact List.nil_prefix
  | case2 part =>
    by_cases hne : back = []
    · rw [hne, List.append_nil]
      exact List.prefix_rfl
    · rw [List.singleton_append, Text.joinWith_cons hne, List.append_assoc]
      exact List.prefix_append _ _
  | case3 part parts hne ih =>
    rw [List.cons_append, Text.joinWith_cons (List.append_ne_nil_of_left_ne_nil hne _)]
    exact (List.prefix_append_right_inj _).2 ih

/-- An absolute path takes no fewer octets than one that it lies under. -/
theorem size_text_le (ha : p.isAbsolute = true) (front back : List Text) :
    Utf8.size (p.extend front).text ≤ Utf8.size (p.extend (front ++ back)).text := by
  have hprefix : (p.extend front).text <+: (p.extend (front ++ back)).text := by
    rw [text_eq (p := p.extend front) ha, text_eq (p := p.extend (front ++ back)) ha, ← extend_extend]
    exact (List.prefix_append_right_inj _).2 (prefix_joinWith _ _ _)
  obtain ⟨rest, hrest⟩ := hprefix
  rw [← hrest, Utf8.size_append]
  exact Nat.le_add_right _ _

/-- A character other than the slash stands in an absolute path exactly if it stands in one of its names. -/
theorem mem_text_iff (ha : p.isAbsolute = true) {c : Char} (hc : c ≠ '/') :
    c ∈ p.text ↔ ∃ name ∈ p.names, c ∈ name := by
  have hroot : c ∉ p.root.text := by cases p.root <;> simp [PathRoot.text, hc]
  rw [text_eq ha, List.mem_append, or_iff_right hroot]
  constructor
  · intro h
    rcases Text.of_mem_joinWith h with h | h
    · simp [hc] at h
    · exact h
  · rintro ⟨name, hname, h⟩
    exact (Text.infix_joinWith hname).subset h

/-! ## Normal paths -/

/-- Names that are no double dots stay as they are in a normal path. -/
theorem normalNames_append {rooted : Bool} (front : List Text) (hb : parentName ∉ back) :
    normalNames rooted (front ++ back) = normalNames rooted front ++ back := by
  have hfold : ∀ kept, back.foldl (addName rooted) kept = back.reverse ++ kept := by
    induction back with
    | nil => exact fun _ => rfl
    | cons name rest ih =>
      intro kept
      rw [List.mem_cons, not_or] at hb
      have hadded : addName rooted kept name = name :: kept := if_neg (Ne.symm hb.1)
      rw [List.foldl_cons, hadded, ih hb.2, List.reverse_cons, List.append_assoc]
      rfl
  rw [normalNames, normalNames, List.foldl_append, hfold, List.reverse_append, List.reverse_reverse]

/-- Names without double dots are normal. -/
theorem normalNames_eq_self {rooted : Bool} (h : parentName ∉ names) : normalNames rooted names = names :=
  normalNames_append [] h

/-- A normal path under a root has only names of the path. -/
theorem mem_of_mem_normalNames {name : Text} (h : name ∈ normalNames true names) : name ∈ names := by
  have hfold : ∀ (rest kept : List Text), (∀ n ∈ rest, n ∈ names) → (∀ n ∈ kept, n ∈ names) →
      ∀ n ∈ rest.foldl (addName true) kept, n ∈ names := by
    intro rest
    induction rest with
    | nil => exact fun kept _ hkept => hkept
    | cons first rest ih =>
      intro kept hrest hkept
      refine ih _ (fun n hn => hrest n (List.mem_cons_of_mem _ hn)) fun n hn => ?_
      have hfirst : first ∈ names := hrest first List.mem_cons_self
      unfold addName at hn
      split at hn
      · rename_i hparent
        rw [hparent] at hfirst
        split at hn
        · cases hn
        · split at hn
          · rcases List.mem_cons.1 hn with rfl | hn
            · exact hfirst
            · exact hkept n hn
          · exact hkept n (List.mem_cons_of_mem _ hn)
      · rcases List.mem_cons.1 hn with rfl | hn
        · exact hfirst
        · exact hkept n hn
  exact hfold names [] (fun _ => id) (by simp) name (List.mem_reverse.1 h)

/-- The normal form of an absolute path is read back from its written form. -/
theorem ofText_normalize {s : Text} (ha : (ofText s).isAbsolute = true) :
    ofText (normalize s) = ⟨(ofText s).root, normalNames true (ofText s).names⟩ := by
  rw [normalize, ha]
  exact ofText_text ha fun name hname => isWritten_ofText s name (mem_of_mem_normalNames hname)

/-- The normal absolute form of an absolute path has the names of its normal form. -/
theorem ofText_absolute (ha : p.isAbsolute = true) (hw : p.IsWritten) (workingDir : Text) :
    ofText (Path.absolute workingDir p.text) = ⟨p.root, normalNames true p.names⟩ := by
  have hread := ofText_text ha hw
  have hown : (ofText p.text).isAbsolute = true := by rw [hread, ha]
  rw [Path.absolute, if_pos hown, ofText_normalize hown, hread]

/-- A written path is absolute exactly if it starts with a slash. -/
theorem isAbsolute_ofText_iff {s : Text} : (ofText s).isAbsolute = true ↔ s.head? = some '/' := by
  rw [isAbsolute, decide_eq_true_eq, ofText]
  unfold rootOf
  split
  · simp
  · simp
  · simp
  · rename_i hslash
    refine iff_of_false (not_not_intro rfl) fun hhead => ?_
    obtain ⟨rest, rfl⟩ := List.head?_eq_some_iff.1 hhead
    exact hslash rest rfl

/-- What is put together of two written paths holds their characters and slashes. -/
theorem of_mem_joinText {front back : Text} {c : Char} (h : c ∈ joinText front back) : c = '/' ∨ c ∈ front ∨ c ∈ back := by
  unfold joinText at h
  split at h
  · exact Or.inr (Or.inr h)
  · split at h
    · exact Or.inr (List.mem_append.1 h)
    · rcases List.mem_append.1 h with h | h
      · exact Or.inr (Or.inl h)
      · rcases List.mem_cons.1 h with h | h
        · exact Or.inl h
        · exact Or.inr (Or.inr h)

/-- Behind an absolute path a written path is absolute. -/
theorem isAbsolute_joinText {front : Text} (hf : front.head? = some '/') (back : Text) :
    (ofText (joinText front back)).isAbsolute = true := by
  obtain ⟨rest, rfl⟩ := List.head?_eq_some_iff.1 hf
  rw [isAbsolute_ofText_iff]
  unfold joinText
  split
  · rfl
  · split <;> rfl

end Path

end SymbolSearch
