import SymbolSearch.Proofs.Disk.Resolution
import SymbolSearch.Proofs.Tree.Walk

/-!
# Walks of a disk

A walk of a directory on a disk meets, in the order of paths, exactly the files that names lead to through directories that may be
listed and searched: not through links, not through directories that are passed over, and only as far as the path to a file can
still be followed (`walk_lists`). It comes too deep where names lead so to a directory at its last level that is not empty
(`exceeds_iff`).
-/

namespace SymbolSearch

/-! ## Entries behind open directories -/

namespace Entry

variable {entry child found : Entry} {name : Text} {names rest front back : List Text}

/-- The entry is a file. -/
def isFile : Entry → Bool
  | file .. => true
  | _ => false

/-- The entry is a directory that may be listed and searched. -/
def isOpen (entry : Entry) : Bool :=
  entry.isListable && entry.isSearchable

/-- The entry is a directory that may be listed and in which something stands. -/
def isCrowded : Entry → Bool
  | directory access children => access.lists && !children.isEmpty
  | _ => false

/-- Names lead from an entry to another one, links not followed, and all directories in which they are looked up are open. -/
def IsOpenTo : Entry → List Text → Entry → Prop
  | entry, [], found => found = entry
  | entry, name :: rest, found => entry.isOpen = true ∧ ∃ child, entry.child? name = some child ∧ child.IsOpenTo rest found

/-- Names lead from an entry to a file, through open directories of which none is passed over. -/
def Reaches (entry : Entry) (names : List Text) : Prop :=
  ∃ found, entry.IsOpenTo names found ∧ found.isFile = true ∧ ∀ name ∈ names.dropLast, name ∉ FileTree.skippedNames

/-- So many names lead from an entry, through open directories of which none is passed over, to a directory in which something
stands, and the path there can still be followed. -/
def TooDeep (entry : Entry) (depth : Nat) (p : Path) : Prop :=
  ∃ names found, names.length = depth ∧ entry.IsOpenTo names found ∧ found.isCrowded = true ∧
    (∀ name ∈ names, name ∉ FileTree.skippedNames) ∧ Utf8.size (p.extend names).text < Disk.pathLimit

theorem isDirectory_of_isOpen (h : entry.isOpen = true) : entry.isDirectory = true :=
  isDirectory_of_isSearchable (Bool.and_eq_true_iff.1 h).2

theorem isDirectory_of_isCrowded (h : entry.isCrowded = true) : entry.isDirectory = true := by
  cases entry with
  | file content stamp denied => cases h
  | link target => cases h
  | directory access children => rfl

theorem isLink_of_isDirectory (h : entry.isDirectory = true) : entry.isLink = false := by
  cases entry with
  | file content stamp denied => rfl
  | link target => cases h
  | directory access children => rfl

theorem isLink_of_isFile (h : entry.isFile = true) : entry.isLink = false := by
  cases entry with
  | file content stamp denied => rfl
  | link target => cases h
  | directory access children => rfl

theorem isFile_of_isDirectory (h : entry.isDirectory = true) : entry.isFile = false := by
  cases entry with
  | file content stamp denied => cases h
  | link target => rfl
  | directory access children => rfl

/-- Names behind names lead on from where the first ones lead. -/
theorem isOpenTo_append_iff :
    entry.IsOpenTo (front ++ back) found ↔ ∃ middle, entry.IsOpenTo front middle ∧ middle.IsOpenTo back found := by
  induction front generalizing entry with
  | nil => simp [IsOpenTo]
  | cons name rest ih =>
    simp only [List.cons_append, IsOpenTo, ih]
    constructor
    · rintro ⟨hopen, child, hchild, middle, hfront, hback⟩
      exact ⟨middle, ⟨hopen, child, hchild, hfront⟩, hback⟩
    · rintro ⟨middle, ⟨hopen, child, hchild, hfront⟩, hback⟩
      exact ⟨hopen, child, hchild, middle, hfront, hback⟩

/-- In front of names stand only names that lead to open directories. -/
theorem IsOpenTo.isOpen (h : entry.IsOpenTo names found) (hn : names ≠ []) : entry.isOpen = true := by
  cases names with
  | nil => exact absurd rfl hn
  | cons name rest => exact h.1

/-- A first name leads from an open directory to a file, or to a directory that is not passed over and from which the others lead
to one. -/
theorem reaches_cons_iff :
    entry.Reaches (name :: rest) ↔ entry.isOpen = true ∧ ∃ child, entry.child? name = some child ∧
      (rest = [] ∧ child.isFile = true ∨ child.isDirectory = true ∧ name ∉ FileTree.skippedNames ∧ child.Reaches rest) := by
  constructor
  · rintro ⟨found, ⟨hopen, child, hchild, hrest⟩, hfile, hskip⟩
    refine ⟨hopen, child, hchild, ?_⟩
    cases rest with
    | nil =>
      rw [hrest] at hfile
      exact Or.inl ⟨rfl, hfile⟩
    | cons other rest =>
      rw [List.dropLast_cons_cons, List.forall_mem_cons] at hskip
      exact Or.inr ⟨isDirectory_of_isOpen hrest.1, hskip.1, found, hrest, hfile, hskip.2⟩
  · rintro ⟨hopen, child, hchild, ⟨rfl, hfile⟩ | ⟨hdir, hskip, found, hrest, hfile, hothers⟩⟩
    · exact ⟨child, ⟨hopen, child, hchild, rfl⟩, hfile, fun other hother => absurd hother List.not_mem_nil⟩
    · refine ⟨found, ⟨hopen, child, hchild, hrest⟩, hfile, ?_⟩
      cases rest with
      | nil =>
        rw [hrest, isFile_of_isDirectory hdir] at hfile
        cases hfile
      | cons other rest =>
        rw [List.dropLast_cons_cons, List.forall_mem_cons]
        exact ⟨hskip, hothers⟩

/-- Names lead too deep if the first one leads, from an open directory, to a directory that is not passed over and from which the
others lead too deep. -/
theorem tooDeep_succ_iff {depth : Nat} {p : Path} :
    entry.TooDeep (depth + 1) p ↔ entry.isOpen = true ∧ ∃ name child, entry.child? name = some child ∧
      child.isDirectory = true ∧ name ∉ FileTree.skippedNames ∧ child.TooDeep depth (p.child name) := by
  constructor
  · rintro ⟨names, found, hlength, hnames, hcrowded, hskip, hsize⟩
    obtain ⟨name, rest, rfl⟩ := List.exists_cons_of_length_eq_add_one hlength
    obtain ⟨hopen, child, hchild, hrest⟩ := hnames
    have hdir : child.isDirectory = true := by
      cases rest with
      | nil =>
        rw [← hrest]
        exact isDirectory_of_isCrowded hcrowded
      | cons other rest => exact isDirectory_of_isOpen hrest.1
    rw [List.forall_mem_cons] at hskip
    refine ⟨hopen, name, child, hchild, hdir, hskip.1, rest, found, Nat.succ.inj hlength, hrest, hcrowded, hskip.2, ?_⟩
    rwa [Path.child_extend]
  · rintro ⟨hopen, name, child, hchild, -, hskip, rest, found, rfl, hrest, hcrowded, hothers, hsize⟩
    rw [Path.child_extend] at hsize
    exact ⟨name :: rest, found, rfl, ⟨hopen, child, hchild, hrest⟩, hcrowded, List.forall_mem_cons.2 ⟨hskip, hothers⟩, hsize⟩

mutual

/-- The most names that lead anywhere from an entry. -/
def height : Entry → Nat
  | directory _ children => heightIn children
  | _ => 0

/-- The most names that lead anywhere from a directory with these entries. -/
def heightIn : List (Text × Entry) → Nat
  | [] => 0
  | (_, entry) :: rest => max (entry.height + 1) (heightIn rest)

end

theorem height_lt_heightIn {children : List (Text × Entry)} (h : (name, child) ∈ children) : child.height < heightIn children := by
  induction children with
  | nil => cases h
  | cons first rest ih =>
    obtain ⟨other, entry⟩ := first
    rw [heightIn]
    rcases List.mem_cons.1 h with heq | h
    · cases heq
      exact Nat.le_max_left _ _
    · exact Nat.lt_of_lt_of_le (ih h) (Nat.le_max_right _ _)

/-- From an entry in a directory fewer names lead on than from the directory. -/
theorem height_child (h : entry.child? name = some child) : child.height < entry.height := by
  cases entry with
  | file content stamp denied => cases h
  | link target => cases h
  | directory access children => exact height_lt_heightIn (mem_of_lookup h)

/-- Where names lead to, there are the fewer names left. -/
theorem IsOpenTo.height_le (h : entry.IsOpenTo names found) : names.length + found.height ≤ entry.height := by
  induction names generalizing entry with
  | nil =>
    rw [h, List.length_nil, Nat.zero_add]
  | cons name rest ih =>
    obtain ⟨-, child, hchild, hrest⟩ := h
    have hlower := height_child hchild
    have hle := ih hrest
    rw [List.length_cons]
    omega

/-- Names that lead nowhere beyond a depth do not lead too deep. -/
theorem not_tooDeep_of_height {depth : Nat} (h : entry.height ≤ depth) (p : Path) : ¬entry.TooDeep depth p := by
  rintro ⟨names, found, rfl, hfound, hcrowded, -⟩
  have hle := hfound.height_le
  cases found with
  | file content stamp denied => cases hcrowded
  | link target => cases hcrowded
  | directory access children =>
    cases children with
    | nil => simp [isCrowded] at hcrowded
    | cons first rest =>
      rw [height, heightIn] at hle
      have hpos := Nat.le_max_left (first.2.height + 1) (heightIn rest)
      omega

/-- In a directory with different names each name leads to its entry. -/
theorem child?_of_mem {access : Access} {children : List (Text × Entry)} (hn : (children.map Prod.fst).Nodup)
    (h : (name, child) ∈ children) : (directory access children).child? name = some child := by
  induction children with
  | nil => cases h
  | cons first rest ih =>
    obtain ⟨other, entry⟩ := first
    rw [List.map_cons, List.nodup_cons] at hn
    rw [child?, List.lookup_cons]
    rcases List.mem_cons.1 h with heq | hrest
    · cases heq
      simp
    · have hne : (name == other) = false := by
        simp only [beq_eq_false_iff_ne, ne_eq]
        rintro rfl
        exact hn.1 (List.mem_map.2 ⟨(name, child), hrest, rfl⟩)
      rw [hne]
      exact ih hn.2 hrest

end Entry

/-! ## Paths that lead to a way -/

namespace Disk

variable {disk : Disk} {way after : Way} {p : Path} {names : List Text} {name : Text} {entry found : Entry} {workingDir : Place}

/-- The path can be followed and leads along the way; a disk follows it, unless it is too long. -/
structure IsAt (disk : Disk) (p : Path) (way : Way) : Prop extends IsProper p where
  leads : ∃ n ≤ linkLimit, Leads disk [] p.names way n

/-- A way that a path leads along holds no link. -/
theorem IsAt.isWay (h : IsAt disk p way) : IsWay disk way := by
  obtain ⟨n, -, hleads⟩ := h.leads
  exact hleads.isWay .root

/-- What a disk says of a path that leads along a way. -/
theorem IsAt.stat (h : IsAt disk p way) (workingDir : Place) :
    disk.stat workingDir p.text = if pathLimit ≤ Utf8.size p.text then .error .nameTooLong else .ok (disk.endOf way) := by
  obtain ⟨n, hn, hleads⟩ := h.leads
  rw [Disk.stat, locate_text h.toIsProper, follow_of_leads hleads, if_pos hn]
  split <;> rfl

/-- A written path of which a disk says something can be followed. -/
theorem isProper_of_stat (ha : p.isAbsolute = true) (hw : p.IsWritten) (h : disk.stat workingDir p.text = .ok entry) :
    IsProper p := by
  refine ⟨ha, hw, fun name hname hmem => ?_⟩
  rw [stat_error_nul_iff.2 ((Path.mem_text_iff ha (by decide)).2 ⟨name, hname, hmem⟩)] at h
  cases h

/-- A path of which a disk says something leads along a way. -/
theorem exists_isAt (hp : IsProper p) (h : disk.stat workingDir p.text = .ok entry) :
    ∃ way, IsAt disk p way ∧ disk.endOf way = entry := by
  rw [Disk.stat, locate_text hp] at h
  split at h
  · cases h
  · obtain ⟨way, hfollow, hend⟩ := map_eq_ok_iff.1 h
    obtain ⟨n, hn, hleads⟩ := leads_of_follow hfollow
    exact ⟨way, ⟨hp, n, hn, hleads⟩, hend⟩

/-- What stands in the directory that a path leads to is shown if the directory may be listed and the path is not too long. -/
theorem IsAt.children_eq_ok_iff (h : IsAt disk p way) {children : List (Text × Entry)} :
    disk.children workingDir p.text = .ok children ↔ Utf8.size p.text < pathLimit ∧ ∃ access,
      disk.endOf way = .directory access children ∧ access.lists = true := by
  rw [Disk.children, h.stat, bind_eq_ok_iff]
  by_cases hlong : pathLimit ≤ Utf8.size p.text
  · rw [if_pos hlong]
    refine iff_of_false ?_ fun hshort => Nat.not_lt.2 hlong hshort.1
    rintro ⟨entry, heq, -⟩
    cases heq
  · rw [if_neg hlong]
    constructor
    · rintro ⟨entry, heq, hchildren⟩
      cases heq
      refine ⟨Nat.not_le.1 hlong, ?_⟩
      split at hchildren
      · rename_i access inner hend
        split at hchildren
        · rename_i hlists
          cases hchildren
          exact ⟨access, hend, hlists⟩
        · cases hchildren
      · cases hchildren
    · rintro ⟨-, access, hend, hlists⟩
      refine ⟨_, rfl, ?_⟩
      rw [hend]
      exact if_pos hlists

/-- The names in the directory at the end of a way are different, and each can stand there. -/
theorem IsWay.children_sound (h : IsWay disk way) {access : Access} {children : List (Text × Entry)}
    (hend : disk.endOf way = .directory access children) :
    (children.map Prod.fst).Nodup ∧ ∀ child ∈ children, isName child.1 = true ∧ child.2.isSound = true := by
  have hsound : (Entry.directory access children).isSound = true := by
    rw [← hend]
    exact h.isSound.2
  exact Entry.areSound_iff.1 hsound

/-- A name that can stand in a directory can be followed behind a path. -/
theorem IsProper.child_of_isName (h : IsProper p) (hn : isName name = true) : IsProper (p.child name) := by
  obtain ⟨hkept, -, hslash, hnul, -⟩ := isName_iff.1 hn
  exact h.child hkept ⟨hslash, hnul⟩

/-- Names that can stand in directories can be followed behind a path, and they never lead back. -/
theorem IsProper.extend_of_isName (h : IsProper p) (hn : ∀ name ∈ names, isName name = true) :
    IsProper (p.extend names) ∧ Path.parentName ∉ names := by
  constructor
  · refine h.extend fun name hname => ?_
    obtain ⟨hkept, -, hslash, hnul, -⟩ := isName_iff.1 (hn name hname)
    exact ⟨hkept, hslash, hnul⟩
  · exact fun hmem => (isName_iff.1 (hn _ hmem)).2.1 rfl

/-- The path of an entry in a directory that may be searched leads there, if the entry is no link. -/
theorem IsAt.child (h : IsAt disk p way) (hsearch : (disk.endOf way).isSearchable = true)
    (hentry : (disk.endOf way).child? name = some entry) (hlink : entry.isLink = false) :
    IsAt disk (p.child name) ((name, entry) :: way) := by
  obtain ⟨n, hn, hleads⟩ := h.leads
  exact ⟨h.toIsProper.child_of_isName (Entry.isSound_child h.isWay.isSound.2 hentry).1, n, hn,
    hleads.append (h.isWay.leads_child hsearch hentry hlink)⟩

/-- Names that lead on from a way through open directories, behind the path of the way, make a path again. -/
theorem IsAt.extend (h : IsAt disk p way) (ho : (disk.endOf way).IsOpenTo names found) (hlink : found.isLink = false) :
    ∃ after, IsAt disk (p.extend names) after ∧ namesOf after = namesOf way ++ names ∧ disk.endOf after = found := by
  induction names generalizing p way with
  | nil =>
    rw [Path.extend_nil, List.append_nil]
    exact ⟨way, h, rfl, ho.symm⟩
  | cons name rest ih =>
    obtain ⟨hopen, child, hchild, hrest⟩ := ho
    have hnone : child.isLink = false := by
      cases rest with
      | nil => rwa [← hrest]
      | cons other rest => exact Entry.isLink_of_isDirectory (Entry.isDirectory_of_isOpen hrest.1)
    obtain ⟨after, hafter, hnames, hend⟩ := ih (h.child (Bool.and_eq_true_iff.1 hopen).2 hchild hnone) hrest
    rw [Path.child_extend] at hafter
    rw [namesOf_cons, List.append_assoc] at hnames
    exact ⟨after, hafter, hnames, hend⟩

/-- Names that lead on from a way through open directories never lead back. -/
theorem IsAt.parentName_not_mem (h : IsAt disk p way) (ho : (disk.endOf way).IsOpenTo names found)
    (hlink : found.isLink = false) : Path.parentName ∉ names := by
  obtain ⟨after, hafter, hnames, -⟩ := h.extend ho hlink
  intro hmem
  have hname : Path.parentName ∈ namesOf after := by
    rw [hnames]
    exact List.mem_append_right _ hmem
  exact (isName_iff.1 (hafter.isWay.isSound.1 _ hname)).2.1 rfl

/-- A last name is followed to its entry, also to a link if that is not to be followed, unless the directory may not be
searched. -/
theorem follow_last (hs : (disk.endOf way).isSound = true) (hentry : (disk.endOf way).child? name = some entry)
    {followLast : Bool} (hlink : entry.isLink = false ∨ followLast = false) (budget : Nat) :
    disk.follow followLast budget way [name] =
      if (disk.endOf way).isSearchable then .ok ((name, entry) :: way) else .error .denied := by
  obtain ⟨hkept, hname, -, -, hsize⟩ := isName_iff.1 (Entry.isSound_child hs hentry).1
  have hdir := Entry.isDirectory_of_child? hentry
  have hadmits := admits_of_isKept hkept (disk.endOf way)
  cases hsearch : (disk.endOf way).isSearchable with
  | false =>
    rw [follow]
    simp only [hdir, hadmits, hsearch, Bool.not_true, Bool.not_false, Bool.false_eq_true, if_false, if_true]
  | true =>
    rcases hlink with hlink | rfl
    · rw [follow_enter hkept hname hsize hsearch hentry hlink, follow]
      rfl
    · have hlong : ¬nameLimit < Utf8.size name := Nat.not_lt.2 hsize
      rw [follow]
      simp only [hdir, hadmits, hsearch, hkept, hname, hlong, hentry, Bool.not_true, Bool.false_eq_true, if_false, if_true]
      cases entry with
      | link target => rfl
      | file content stamp denied => exact follow.eq_1 ..
      | directory access children => exact follow.eq_1 ..

/-- Where a path directly below a directory leads. -/
theorem IsAt.locate_child (h : IsAt disk p way) (hentry : (disk.endOf way).child? name = some entry)
    {followLast : Bool} (hlink : entry.isLink = false ∨ followLast = false) :
    disk.locate followLast workingDir (p.child name).text =
      if pathLimit ≤ Utf8.size (p.child name).text then .error .nameTooLong
      else if (disk.endOf way).isSearchable then .ok ((name, entry) :: way) else .error .denied := by
  obtain ⟨n, hn, hleads⟩ := h.leads
  have hsound := h.isWay.isSound.2
  have hfollow : disk.follow followLast linkLimit [] (p.child name).names =
      disk.follow followLast (linkLimit - n) way [name] := by
    rw [Path.child_eq_extend, Path.extend, follow_append hleads (Or.inl (List.cons_ne_nil _ _)), if_pos hn]
  rw [locate_text (h.toIsProper.child_of_isName (Entry.isSound_child hsound hentry).1), hfollow,
    follow_last hsound hentry hlink]

end Disk

/-! ## The walk -/

/-- The files that a walk of an entry meets below its path: those that names lead to, as long as the path can be followed. -/
def Entry.FileBelow (entry : Entry) (p q : Path) : Prop :=
  ∃ names, q = p.extend names ∧ entry.Reaches names ∧ Utf8.size q.text < Disk.pathLimit

namespace FileTree

variable {host : Host} {p : Path} {way : Way} {name : Text} {names : List Text} {entry : Entry} {depth : Nat}

/-- A path below a directory is known to be a link or none, unless it is too long or may not be searched for. -/
theorem isLink_child (h : host.disk.IsAt p way) (hentry : (host.disk.endOf way).child? name = some entry) :
    (ofHost host).isLink (p.child name) =
      if Disk.pathLimit ≤ Utf8.size (p.child name).text then .error (.disk .nameTooLong)
      else if (host.disk.endOf way).isSearchable then .ok entry.isLink else .error (.disk .denied) := by
  simp only [ofHost, Host.isLink, Disk.isLink, h.locate_child hentry (Or.inr rfl)]
  split
  · rfl
  · split
    · cases entry <;> rfl
    · rfl

/-- A path below a directory that may be searched is known to be a directory or a file, if it is no link and not too long. -/
theorem kind_child (h : host.disk.IsAt p way) (hsearch : (host.disk.endOf way).isSearchable = true)
    (hentry : (host.disk.endOf way).child? name = some entry) (hlink : entry.isLink = false)
    (hshort : Utf8.size (p.child name).text < Disk.pathLimit) :
    (ofHost host).isDir (p.child name) = .ok entry.isDirectory ∧ (ofHost host).isFile (p.child name) = .ok entry.isFile := by
  have hstat : host.disk.stat host.workingDir.names (p.child name).text = .ok entry := by
    rw [(h.child hsearch hentry hlink).stat, if_neg (Nat.not_le.2 hshort)]
    rfl
  constructor
  · simp only [ofHost, Host.isDir, Disk.isDir, hstat]
    cases entry <;> rfl
  · simp only [ofHost, Host.isFile, Disk.isFile, hstat]
    cases entry <;> rfl

/-- What a path below a directory is known not to be a link takes. -/
theorem isLink_child_eq_false_iff (h : host.disk.IsAt p way) (hentry : (host.disk.endOf way).child? name = some entry) :
    (ofHost host).isLink (p.child name) = .ok false ↔ Utf8.size (p.child name).text < Disk.pathLimit ∧
      (host.disk.endOf way).isSearchable = true ∧ entry.isLink = false := by
  rw [isLink_child h hentry]
  split
  · rename_i hlong
    exact iff_of_false (fun heq => by cases heq) fun hshort => Nat.not_lt.2 hlong hshort.1
  · rename_i hshort
    split
    · rename_i hsearch
      simp [Nat.not_le.1 hshort, hsearch]
    · rename_i hsearch
      simp [hsearch]

theorem enters_child_iff (h : host.disk.IsAt p way) (hentry : (host.disk.endOf way).child? name = some entry) :
    (ofHost host).Enters (p.child name) ↔ Utf8.size (p.child name).text < Disk.pathLimit ∧
      (host.disk.endOf way).isSearchable = true ∧ entry.isDirectory = true ∧ name ∉ skippedNames := by
  rw [Enters, isLink_child_eq_false_iff h hentry, Path.name_child]
  constructor
  · rintro ⟨⟨hshort, hsearch, hlink⟩, hdir, hskip⟩
    rw [(kind_child h hsearch hentry hlink hshort).1, Except.ok.injEq] at hdir
    exact ⟨hshort, hsearch, hdir, hskip⟩
  · rintro ⟨hshort, hsearch, hdir, hskip⟩
    have hlink := Entry.isLink_of_isDirectory hdir
    refine ⟨⟨hshort, hsearch, hlink⟩, ?_, hskip⟩
    rw [(kind_child h hsearch hentry hlink hshort).1, hdir]

theorem finds_child_iff (h : host.disk.IsAt p way) (hentry : (host.disk.endOf way).child? name = some entry) :
    (ofHost host).Finds (p.child name) ↔ Utf8.size (p.child name).text < Disk.pathLimit ∧
      (host.disk.endOf way).isSearchable = true ∧ entry.isFile = true := by
  rw [Finds, isLink_child_eq_false_iff h hentry]
  constructor
  · rintro ⟨⟨hshort, hsearch, hlink⟩, -, hfile⟩
    rw [(kind_child h hsearch hentry hlink hshort).2, Except.ok.injEq] at hfile
    exact ⟨hshort, hsearch, hfile⟩
  · rintro ⟨hshort, hsearch, hfile⟩
    have hlink := Entry.isLink_of_isFile hfile
    have hdir : entry.isDirectory = false := by
      by_contra hdir
      rw [Entry.isFile_of_isDirectory (by simpa using hdir)] at hfile
      cases hfile
    obtain ⟨hisDir, hisFile⟩ := kind_child h hsearch hentry hlink hshort
    refine ⟨⟨hshort, hsearch, hlink⟩, ?_, ?_⟩
    · rw [hisDir, hdir]
    · rw [hisFile, hfile]

/-- The paths directly below a directory, unless its path is too long or it may not be listed. -/
theorem list_eq_ok_iff (h : host.disk.IsAt p way) {entries : List Path} :
    (ofHost host).list p = .ok entries ↔ Utf8.size p.text < Disk.pathLimit ∧ ∃ access children,
      host.disk.endOf way = .directory access children ∧ access.lists = true ∧
        entries = (children.map Prod.fst).map p.child := by
  have hlist : (ofHost host).list p = .ok entries ↔ ∃ children,
      host.disk.children host.workingDir.names p.text = .ok children ∧ (children.map Prod.fst).map p.child = entries := by
    simp only [ofHost, Host.list, Disk.list, mapError_eq_ok_iff, map_eq_ok_iff]
    constructor
    · rintro ⟨names, ⟨children, hchildren, rfl⟩, rfl⟩
      exact ⟨children, hchildren, rfl⟩
    · rintro ⟨children, hchildren, rfl⟩
      exact ⟨_, ⟨children, hchildren, rfl⟩, rfl⟩
  simp only [hlist, h.children_eq_ok_iff]
  constructor
  · rintro ⟨children, ⟨hshort, access, hend, hlists⟩, rfl⟩
    exact ⟨hshort, access, children, hend, hlists, rfl⟩
  · rintro ⟨hshort, access, children, hend, hlists, rfl⟩
    exact ⟨children, ⟨hshort, access, hend, hlists⟩, rfl⟩

/-- A directory shows the names of what stands in it, if it may be listed and its path is not too long. -/
theorem shows_iff (h : host.disk.IsAt p way) :
    (ofHost host).Shows p name ↔ Utf8.size p.text < Disk.pathLimit ∧ (host.disk.endOf way).isListable = true ∧
      ∃ child, (host.disk.endOf way).child? name = some child := by
  simp only [Shows, list_eq_ok_iff h]
  constructor
  · rintro ⟨entries, ⟨hshort, access, children, hend, hlists, rfl⟩, hmem⟩
    obtain ⟨other, hother, heq⟩ := List.mem_map.1 hmem
    obtain rfl : other = name := by rw [← Path.name_child p other, heq, Path.name_child]
    obtain ⟨⟨other, child⟩, hchild, rfl⟩ := List.mem_map.1 hother
    obtain ⟨hnodup, -⟩ := h.isWay.children_sound hend
    rw [hend]
    exact ⟨hshort, hlists, child, Entry.child?_of_mem hnodup hchild⟩
  · rintro ⟨hshort, hlists, child, hchild⟩
    cases hend : host.disk.endOf way with
    | file content stamp denied => rw [hend] at hchild; cases hchild
    | link target => rw [hend] at hchild; cases hchild
    | directory access children =>
      rw [hend] at hchild hlists
      refine ⟨_, ⟨hshort, access, children, rfl, hlists, rfl⟩, ?_⟩
      exact List.mem_map_of_mem (List.mem_map_of_mem (Entry.mem_of_lookup hchild))

/-- A directory shows something if something stands in it, it may be listed and its path is not too long. -/
theorem exists_shows_iff (h : host.disk.IsAt p way) :
    (∃ name, (ofHost host).Shows p name) ↔ Utf8.size p.text < Disk.pathLimit ∧ (host.disk.endOf way).isCrowded = true := by
  simp only [shows_iff h]
  cases hend : host.disk.endOf way with
  | file content stamp denied => simp [Entry.child?, Entry.isCrowded]
  | link target => simp [Entry.child?, Entry.isCrowded]
  | directory access children =>
    obtain ⟨hnodup, -⟩ := h.isWay.children_sound hend
    cases children with
    | nil => simp [Entry.child?, Entry.isCrowded]
    | cons first rest =>
      have hfirst : (Entry.directory access (first :: rest)).child? first.1 = some first.2 :=
        Entry.child?_of_mem hnodup List.mem_cons_self
      constructor
      · rintro ⟨name, hshort, hlists, -⟩
        refine ⟨hshort, ?_⟩
        rw [Entry.isCrowded, show access.lists = true from hlists]
        rfl
      · rintro ⟨hshort, hcrowded⟩
        exact ⟨first.1, hshort, (Bool.and_eq_true_iff.1 hcrowded).1, first.2, hfirst⟩

/-- What a path that can be followed is refused for is a failure of the disk. -/
theorem isDiskFailure_of_ne {e : DiskError} (h : e ≠ .nulCharacter) : (Fault.disk e).isDiskFailure = true := by
  cases e with
  | nulCharacter => exact absurd rfl h
  | _ => rfl

/-- A question that stays unanswered is refused for no NUL character. -/
theorem ne_nul_of_asks {answer : Except DiskError Bool} {e : DiskError} (h : Disk.asks answer = .error e) :
    e ≠ .nulCharacter := by
  rintro rfl
  cases (Disk.asks_error h).2

/-- The questions to a disk at paths that can be followed stay unanswered only where it fails, and directories list different
names. -/
theorem regular_ofHost (host : Host) : (ofHost host).Regular Disk.IsProper := by
  refine ⟨fun hp => hp.absolute, ?_, ?_⟩
  · intro p entries hp hlist
    have hstat : ∃ entry, host.disk.stat host.workingDir.names p.text = .ok entry := by
      obtain ⟨names, hnames, -⟩ := map_eq_ok_iff.1 (mapError_eq_ok_iff.1 hlist)
      obtain ⟨children, hchildren, -⟩ := map_eq_ok_iff.1 hnames
      obtain ⟨entry, hentry, -⟩ := bind_eq_ok_iff.1 hchildren
      exact ⟨entry, hentry⟩
    obtain ⟨entry, hstat⟩ := hstat
    obtain ⟨way, hway, -⟩ := Disk.exists_isAt hp hstat
    obtain ⟨-, access, children, hend, -, rfl⟩ := (list_eq_ok_iff hway).1 hlist
    obtain ⟨hnodup, hall⟩ := hway.isWay.children_sound hend
    refine ⟨_, rfl, hnodup, fun name hname => ?_⟩
    obtain ⟨child, hchild, rfl⟩ := List.mem_map.1 hname
    exact hp.child_of_isName (hall child hchild).1
  · rintro p fault hp (hlist | hasked | hasked | hasked)
    · obtain ⟨e, he, rfl⟩ := mapError_eq_error_iff.1 hlist
      rw [map_eq_error_iff, Host.list, Disk.list, map_eq_error_iff] at he
      refine isDiskFailure_of_ne ?_
      rintro rfl
      rcases bind_eq_error_iff.1 he with hstat | ⟨entry, -, hkind⟩
      · exact hp.nul_not_mem (Disk.stat_error_nul_iff.1 hstat)
      · split at hkind
        · split at hkind <;> cases hkind
        · cases hkind
    all_goals
      obtain ⟨e, he, rfl⟩ := mapError_eq_error_iff.1 hasked
      exact isDiskFailure_of_ne (ne_nul_of_asks he)

/-- A walk meets a file on a disk if names lead there, and as long as the path can be followed. -/
theorem meets_iff (h : host.disk.IsAt p way) (hd : (host.disk.endOf way).isDirectory = true) :
    (ofHost host).Meets p names ↔ (host.disk.endOf way).Reaches names ∧ Utf8.size (p.extend names).text < Disk.pathLimit := by
  induction names generalizing p way with
  | nil =>
    refine iff_of_false id ?_
    rintro ⟨⟨found, rfl, hfile, -⟩, -⟩
    rw [Entry.isFile_of_isDirectory hd] at hfile
    cases hfile
  | cons name rest ih =>
    have hfirst : Utf8.size (p.child name).text ≤ Utf8.size (p.extend (name :: rest)).text :=
      Path.size_text_le h.absolute [name] rest
    rw [Meets, shows_iff h, Entry.reaches_cons_iff]
    constructor
    · rintro ⟨⟨hshort, hlists, child, hchild⟩, hrest⟩
      rw [enters_child_iff h hchild, finds_child_iff h hchild] at hrest
      rcases hrest with ⟨⟨hsize, hsearch, hdir, hskip⟩, hmeets⟩ | ⟨rfl, hsize, hsearch, hfile⟩
      · have hbelow := (ih (h.child hsearch hchild (Entry.isLink_of_isDirectory hdir)) hdir).1 hmeets
        rw [Path.child_extend] at hbelow
        exact ⟨⟨Bool.and_eq_true_iff.2 ⟨hlists, hsearch⟩, child, hchild, Or.inr ⟨hdir, hskip, hbelow.1⟩⟩, hbelow.2⟩
      · exact ⟨⟨Bool.and_eq_true_iff.2 ⟨hlists, hsearch⟩, child, hchild, Or.inl ⟨rfl, hfile⟩⟩, hsize⟩
    · rintro ⟨⟨hopen, child, hchild, hrest⟩, hsize⟩
      obtain ⟨hlists, hsearch⟩ := Bool.and_eq_true_iff.1 hopen
      have hown : Utf8.size p.text ≤ Utf8.size (p.extend (name :: rest)).text := by
        have hle := Path.size_text_le h.absolute [] (name :: rest)
        rwa [Path.extend_nil] at hle
      refine ⟨⟨Nat.lt_of_le_of_lt hown hsize, hlists, child, hchild⟩, ?_⟩
      rw [enters_child_iff h hchild, finds_child_iff h hchild]
      rcases hrest with ⟨rfl, hfile⟩ | ⟨hdir, hskip, hreaches⟩
      · exact Or.inr ⟨rfl, hsize, hsearch, hfile⟩
      · refine Or.inl ⟨⟨Nat.lt_of_le_of_lt hfirst hsize, hsearch, hdir, hskip⟩, ?_⟩
        refine (ih (h.child hsearch hchild (Entry.isLink_of_isDirectory hdir)) hdir).2 ⟨hreaches, ?_⟩
        rwa [Path.child_extend]

/-- A walk comes too deep on a disk where names lead too deep. -/
theorem exceeds_iff (h : host.disk.IsAt p way) : (ofHost host).Exceeds depth p ↔ (host.disk.endOf way).TooDeep depth p := by
  induction depth generalizing p way with
  | zero =>
    rw [Exceeds, exists_shows_iff h]
    constructor
    · rintro ⟨hshort, hcrowded⟩
      refine ⟨[], _, rfl, rfl, hcrowded, fun name hname => absurd hname List.not_mem_nil, ?_⟩
      rwa [Path.extend_nil]
    · rintro ⟨names, found, hlength, hnames, hcrowded, -, hsize⟩
      obtain rfl := List.length_eq_zero_iff.1 hlength
      rw [Path.extend_nil] at hsize
      rw [← hnames]
      exact ⟨hsize, hcrowded⟩
  | succ depth ih =>
    rw [Exceeds, Entry.tooDeep_succ_iff]
    constructor
    · rintro ⟨name, hshows, henters, hexceeds⟩
      obtain ⟨-, hlists, child, hchild⟩ := (shows_iff h).1 hshows
      obtain ⟨-, hsearch, hdir, hskip⟩ := (enters_child_iff h hchild).1 henters
      exact ⟨Bool.and_eq_true_iff.2 ⟨hlists, hsearch⟩, name, child, hchild, hdir, hskip,
        (ih (h.child hsearch hchild (Entry.isLink_of_isDirectory hdir))).1 hexceeds⟩
    · rintro ⟨hopen, name, child, hchild, hdir, hskip, hdeep⟩
      obtain ⟨hlists, hsearch⟩ := Bool.and_eq_true_iff.1 hopen
      have hsize : Utf8.size (p.child name).text < Disk.pathLimit := by
        obtain ⟨names, -, -, -, -, -, hsize⟩ := hdeep
        rw [Path.child_extend] at hsize
        exact Nat.lt_of_le_of_lt (Path.size_text_le h.absolute [name] names) hsize
      have hown : Utf8.size p.text ≤ Utf8.size (p.child name).text := by
        have hle := Path.size_text_le h.absolute [] [name]
        rwa [Path.extend_nil] at hle
      exact ⟨name, (shows_iff h).2 ⟨Nat.lt_of_le_of_lt hown hsize, hlists, child, hchild⟩,
        (enters_child_iff h hchild).2 ⟨hsize, hsearch, hdir, hskip⟩,
        (ih (h.child hsearch hchild (Entry.isLink_of_isDirectory hdir))).2 hdeep⟩

/-- What a walk of a directory on a disk meets are files below it. -/
theorem fileBelow_of_mem_walk (h : host.disk.IsAt p way) (hd : (host.disk.endOf way).isDirectory = true) {q : Path}
    (hq : q ∈ ((ofHost host).walk depth p).items) : (host.disk.endOf way).FileBelow p q := by
  obtain ⟨names, rfl, hmeets⟩ := ((regular_ofHost host).walk_sound h.toIsProper depth).1 q hq
  exact ⟨names, rfl, (meets_iff h hd).1 hmeets⟩

/-- A walk of a directory on a disk from which names lead too deep ends in a fault. -/
theorem walk_fault_of_tooDeep (h : host.disk.IsAt p way) (hdeep : (host.disk.endOf way).TooDeep depth p) :
    ((ofHost host).walk depth p).fault = some .nestedTooDeep :=
  (regular_ofHost host).walk_fault h.toIsProper ((exceeds_iff h).2 hdeep)

/-- A walk of a directory on a disk meets the files below it, unless names lead too deep. -/
theorem walk_lists (h : host.disk.IsAt p way) (hd : (host.disk.endOf way).isDirectory = true)
    (hdeep : ¬(host.disk.endOf way).TooDeep depth p) :
    ((ofHost host).walk depth p).Lists ((host.disk.endOf way).FileBelow p) := by
  obtain ⟨hends, hordered, hmem⟩ :=
    (regular_ofHost host).walk_lists h.toIsProper fun hexceeds => hdeep ((exceeds_iff h).1 hexceeds)
  refine ⟨hends, hordered, fun q => ?_⟩
  rw [hmem]
  simp only [meets_iff h hd]
  constructor
  · rintro ⟨names, rfl, hreaches⟩
    exact ⟨names, rfl, hreaches⟩
  · rintro ⟨names, rfl, hreaches⟩
    exact ⟨names, rfl, hreaches⟩

end FileTree

end SymbolSearch
