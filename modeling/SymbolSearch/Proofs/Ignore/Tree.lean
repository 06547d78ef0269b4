import Mathlib.Data.List.Induction
import SymbolSearch.Proofs.Ignore
import SymbolSearch.Proofs.Source.Walk

/-!
# The ignore files of a tree

Where all ignore files of a tree are obeyed, they are those that stand in the directories at and below the root and are no links
(`mem_pathsUnder`). They are looked for by their paths, also where there is none: a path that is too long to look at ends the
search, and so do too many directories inside each other (`pathsUnder_error_iff`). On a disk the directories that are met are those
that listings show (`descends_iff`).
-/

namespace SymbolSearch

namespace Ignore

variable {host : Host} {p q root : Path} {name : Text} {names front : List Text} {depth : Nat} {fault : Fault}

/-! ## Directories inside each other -/

/-- Each name is that of a directory in the one before. -/
def Descends (host : Host) : Path → List Text → Prop
  | _, [] => True
  | p, name :: rest => name ∈ (host.subdirectories p.text).toOption.getD [] ∧ Descends host (p.child name) rest

/-- So many directories stand inside each other, the first one not counted. -/
def Nests (host : Host) (depth : Nat) (p : Path) : Prop :=
  ∃ names, names.length = depth ∧ Descends host p names

theorem nests_succ_iff :
    Nests host (depth + 1) p ↔ ∃ name ∈ (host.subdirectories p.text).toOption.getD [], Nests host depth (p.child name) := by
  constructor
  · rintro ⟨names, hlength, hnames⟩
    obtain ⟨name, rest, rfl⟩ := List.exists_cons_of_length_eq_add_one hlength
    exact ⟨name, hnames.1, rest, Nat.succ.inj hlength, hnames.2⟩
  · rintro ⟨name, hname, rest, hlength, hrest⟩
    exact ⟨name :: rest, congrArg Nat.succ hlength, hname, hrest⟩

/-- The directories in a directory are met behind it. -/
theorem directories_succ (host : Host) (depth : Nat) (p : Path) :
    directories host (depth + 1) p =
      ⟨p :: (Trail.through (directories host depth) (((host.subdirectories p.text).toOption.getD []).map p.child)).items,
        (Trail.through (directories host depth) (((host.subdirectories p.text).toOption.getD []).map p.child)).fault⟩ := by
  rw [directories, Trail.one_append]

/-- Looking through directories ends early exactly where too many of them are inside each other. -/
theorem directories_fault_iff :
    (directories host depth p).fault = some fault ↔ fault = .nestedTooDeep ∧ Nests host depth p := by
  induction depth generalizing p fault with
  | zero =>
    have hnests : Nests host 0 p := ⟨[], rfl, trivial⟩
    simp [directories, hnests, eq_comm]
  | succ depth ih =>
    rw [directories_succ, nests_succ_iff]
    constructor
    · intro hfault
      obtain ⟨path, hpath, hfault⟩ := Trail.through_fault hfault
      obtain ⟨name, hname, rfl⟩ := List.mem_map.1 hpath
      exact ⟨(ih.1 hfault).1, name, hname, (ih.1 hfault).2⟩
    · rintro ⟨rfl, name, hname, hnests⟩
      -- the directory of that name ends the search, unless another one has before, for the same reason
      have hended : (Trail.through (directories host depth) (((host.subdirectories p.text).toOption.getD []).map p.child)).fault ≠
          none := by
        intro hnone
        have hdirectory := Trail.through_fault_eq_none_iff.1 hnone _ (List.mem_map_of_mem hname)
        rw [ih.2 ⟨rfl, hnests⟩] at hdirectory
        cases hdirectory
      obtain ⟨fault, hfault⟩ := Option.ne_none_iff_exists'.1 hended
      obtain ⟨path, -, hpath⟩ := Trail.through_fault hfault
      rw [(ih.1 hpath).1] at hfault
      exact hfault

/-- The directories that are met are directories inside each other. -/
theorem exists_of_mem_directories (h : q ∈ (directories host depth p).items) :
    ∃ names, q = p.extend names ∧ Descends host p names := by
  induction depth generalizing p with
  | zero =>
    obtain rfl := List.mem_singleton.1 h
    exact ⟨[], (Path.extend_nil q).symm, trivial⟩
  | succ depth ih =>
    rw [directories_succ] at h
    rcases List.mem_cons.1 h with rfl | h
    · exact ⟨[], (Path.extend_nil q).symm, trivial⟩
    · obtain ⟨path, hpath, hq⟩ := Trail.exists_of_mem_through h
      obtain ⟨name, hname, rfl⟩ := List.mem_map.1 hpath
      obtain ⟨rest, rfl, hrest⟩ := ih hq
      exact ⟨name :: rest, Path.child_extend p name rest, hname, hrest⟩

/-- Where not too many directories are inside each other, all of them are met. -/
theorem mem_directories_iff (hd : ¬Nests host depth p) :
    q ∈ (directories host depth p).items ↔ ∃ names, q = p.extend names ∧ Descends host p names := by
  refine ⟨exists_of_mem_directories, ?_⟩
  rintro ⟨names, rfl, hnames⟩
  induction depth generalizing p names with
  | zero => exact absurd ⟨[], rfl, trivial⟩ hd
  | succ depth ih =>
    rw [directories_succ]
    cases names with
    | nil =>
      rw [Path.extend_nil]
      exact List.mem_cons_self
    | cons name rest =>
      have hbelow : ∀ other ∈ (host.subdirectories p.text).toOption.getD [], ¬Nests host depth (p.child other) :=
        fun other hother hnests => hd (nests_succ_iff.2 ⟨other, hother, hnests⟩)
      have hends : ∀ path ∈ ((host.subdirectories p.text).toOption.getD []).map p.child,
          (directories host depth path).fault = none := by
        intro path hpath
        obtain ⟨other, hother, rfl⟩ := List.mem_map.1 hpath
        refine Option.eq_none_iff_forall_ne_some.2 fun fault hfault => ?_
        exact hbelow other hother (directories_fault_iff.1 hfault).2
      rw [Trail.through_of_faultless hends]
      refine List.mem_cons_of_mem _ (List.mem_flatMap.2 ⟨p.child name, List.mem_map_of_mem hnames.1, ?_⟩)
      have hrest := ih (hbelow name hnames.1) rest hnames.2
      rwa [Path.child_extend] at hrest

/-! ## The ignore files in them -/

/-- The path leads to a file and is no link. -/
def IsOwn (host : Host) (path : Path) : Prop :=
  host.isFile path.text = .ok true ∧ host.isLink path.text = .ok false

/-- Where the disk says whether a path leads to a file, it says whether it is a link. -/
theorem exists_isLink {s : Text} {found : Bool} (h : host.isFile s = .ok found) : ∃ linked, host.isLink s = .ok linked := by
  cases hl : host.isLink s with
  | ok linked => exact ⟨linked, rfl⟩
  | error e =>
    rw [Host.isFile_of_isLink_error hl] at h
    cases h

/-- The path of a directory's ignore file is too long to look at, or it leads to a name that is. -/
def IsOverlong (host : Host) (directory : Path) : Prop :=
  host.isFile (directory.child fileName).text = .error .nameTooLong

/-- Looking for the ignore file of a directory: it may not be looked for, its path is too long, or it is found or not. -/
theorem ownFile?_cases (host : Host) (p : Path) :
    host.isFile (p.child fileName).text = .error .denied ∧ ownFile? host p = .ok none ∨
    IsOverlong host p ∧ ownFile? host p = .error (.disk .nameTooLong) ∨
    ∃ found linked, host.isFile (p.child fileName).text = .ok found ∧ host.isLink (p.child fileName).text = .ok linked ∧
      ownFile? host p = .ok (if found && !linked then some (p.child fileName) else none) := by
  cases hf : host.isFile (p.child fileName).text with
  | error e =>
    rcases Host.isFile_error hf with rfl | rfl
    · exact Or.inl ⟨rfl, by simp only [ownFile?, hf]⟩
    · exact Or.inr (Or.inl ⟨hf, by simp only [ownFile?, hf]⟩)
  | ok found =>
    obtain ⟨linked, hl⟩ := exists_isLink hf
    refine Or.inr (Or.inr ⟨found, linked, rfl, hl, ?_⟩)
    simp only [ownFile?, hf, hl]
    rfl

/-- An ignore file is looked for in vain where its path is too long. -/
theorem ownFile?_error_iff : ownFile? host p = .error fault ↔ fault = .disk .nameTooLong ∧ IsOverlong host p := by
  rcases ownFile?_cases host p with ⟨hf, hown⟩ | ⟨hlong, hown⟩ | ⟨found, linked, hf, -, hown⟩
  · simp [hown, IsOverlong, hf]
  · simp [hown, hlong, eq_comm]
  · simp [hown, IsOverlong, hf]

/-- An ignore file is found in a directory exactly if it stands there itself. -/
theorem ownFile?_eq_some_iff : ownFile? host p = .ok (some path) ↔ path = p.child fileName ∧ IsOwn host path := by
  have hsame : path = p.child fileName ∧ IsOwn host path ↔ path = p.child fileName ∧ IsOwn host (p.child fileName) := by
    refine and_congr_right ?_
    rintro rfl
    rfl
  rw [hsame, IsOwn]
  rcases ownFile?_cases host p with ⟨hf, hown⟩ | ⟨hlong, hown⟩ | ⟨found, linked, hf, hl, hown⟩
  · simp [hown, hf]
  · unfold IsOverlong at hlong
    simp [hown, hlong]
  · rw [hown, hf, hl]
    cases found <;> cases linked <;> simp [eq_comm]

/-- What keeps the ignore files of a tree from being found: the path of one is too long to look at, or too many directories are
inside each other, whichever is met first. -/
inductive Halts (host : Host) (root : Path) : Fault → Prop where
  | overlong {directory : Path} (hd : directory ∈ (directories host host.depths.ignores root).items)
      (hl : IsOverlong host directory) : Halts host root (.disk .nameTooLong)
  | depth (hn : Nests host host.depths.ignores root)
      (hl : ∀ directory ∈ (directories host host.depths.ignores root).items, ¬IsOverlong host directory) :
      Halts host root .nestedTooDeep

/-- The ignore files of a tree are not found where the disk does not say whether its root is a directory, and below one where
something keeps them from being found. -/
theorem pathsUnder_error_iff :
    pathsUnder host root = .error fault ↔ (∃ e, host.isDir root.text = .error e ∧ fault = .disk e) ∨
      host.isDir root.text = .ok true ∧ Halts host root fault := by
  have hanswered : ∀ directory, (∃ found, ownFile? host directory = .ok found) ↔ ¬IsOverlong host directory := by
    intro directory
    rcases ownFile?_cases host directory with ⟨hf, hown⟩ | ⟨hlong, hown⟩ | ⟨found, linked, hf, -, hown⟩
    · simp [hown, IsOverlong, hf]
    · simp [hown, hlong]
    · simp [hown, IsOverlong, hf]
  have hhalts : ((directories host host.depths.ignores root).filterMap (ownFile? host)).fault = some fault ↔
      Halts host root fault := by
    rw [Trail.filterMap_fault_iff]
    simp only [hanswered, ownFile?_error_iff, directories_fault_iff]
    constructor
    · rintro (⟨before, directory, after, hsplit, -, rfl, hlong⟩ | ⟨hall, rfl, hnests⟩)
      · refine .overlong ?_ hlong
        rw [hsplit]
        simp
      · exact .depth hnests hall
    · rintro (⟨hmem, hlong⟩ | ⟨hnests, hall⟩)
      · have hsome : ∃ directory ∈ (directories host host.depths.ignores root).items, ∃ _ : Unit, IsOverlong host directory :=
          ⟨_, hmem, (), hlong⟩
        obtain ⟨-, before, directory, after, hsplit, hbefore, hlong⟩ := exists_until_iff.2 hsome
        exact Or.inl ⟨before, directory, after, hsplit, fun other hother => hbefore other hother (), rfl, hlong⟩
      · exact Or.inr ⟨hall, rfl, hnests⟩
  rw [← hhalts, pathsUnder, bind_eq_error_iff, mapError_eq_error_iff]
  refine or_congr ?_ ?_
  · simp [eq_comm]
  · simp only [mapError_eq_ok_iff, bind_eq_error_iff, Trail.all_eq_error_iff, reduceCtorEq, and_false, exists_false, or_false]
    constructor
    · rintro ⟨found, hfound, hfault⟩
      cases found with
      | true => exact ⟨hfound, hfault⟩
      | false => cases hfault
    · rintro ⟨hfound, hfault⟩
      exact ⟨true, hfound, hfault⟩

/-- The ignore files of a tree are those that stand in the directories at and below its root. -/
theorem mem_pathsUnder {paths : List Path} (hd : host.isDir root.text = .ok true) (h : pathsUnder host root = .ok paths) :
    path ∈ paths ↔ ∃ front, Descends host root front ∧ path = (root.extend front).child fileName ∧ IsOwn host path := by
  have hnests : ¬Nests host host.depths.ignores root := by
    intro hnests
    obtain ⟨fault, hhalts⟩ : ∃ fault, Halts host root fault := by
      by_cases hlong : ∃ directory ∈ (directories host host.depths.ignores root).items, IsOverlong host directory
      · obtain ⟨directory, hmem, hlong⟩ := hlong
        exact ⟨_, .overlong hmem hlong⟩
      · exact ⟨_, .depth hnests fun directory hmem hl => hlong ⟨directory, hmem, hl⟩⟩
    rw [pathsUnder_error_iff.2 (Or.inr ⟨hd, hhalts⟩)] at h
    cases h
  obtain ⟨found, hfound, h⟩ := bind_eq_ok_iff.1 h
  rw [mapError_eq_ok_iff, hd] at hfound
  cases hfound
  obtain ⟨own, hown, h⟩ := bind_eq_ok_iff.1 h
  cases h
  rw [List.mem_mergeSort, Trail.mem_filterMap_of_all hown]
  simp only [if_true, mem_directories_iff hnests, ownFile?_eq_some_iff]
  constructor
  · rintro ⟨directory, ⟨front, rfl, hfront⟩, hpath⟩
    exact ⟨front, hfront, hpath⟩
  · rintro ⟨front, hfront, hpath⟩
    exact ⟨_, ⟨front, rfl, hfront⟩, hpath⟩

/-- The ignore files that are obeyed are not found where all of them are looked for and not found, and where the disk does not say
whether the root has one. -/
theorem pathsFor_error_iff {nested : Bool} :
    pathsFor host nested root = .error fault ↔ nested = true ∧ pathsUnder host root = .error fault ∨
      (nested = true → ∃ paths, pathsUnder host root = .ok paths) ∧
        ∃ e, host.isFile (root.child fileName).text = .error e ∧ fault = .disk e := by
  rw [pathsFor, bind_eq_error_iff]
  simp only [bind_eq_error_iff, mapError_eq_error_iff, reduceCtorEq, and_false, exists_false, or_false]
  cases nested with
  | false => simp [eq_comm]
  | true => simp [eq_comm]

/-- The ignore files that are obeyed are not found, in a way that a scan does not contain, exactly where all of them are looked for
and too many directories are inside each other. -/
theorem exists_pathsFor_uncontained_iff {nested : Bool} :
    (∃ fault, pathsFor host nested root = .error fault ∧ fault.isContained = false) ↔
      nested = true ∧ host.isDir root.text = .ok true ∧ Nests host host.depths.ignores root ∧
        ∀ directory ∈ (directories host host.depths.ignores root).items, ¬IsOverlong host directory := by
  simp only [pathsFor_error_iff, pathsUnder_error_iff]
  constructor
  · rintro ⟨fault, ⟨hnested, ⟨e, -, rfl⟩ | ⟨hdir, hhalts⟩⟩ | ⟨-, e, -, rfl⟩, hc⟩
    · cases hc
    · cases hhalts with
      | overlong hmem hlong => cases hc
      | depth hnests hshort => exact ⟨hnested, hdir, hnests, hshort⟩
    · cases hc
  · rintro ⟨hnested, hdir, hnests, hshort⟩
    exact ⟨.nestedTooDeep, Or.inl ⟨hnested, Or.inr ⟨hdir, .depth hnests hshort⟩⟩, rfl⟩

end Ignore

/-! ## Directories that a disk shows -/

namespace Entry

variable {entry : Entry} {names front back : List Text} {name : Text}

/-- Names lead from an entry to a directory, links not followed. Each is shown where it stands, and where names follow it can also
be looked up there. -/
def ShowsDirectory : Entry → List Text → Prop
  | entry, [] => entry.isDirectory = true
  | entry, name :: rest =>
    entry.isListable = true ∧ (rest = [] ∨ entry.isSearchable = true) ∧
      ∃ child, entry.child? name = some child ∧ child.ShowsDirectory rest

/-- So many directories are shown inside each other, the first one not counted, and the path to the last but one can be
followed. -/
def Stacks (entry : Entry) (depth : Nat) (p : Path) : Prop :=
  ∃ names, names.length = depth ∧ entry.ShowsDirectory names ∧
    (names = [] ∨ Utf8.size (p.extend names.dropLast).text < Disk.pathLimit)

theorem ShowsDirectory.isDirectory (h : entry.ShowsDirectory names) : entry.isDirectory = true := by
  cases names with
  | nil => exact h
  | cons name rest =>
    obtain ⟨-, -, child, hchild, -⟩ := h
    exact isDirectory_of_child? hchild

/-- The directory in which a directory is shown is shown itself. -/
theorem ShowsDirectory.parent (h : entry.ShowsDirectory (front ++ [name])) : entry.ShowsDirectory front := by
  induction front generalizing entry with
  | nil => exact h.isDirectory
  | cons first rest ih =>
    obtain ⟨hlists, hsearch, child, hchild, hrest⟩ := h
    have hsearch := hsearch.resolve_left (List.append_ne_nil_of_right_ne_nil _ (List.cons_ne_nil _ _))
    exact ⟨hlists, Or.inr hsearch, child, hchild, ih hrest⟩

/-- Names that lead to a directory can stand in directories. -/
theorem ShowsDirectory.isName (h : entry.ShowsDirectory names) (hs : entry.isSound = true) :
    ∀ name ∈ names, Disk.isName name = true := by
  induction names generalizing entry with
  | nil => exact fun name hname => absurd hname List.not_mem_nil
  | cons name rest ih =>
    obtain ⟨-, -, child, hchild, hrest⟩ := h
    obtain ⟨hname, hchild⟩ := isSound_child hs hchild
    exact List.forall_mem_cons.2 ⟨hname, ih hrest hchild⟩

/-- Where names lead nowhere as deep, not too many directories are inside each other. -/
theorem not_stacks_of_height {depth : Nat} (h : entry.height < depth) (p : Path) : ¬entry.Stacks depth p := by
  rintro ⟨names, rfl, hshows, -⟩
  induction names generalizing entry with
  | nil => cases h
  | cons name rest ih =>
    obtain ⟨-, -, child, hchild, hrest⟩ := hshows
    have hlower := height_child hchild
    rw [List.length_cons] at h
    exact ih (by omega) hrest

/-- A directory that names lead to through open directories is shown. -/
theorem IsOpenTo.showsDirectory {found : Entry} (h : entry.IsOpenTo names found) (hd : found.isDirectory = true) :
    entry.ShowsDirectory names := by
  induction names generalizing entry with
  | nil =>
    rw [← h]
    exact hd
  | cons name rest ih =>
    obtain ⟨hopen, child, hchild, hrest⟩ := h
    obtain ⟨hlists, hsearch⟩ := Bool.and_eq_true_iff.1 hopen
    exact ⟨hlists, Or.inr hsearch, child, hchild, ih hrest⟩

/-- In front of names that lead to a file stand only names that lead to directories. -/
theorem Reaches.showsDirectory (h : entry.Reaches (front ++ back)) (hb : back ≠ []) : entry.ShowsDirectory front := by
  obtain ⟨found, hfound, -⟩ := h
  obtain ⟨middle, hfront, hback⟩ := isOpenTo_append_iff.1 hfound
  exact hfront.showsDirectory (isDirectory_of_isOpen (hback.isOpen hb))

/-- Names that lead to a file do not lead to a directory. -/
theorem Reaches.not_showsDirectory (h : entry.Reaches names) : ¬entry.ShowsDirectory names := by
  obtain ⟨found, hfound, hfile, -⟩ := h
  intro hshows
  induction names generalizing entry with
  | nil =>
    rw [hfound, isFile_of_isDirectory hshows] at hfile
    cases hfile
  | cons name rest ih =>
    obtain ⟨-, child, hchild, hrest⟩ := hfound
    obtain ⟨-, -, child', hchild', hshows⟩ := hshows
    rw [hchild] at hchild'
    cases hchild'
    exact ih hrest hshows

end Entry

/-- A disk refuses to look at a path that is too long. -/
theorem Host.isFile_of_long {host : Host} {s : Text} (hn : '\x00' ∉ s) (hl : Disk.pathLimit ≤ Utf8.size s) :
    host.isFile s = .error .nameTooLong := by
  have hempty : ¬s.isEmpty = true := by
    rintro hempty
    rw [List.isEmpty_iff.1 hempty] at hl
    cases hl
  have hstat : host.disk.stat host.workingDir.names s = .error .nameTooLong := by
    rw [Disk.stat, Disk.locate, if_neg (by simpa using hn), if_neg hempty, if_pos hl]
    rfl
  rw [isFile, Disk.isFile, hstat]
  rfl

namespace Ignore

variable {host : Host} {p : Path} {way : Way} {name : Text} {names front : List Text} {depth : Nat}

/-- The directories in a directory, if it may be listed and its path is not too long. -/
theorem mem_subdirectories_iff (h : host.disk.IsAt p way) :
    name ∈ (host.subdirectories p.text).toOption.getD [] ↔ Utf8.size p.text < Disk.pathLimit ∧
      (host.disk.endOf way).isListable = true ∧
        ∃ child, (host.disk.endOf way).child? name = some child ∧ child.isDirectory = true := by
  have hshown : ∀ names, host.subdirectories p.text = .ok names ↔ ∃ children,
      host.disk.children host.workingDir.names p.text = .ok children ∧
        (children.filter (fun child => child.2.isDirectory)).map Prod.fst = names :=
    fun names => map_eq_ok_iff
  simp only [h.children_eq_ok_iff] at hshown
  constructor
  · intro hname
    cases hsub : host.subdirectories p.text with
    | error e =>
      rw [hsub] at hname
      cases hname
    | ok names =>
      rw [hsub] at hname
      obtain ⟨children, ⟨hshort, access, hend, hlists⟩, rfl⟩ := (hshown names).1 hsub
      obtain ⟨⟨other, child⟩, hmem, rfl⟩ := List.mem_map.1 hname
      obtain ⟨hmem, hdir⟩ := List.mem_filter.1 hmem
      rw [hend]
      exact ⟨hshort, hlists, child, Entry.child?_of_mem (h.isWay.children_sound hend).1 hmem, hdir⟩
  · rintro ⟨hshort, hlists, child, hchild, hdir⟩
    cases hend : host.disk.endOf way with
    | file content stamp denied => rw [hend] at hchild; cases hchild
    | link target => rw [hend] at hchild; cases hchild
    | directory access children =>
      rw [hend] at hchild hlists
      rw [(hshown _).2 ⟨children, ⟨hshort, access, hend, hlists⟩, rfl⟩]
      exact List.mem_map.2 ⟨(name, child), List.mem_filter.2 ⟨Entry.mem_of_lookup hchild, hdir⟩, rfl⟩

/-- Below a directory that may not be searched no directory can be listed. -/
theorem subdirectories_child_of_denied (h : host.disk.IsAt p way) (hs : (host.disk.endOf way).isSearchable = false)
    {child : Entry} (hchild : (host.disk.endOf way).child? name = some child) (hd : child.isDirectory = true) :
    (host.subdirectories (p.child name).text).toOption.getD [] = [] := by
  have hlocate : ∃ e, host.disk.locate true host.workingDir.names (p.child name).text = .error e := by
    rw [h.locate_child hchild (Or.inl (Entry.isLink_of_isDirectory hd)), hs]
    split
    · exact ⟨_, rfl⟩
    · exact ⟨_, rfl⟩
  obtain ⟨e, hlocate⟩ := hlocate
  simp only [Host.subdirectories, Disk.subdirectories, Disk.children, Disk.stat, hlocate]
  rfl

/-- The directories that are met inside each other are those that the disk shows, as far as their paths can be followed. -/
theorem descends_iff (h : host.disk.IsAt p way) (hd : (host.disk.endOf way).isDirectory = true) :
    Descends host p names ↔ (host.disk.endOf way).ShowsDirectory names ∧
      (names = [] ∨ Utf8.size (p.extend names.dropLast).text < Disk.pathLimit) := by
  induction names generalizing p way with
  | nil => simp [Descends, Entry.ShowsDirectory, hd]
  | cons name rest ih =>
    rw [Descends, mem_subdirectories_iff h, Entry.ShowsDirectory]
    cases rest with
    | nil =>
      simp only [Descends, Entry.ShowsDirectory, List.dropLast_singleton, Path.extend_nil, and_true, true_or, true_and,
        reduceCtorEq, false_or]
      exact and_comm
    | cons other rest =>
      simp only [reduceCtorEq, false_or, List.dropLast_cons_cons, ← Path.child_extend]
      constructor
      · rintro ⟨⟨-, hlists, child, hchild, hdir⟩, hrest⟩
        cases hsearch : (host.disk.endOf way).isSearchable with
        | false =>
          have hnone := hrest.1
          rw [subdirectories_child_of_denied h hsearch hchild hdir] at hnone
          cases hnone
        | true =>
          obtain ⟨hshows, hshort⟩ := (ih (h.child hsearch hchild (Entry.isLink_of_isDirectory hdir)) hdir).1 hrest
          exact ⟨⟨hlists, rfl, child, hchild, hshows⟩, hshort.resolve_left (List.cons_ne_nil _ _)⟩
      · rintro ⟨⟨hlists, hsearch, child, hchild, hshows⟩, hshort⟩
        have hdir := hshows.isDirectory
        have hown : Utf8.size p.text ≤ Utf8.size ((p.child name).extend (other :: rest).dropLast).text := by
          have hle := Path.size_text_le h.absolute [] (name :: (other :: rest).dropLast)
          rwa [Path.extend_nil, List.nil_append, ← Path.child_extend] at hle
        exact ⟨⟨Nat.lt_of_le_of_lt hown hshort, hlists, child, hchild, hdir⟩,
          (ih (h.child hsearch hchild (Entry.isLink_of_isDirectory hdir)) hdir).2 ⟨hshows, Or.inr hshort⟩⟩

theorem nests_iff (h : host.disk.IsAt p way) (hd : (host.disk.endOf way).isDirectory = true) :
    Nests host depth p ↔ (host.disk.endOf way).Stacks depth p := by
  simp only [Nests, Entry.Stacks, descends_iff h hd]

/-- The ignore file of a directory whose own path is too long has a path that is. -/
theorem isOverlong_of_long (hp : Disk.IsProper p) (hl : Disk.pathLimit ≤ Utf8.size p.text) : IsOverlong host p := by
  refine Host.isFile_of_long (hp.child (by decide) (by decide)).nul_not_mem (Nat.le_trans hl ?_)
  have hsize := Path.size_text_le hp.absolute [] [fileName]
  rwa [Path.extend_nil, List.nil_append, ← Path.child_eq_extend] at hsize

/-- A shown directory whose ignore file has a path that is too long brings one that is met: itself, or one above it. -/
theorem exists_descends_of_overlong (h : host.disk.IsAt p way) (hs : (host.disk.endOf way).ShowsDirectory names)
    (hl : IsOverlong host (p.extend names)) : ∃ front, Descends host p front ∧ IsOverlong host (p.extend front) := by
  have hd := hs.isDirectory
  induction names using List.reverseRecOn with
  | nil => exact ⟨[], trivial, hl⟩
  | append_singleton front name ih =>
    by_cases hshort : Utf8.size (p.extend front).text < Disk.pathLimit
    · refine ⟨front ++ [name], (descends_iff h hd).2 ⟨hs, Or.inr ?_⟩, hl⟩
      rwa [List.dropLast_concat]
    · have hproper := (h.toIsProper.extend_of_isName (hs.parent.isName h.isWay.isSound.2)).1
      exact ih hs.parent (isOverlong_of_long hproper (Nat.not_lt.1 hshort))

/-- A shown directory with an ignore file of its own is met. -/
theorem descends_of_isOwn (h : host.disk.IsAt p way) (hs : (host.disk.endOf way).ShowsDirectory names)
    (ho : IsOwn host ((p.extend names).child fileName)) : Descends host p names := by
  refine (descends_iff h hs.isDirectory).2 ⟨hs, ?_⟩
  rcases List.eq_nil_or_concat' names with rfl | ⟨front, name, rfl⟩
  · exact Or.inl rfl
  · refine Or.inr ?_
    rw [List.dropLast_concat]
    refine Nat.lt_of_le_of_lt (Path.size_text_le h.absolute front [name]) ?_
    by_contra hlong
    have hproper := (h.toIsProper.extend_of_isName (hs.isName h.isWay.isSound.2)).1
    have hoverlong : IsOverlong host (p.extend (front ++ [name])) := isOverlong_of_long hproper (Nat.not_lt.1 hlong)
    have hboth := ho.1.symm.trans hoverlong
    cases hboth

end Ignore

end SymbolSearch
