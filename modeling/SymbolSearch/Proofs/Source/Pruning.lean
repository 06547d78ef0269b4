import Mathlib
import SymbolSearch.Proofs.Disk.LinkFree
import SymbolSearch.Proofs.Ignore.Tree
import SymbolSearch.Proofs.Source
import SymbolSearch.Proofs.Source.Files
import SymbolSearch.Proofs.Tree.Memory

/-!
# Refusals only prune

A scan of a tree in memory gives what it gives on the pruned tree, in which nothing is refused (`scan_prunes`). The disk has a say
in it as well, though nothing of the tree lies there: it may refuse to look for an ignore file in the root, and the links on the
way of the root may lead around in circles. A tree that is too deep for a walk ends the scan.
-/

namespace SymbolSearch

/-! ## Roots below which the disk holds nothing -/

namespace Host

variable {host : Host} {root : Path} {way : Way} {name : Text}

/-- On the disk nothing lies below where the path leads once no link is left on the way. -/
def IsBare (host : Host) (root : Path) : Prop :=
  ∀ base, host.canonical root.text = .ok base → ∀ names, names ≠ [] → host.disk.entry? (base.names ++ names) = none

/-- All links on the way of the path can be replaced: none leads back to itself, and not too many are inside each other. -/
def Untangles (host : Host) (root : Path) : Prop :=
  ∃ found, host.disk.resolve host.depths.links host.workingDir.names root.text = .ok found ∧ found.cut = false

/-- A bare root that leads somewhere has no children there. -/
theorem IsBare.child?_eq_none (hb : host.IsBare root) (h : host.disk.IsAt root way) (name : Text) :
    (host.disk.endOf way).child? name = none := by
  rw [← h.isWay.entry?_child]
  exact hb _ (Source.canonical_of_isAt h) [name] (List.cons_ne_nil _ _)

/-- A bare root has no ignore file. -/
theorem IsBare.isFile_ne_true (hb : host.IsBare root) (hp : Disk.IsProper root) :
    host.isFile (root.child Ignore.fileName).text ≠ .ok true := by
  intro hfile
  have hstat : ∃ entry, host.disk.stat host.workingDir.names (root.child Ignore.fileName).text = .ok entry := by
    cases hstat : host.disk.stat host.workingDir.names (root.child Ignore.fileName).text with
    | ok entry => exact ⟨entry, rfl⟩
    | error e =>
      simp only [isFile, Disk.isFile, hstat, Disk.asks, bind, Except.bind] at hfile
      split at hfile <;> cases hfile
  obtain ⟨entry, hstat⟩ := hstat
  obtain ⟨way, hway, -⟩ := Disk.exists_isAt (hp.child (by decide) (by decide)) hstat
  obtain ⟨n, hn, hleads⟩ := hway.leads
  obtain ⟨middle, k, m, hroot, hlast, rfl⟩ := hleads.split
  obtain ⟨found, hfound⟩ := hlast.exists_child? (by decide) (by decide)
  rw [hb.child?_eq_none ⟨hp, k, Nat.le_trans (Nat.le_add_right k m) hn, hroot⟩] at hfound
  cases hfound

/-- A bare root has no directories. -/
theorem IsBare.subdirectories (hb : host.IsBare root) (hp : Disk.IsProper root) :
    (host.subdirectories root.text).toOption.getD [] = [] := by
  refine List.eq_nil_iff_forall_not_mem.2 fun name hname => ?_
  cases hsub : host.subdirectories root.text with
  | error e =>
    rw [hsub] at hname
    cases hname
  | ok found =>
    obtain ⟨children, hchildren, -⟩ := map_eq_ok_iff.1 hsub
    obtain ⟨entry, hstat, -⟩ := bind_eq_ok_iff.1 hchildren
    obtain ⟨way, hway, -⟩ := Disk.exists_isAt hp hstat
    obtain ⟨-, -, child, hchild, -⟩ := (Ignore.mem_subdirectories_iff hway).1 hname
    rw [hb.child?_eq_none hway] at hchild
    cases hchild

/-- Where the disk does not say whether a path leads to a directory, it does not say whether one behind it leads to a file. -/
theorem isFile_child_error (hp : Disk.IsProper root) (hc : Disk.IsProper (root.child name)) {e : DiskError}
    (h : host.isDir root.text = .error e) : ∃ e, host.isFile (root.child name).text = .error e := by
  obtain ⟨hasked, habsence⟩ := Disk.asks_error h
  have hstat : host.disk.stat host.workingDir.names root.text = .error e := by
    rcases bind_eq_error_iff.1 hasked with hstat | ⟨entry, -, hentry⟩
    · exact hstat
    · cases hentry
  rw [Disk.stat, map_eq_error_iff, Disk.locate_text hp] at hstat
  have hbelow : ∃ e : DiskError, e.isAbsence = false ∧
      host.disk.stat host.workingDir.names (root.child name).text = .error e := by
    rw [Disk.stat, Disk.locate_text hc]
    by_cases hlong : Disk.pathLimit ≤ Utf8.size (root.child name).text
    · exact ⟨.nameTooLong, rfl, by rw [if_pos hlong]; rfl⟩
    · have hshort : ¬Disk.pathLimit ≤ Utf8.size root.text := by
        have hle := Path.size_text_le hp.absolute [] [name]
        rw [Path.extend_nil, List.nil_append, ← Path.child_eq_extend] at hle
        omega
      rw [if_neg hshort] at hstat
      refine ⟨e, habsence, ?_⟩
      rw [if_neg hlong, map_eq_error_iff, Path.child_eq_extend, Path.extend]
      exact Disk.follow_append_error hstat [name]
  obtain ⟨e, habsence, hstat⟩ := hbelow
  exact ⟨e, by simp [isFile, Disk.isFile, hstat, Disk.asks, habsence, bind, Except.bind]⟩

end Host

namespace Ignore

variable {host : Host} {root : Path}

/-- In a bare root no directories are inside each other. -/
theorem eq_nil_of_descends (hp : Disk.IsProper root) (hb : host.IsBare root) {names : List Text}
    (h : Descends host root names) : names = [] := by
  cases names with
  | nil => rfl
  | cons name rest =>
    have hname := h.1
    rw [hb.subdirectories hp] at hname
    cases hname

/-- In a bare root only the path of its own ignore file can keep the ignore files from being found. -/
theorem isOverlong_of_halts (hp : Disk.IsProper root) (hb : host.IsBare root) {fault : Fault} (h : Halts host root fault) :
    IsOverlong host root ∧ fault = .disk .nameTooLong := by
  cases h with
  | overlong hmem hlong =>
    obtain ⟨names, rfl, hnames⟩ := exists_of_mem_directories hmem
    rw [eq_nil_of_descends hp hb hnames, Path.extend_nil] at hlong
    exact ⟨hlong, rfl⟩
  | depth hnests hshort =>
    obtain ⟨names, hlength, hnames⟩ := hnests
    rw [eq_nil_of_descends hp hb hnames] at hlength
    exact absurd hlength (Nat.ne_of_lt host.depths.ignores_pos)

/-- A bare root has no ignore files in its tree. -/
theorem pathsUnder_of_bare (hp : Disk.IsProper root) (hb : host.IsBare root) {found : Bool}
    (hf : host.isFile (root.child fileName).text = .ok found) : pathsUnder host root = .ok [] := by
  cases hpaths : pathsUnder host root with
  | error fault =>
    rcases pathsUnder_error_iff.1 hpaths with ⟨e, hdir, -⟩ | ⟨-, hhalts⟩
    · have hchild : Disk.IsProper (root.child fileName) := hp.child (by decide) (by decide)
      obtain ⟨e, he⟩ := Host.isFile_child_error hp hchild hdir
      rw [he] at hf
      cases hf
    · have hlong := (isOverlong_of_halts hp hb hhalts).1
      rw [IsOverlong, hf] at hlong
      cases hlong
  | ok paths =>
    cases hdir : host.isDir root.text with
    | error e =>
      have herror := pathsUnder_error_iff.2 (Or.inl ⟨e, hdir, rfl⟩)
      rw [hpaths] at herror
      cases herror
    | ok isThere =>
      cases isThere with
      | false =>
        have hsearch : (Trail.empty.filterMap (ownFile? host)).all = .ok [] := rfl
        rw [← hpaths, pathsUnder, hdir]
        simp [Except.mapError, hsearch, bind, Except.bind]
      | true =>
        refine congrArg Except.ok (List.eq_nil_iff_forall_not_mem.2 fun path hpath => ?_)
        obtain ⟨names, hnames, rfl, hfile, -⟩ := (mem_pathsUnder hdir hpaths).1 hpath
        rw [eq_nil_of_descends hp hb hnames, Path.extend_nil] at hfile
        exact hb.isFile_ne_true hp hfile

/-- Where the disk refuses to look for the ignore file of a bare root, the ignore files to obey are not found. -/
theorem pathsFor_of_refused (hp : Disk.IsProper root) (hb : host.IsBare root) {e : DiskError}
    (he : host.isFile (root.child fileName).text = .error e) (nested : Bool) :
    ∃ e', (e' = e ∨ host.isDir root.text = .error e') ∧ pathsFor host nested root = .error (.disk e') := by
  simp only [pathsFor_error_iff]
  by_cases hnone : nested = true → ∃ paths, pathsUnder host root = .ok paths
  · exact ⟨e, Or.inl rfl, Or.inr ⟨hnone, e, he, rfl⟩⟩
  · obtain ⟨hnested, hnone⟩ := Classical.not_imp.1 hnone
    cases hpaths : pathsUnder host root with
    | ok paths => exact absurd ⟨paths, hpaths⟩ hnone
    | error fault =>
      rcases pathsUnder_error_iff.1 hpaths with ⟨e', hdir, rfl⟩ | ⟨-, hhalts⟩
      · exact ⟨e', Or.inr hdir, Or.inl ⟨hnested, rfl⟩⟩
      · obtain ⟨hlong, rfl⟩ := isOverlong_of_halts hp hb hhalts
        rw [IsOverlong, he] at hlong
        cases hlong
        exact ⟨.nameTooLong, Or.inl rfl, Or.inl ⟨hnested, rfl⟩⟩

/-- A bare root obeys no ignore file. -/
theorem filesFor_of_bare (hp : Disk.IsProper root) (hb : host.IsBare root) {found : Bool}
    (hf : host.isFile (root.child fileName).text = .ok found) (nested : Bool) : filesFor host nested root = .ok [] := by
  obtain rfl : found = false := by
    cases found with
    | false => rfl
    | true => exact absurd hf (hb.isFile_ne_true hp)
  have hpaths : pathsFor host nested root = .ok [] := by
    refine pathsFor_eq_ok_iff.2 ⟨false, hf, ?_⟩
    cases nested with
    | false => exact Or.inr ⟨rfl, rfl⟩
    | true => exact Or.inl ⟨rfl, pathsUnder_of_bare hp hb hf⟩
  exact bind_eq_ok_iff.2 ⟨[], hpaths, rfl⟩

end Ignore

/-! ## Files that a tree in memory gives -/

namespace MemoryTree

variable {tree : MemoryTree} {root path : Path} {names : List Text}

/-- A directory of the tree lists what lies directly below it, and the paths of the tree are written without NUL characters. -/
structure IsPlain (tree : MemoryTree) : Prop where
  listings : tree.listings = []
  written : ∀ path ∈ tree.known, path.IsWritten
  nulFree : ∀ path ∈ tree.known, ∀ name ∈ path.names, '\x00' ∉ name

/-- What a walk of a plain tree meets can be followed on a disk. -/
theorem IsPlain.isProper (ht : tree.IsPlain) (ha : root.isAbsolute = true) (h : tree.toFileTree.Meets root names) :
    Disk.IsProper (root.extend names) := by
  obtain ⟨rest, hknown⟩ := exists_known_of_meets ht.listings h
  have hmem : ∀ name ∈ (root.extend names).names, name ∈ (root.extend (names ++ rest)).names := by
    intro name hname
    rw [← Path.extend_extend]
    exact List.mem_append_left _ hname
  exact ⟨ha, fun name hname => ht.written _ hknown name (hmem name hname),
    fun name hname => ht.nulFree _ hknown name (hmem name hname)⟩

/-- The file at a path with its text, unless it cannot be read. -/
def source? (tree : MemoryTree) (path : Path) : Option (Path × Text) :=
  if tree.isReadable path then (tree.files.find? (fun entry => entry.1 = path)).map (fun entry => (path, entry.2)) else none

/-- A scan passes over the files that cannot be read, and reads the others. -/
theorem readSource_eq (path : Path) : Scanner.readSource tree.toFileTree path = .ok (tree.source? path) := by
  have htext : tree.toFileTree.readText path = unlessRefused tree.refusals.read path (tree.text path) := rfl
  unfold Scanner.readSource source? isReadable
  rw [htext, unlessRefused, text]
  cases tree.refusals.read.contains path with
  | true => rfl
  | false =>
    cases tree.refusals.decode.contains path with
    | true => rfl
    | false =>
      cases tree.files.find? (fun entry => entry.1 = path) with
      | none => rfl
      | some entry => rfl

/-- The pruned tree gives the same text at a path that a walk comes to. -/
theorem source?_pruned (h : tree.isGone root path = false) : (tree.pruned root).source? path = tree.source? path := by
  have hreadable : (tree.pruned root).isReadable path = true := rfl
  rw [source?, source?, hreadable, if_pos rfl]
  simp only [pruned, List.find?_filter]
  by_cases hread : tree.isReadable path = true
  · rw [if_pos hread]
    congr 2
    funext entry
    by_cases hentry : entry.1 = path
    · simp [hentry, h, hread]
    · simp [hentry]
  · rw [if_neg hread, Option.map_eq_none_iff, List.find?_eq_none]
    intro entry _ hentry
    simp only [Bool.and_eq_true, decide_eq_true_eq] at hentry
    obtain ⟨⟨-, hentryRead⟩, rfl⟩ := hentry
    exact hread hentryRead

end MemoryTree

/-! ## Judging files below a bare root -/

namespace Source

variable {host : Host} {selection : Selection} {root path : Path} {names : List Text} {fault : Fault}

/-- Whether a file below the root counts as a source where no ignore file is obeyed. -/
def Selection.counts (selection : Selection) (host : Host) (root : Path) (names : List Text) : Bool :=
  selection.suffixes.contains (root.extend names).suffix &&
    ((isWithin host root (root.extend names)).toOption == some true && selection.passes (Path.namesText names))

/-- Judging a file of a known suffix comes to no end: whether it lies below the root stays open. -/
def Selection.Tangles (selection : Selection) (host : Host) (root path : Path) (fault : Fault) : Prop :=
  path.suffix ∈ selection.suffixes ∧ isWithin host root path = .error fault

/-- Whether a path lies below the root stays open only where links lead around in circles or too deep. -/
theorem isWithin_error_of_proper (hr : Disk.IsProper root) (hp : Disk.IsProper path)
    (h : isWithin host root path = .error fault) : fault = .linkLoop ∨ fault = .nestedTooDeep := by
  simp only [isWithin] at h
  split at h
  · rename_i e he
    split at h
    · cases h
    · cases h
      rcases bind_eq_error_iff.1 he with he | ⟨base, -, he⟩
      · exact Disk.canonical_error hr he
      · rcases bind_eq_error_iff.1 he with he | ⟨found, -, he⟩
        · exact Disk.canonical_error hp he
        · cases he
  · rename_i hok
    exact absurd h (hok _)

/-- Where nothing lies below the root on the disk, names lead to a path below it also once no link is left. -/
theorem isWithin_of_bare (hr : Disk.IsProper root) (hb : host.IsBare root) (hu : host.Untangles root)
    (hp : Disk.IsProper (root.extend names)) (hn : Path.parentName ∉ names) :
    isWithin host root (root.extend names) = .ok true := by
  obtain ⟨found, hfound, hcut⟩ := hu
  have hnames : ∀ name ∈ names, Path.isKept name = true ∧ name ≠ Path.parentName ∧ '/' ∉ name ∧ '\x00' ∉ name := by
    intro name hname
    have hmem : name ∈ (root.extend names).names := List.mem_append_right _ hname
    refine ⟨(hp.written name hmem).1, ?_, (hp.written name hmem).2, hp.nulFree name hmem⟩
    rintro rfl
    exact hn hname
  obtain ⟨hroot, hpath⟩ := Disk.canonical_extend hr hfound hcut hb hnames
  simp only [isWithin, Host.canonical, hroot, hpath, bind, Except.bind, Path.below?_extend]
  rfl

/-- Where no ignore file is obeyed, a file below the root is judged by its place and the wildcards alone. -/
theorem Selection.accepts_extend {within : Bool} (h : isWithin host root (root.extend names) = .ok within) :
    selection.accepts host [] root (root.extend names) = .ok (within && selection.passes (Path.namesText names)) := by
  simp only [Selection.accepts, h, Path.below?_extend, bind, Except.bind]
  cases within <;> rfl

end Source

/-! ## Scans of trees in memory -/

namespace Scanner

open Source (Selection isWithin)

variable {host : Host} {tree : MemoryTree} {selection : Selection} {root : Path} {s : Text}

/-- The scanner of a tree in memory. -/
def ofMemory (tree : MemoryTree) (selection : Selection) : Scanner :=
  ⟨.given tree.toFileTree, selection⟩

/-- The root of a scan can be followed on the disk. -/
theorem rootPath_isProper (hw : Disk.IsProper host.workingDir) (hn : '\x00' ∉ s) : Disk.IsProper (rootPath host s) := by
  have hwritten : ∃ t, rootPath host s = Path.ofText (Path.normalize t) ∧ (Path.ofText t).isAbsolute = true ∧ '\x00' ∉ t := by
    by_cases ha : (Path.ofText s).isAbsolute = true
    · exact ⟨s, by rw [rootPath, Host.absolute, Path.absolute, if_pos ha], ha, hn⟩
    · refine ⟨Path.joinText host.workingDir.text s, by rw [rootPath, Host.absolute, Path.absolute, if_neg ha], ?_, ?_⟩
      · refine Path.isAbsolute_joinText ?_ s
        rw [← Path.isAbsolute_ofText_iff, Path.ofText_text hw.absolute hw.written, hw.absolute]
      · intro hmem
        rcases Path.of_mem_joinText hmem with hslash | hmem | hmem
        · cases hslash
        · exact hw.nul_not_mem hmem
        · exact hn hmem
  obtain ⟨t, hroot, ha, hnul⟩ := hwritten
  rw [hroot, Path.ofText_normalize ha]
  have hkept : ∀ name ∈ Path.normalNames true (Path.ofText t).names, name ∈ (Path.ofText t).names :=
    fun name hname => Path.mem_of_mem_normalNames hname
  refine ⟨ha, fun name hname => Path.isWritten_ofText t name (hkept name hname), fun name hname hmem => ?_⟩
  exact hnul ((Text.infix_of_mem_splitOn (List.mem_filter.1 (hkept name hname)).1).subset hmem)

/-- What a scan that obeys no ignore file makes of a file of a tree in memory. -/
def judged (tree : MemoryTree) (selection : Selection) (host : Host) (root path : Path) : Option (Path × Text) :=
  if selection.counts host root ((path.below? root).getD []) then tree.source? path else none

/-- Where no ignore file is obeyed, a scan deals with a file unless judging it comes to no end; and a tree in memory has a say in it
only by the text that it gives. -/
theorem sourceAt_extend (tree : MemoryTree) (selection : Selection) (host : Host) (root : Path) (names : List Text) :
    (∃ fault, selection.Tangles host root (root.extend names) fault ∧
        (ofMemory tree selection).sourceAt host [] root (root.extend names) = .error fault) ∨
      (∀ fault, ¬selection.Tangles host root (root.extend names) fault) ∧
        (ofMemory tree selection).sourceAt host [] root (root.extend names) =
          .ok (judged tree selection host root (root.extend names)) := by
  rw [judged, Path.below?_extend, Option.getD_some]
  by_cases hsuffix : (root.extend names).suffix ∈ selection.suffixes
  · cases hwithin : isWithin host root (root.extend names) with
    | error fault =>
      refine Or.inl ⟨fault, ⟨hsuffix, hwithin⟩, ?_⟩
      simp [sourceAt, ofMemory, hsuffix, Selection.accepts, hwithin, bind, Except.bind]
    | ok within =>
      refine Or.inr ⟨?_, ?_⟩
      · rintro fault ⟨-, herror⟩
        rw [hwithin] at herror
        cases herror
      · have hcounts : selection.counts host root names = (within && selection.passes (Path.namesText names)) := by
          rw [Selection.counts, List.contains_iff_mem.2 hsuffix, hwithin]
          cases within <;> rfl
        have hread : readSource ((ofMemory tree selection).tree host) (root.extend names) =
            .ok (tree.source? (root.extend names)) := MemoryTree.readSource_eq _
        rw [sourceAt, hread, hcounts]
        simp only [ofMemory, List.contains_iff_mem.2 hsuffix, Selection.accepts_extend hwithin, bind, Except.bind]
        cases within && selection.passes (Path.namesText names) <;> rfl
  · refine Or.inr ⟨fun fault htangles => hsuffix htangles.1, ?_⟩
    simp [sourceAt, ofMemory, Selection.counts, hsuffix]

section

variable (hroot : rootPath host s = root) (hp : Disk.IsProper root)
  (hr : Ignore.filesFor host selection.nestedIgnores root = .ok []) (hl : tree.listings = [])

include hroot hp hr hl

/-- The sources of a tree in memory, where no ignore file is obeyed and every file can be judged. -/
theorem sources_ofMemory
    (ht : ∀ names, tree.toFileTree.Meets root names → ∀ fault, ¬selection.Tangles host root (root.extend names) fault) :
    (ofMemory tree selection).sources host s =
      ⟨(tree.toFileTree.walk host.depths.walk root).items.filterMap (judged tree selection host root),
        (tree.toFileTree.walk host.depths.walk root).fault⟩ := by
  subst hroot
  have hjudged : ∀ path ∈ (tree.toFileTree.walk host.depths.walk (rootPath host s)).items,
      (ofMemory tree selection).sourceAt host [] (rootPath host s) path =
        .ok (judged tree selection host (rootPath host s) path) := by
    intro path hpath
    obtain ⟨names, rfl, hmeets⟩ := ((MemoryTree.regular_toFileTree hl).walk_sound hp.absolute _).1 path hpath
    rcases sourceAt_extend tree selection host (rootPath host s) names with ⟨fault, htangles, -⟩ | ⟨-, hjudged⟩
    · exact absurd htangles (ht names hmeets fault)
    · exact hjudged
  have hsources : (ofMemory tree selection).sources host s = (tree.toFileTree.walk host.depths.walk (rootPath host s)).filterMap
      ((ofMemory tree selection).sourceAt host [] (rootPath host s)) := sources_eq hr
  rw [hsources, Trail.filterMap_of_ok hjudged]

/-- A tree in memory that is too deep, or a file of it that cannot be judged, ends a scan, with the fault of what is met first. -/
theorem sources_fault_of_ends
    (h : tree.toFileTree.Exceeds host.depths.walk root ∨
      ∃ names fault, tree.toFileTree.Meets root names ∧ selection.Tangles host root (root.extend names) fault) :
    ∃ fault, (fault = .nestedTooDeep ∧ tree.toFileTree.Exceeds host.depths.walk root ∨
        ∃ names, tree.toFileTree.Meets root names ∧ selection.Tangles host root (root.extend names) fault) ∧
      ((ofMemory tree selection).sources host s).fault = some fault := by
  subst hroot
  have hregular := MemoryTree.regular_toFileTree hl
  have hsources : (ofMemory tree selection).sources host s = (tree.toFileTree.walk host.depths.walk (rootPath host s)).filterMap
      ((ofMemory tree selection).sourceAt host [] (rootPath host s)) := sources_eq hr
  simp only [hsources, Trail.filterMap_fault_iff]
  by_cases herror : ∃ path ∈ (tree.toFileTree.walk host.depths.walk (rootPath host s)).items, ∃ fault,
      (ofMemory tree selection).sourceAt host [] (rootPath host s) path = .error fault
  · -- the first file that ends the scan
    obtain ⟨fault, before, path, after, hsplit, hbefore, hpath⟩ := exists_until_iff.2 herror
    have hitem : path ∈ (tree.toFileTree.walk host.depths.walk (rootPath host s)).items := by rw [hsplit]; simp
    obtain ⟨names, rfl, hmeets⟩ := (hregular.walk_sound hp.absolute _).1 path hitem
    refine ⟨fault, Or.inr ⟨names, hmeets, ?_⟩, Or.inl ⟨before, _, after, hsplit, fun other hother => ?_, hpath⟩⟩
    · rcases sourceAt_extend tree selection host (rootPath host s) names with ⟨fault', htangles, hfault⟩ | ⟨-, hjudged⟩
      · rw [hpath] at hfault
        cases hfault
        exact htangles
      · rw [hpath] at hjudged
        cases hjudged
    · cases hfound : (ofMemory tree selection).sourceAt host [] (rootPath host s) other with
      | ok found => exact ⟨found, hfound⟩
      | error fault => exact absurd hfound (hbefore other hother fault)
  · have hall : ∀ path ∈ (tree.toFileTree.walk host.depths.walk (rootPath host s)).items, ∃ found,
        (ofMemory tree selection).sourceAt host [] (rootPath host s) path = .ok found := by
      intro path hpath
      cases hfound : (ofMemory tree selection).sourceAt host [] (rootPath host s) path with
      | ok found => exact ⟨found, rfl⟩
      | error fault => exact absurd ⟨path, hpath, fault, hfound⟩ herror
    have hexceeds : tree.toFileTree.Exceeds host.depths.walk (rootPath host s) := by
      by_contra hexceeds
      obtain ⟨names, fault, hmeets, htangles⟩ := h.resolve_left hexceeds
      obtain ⟨found, hfound⟩ := hall _ (((hregular.walk_lists hp.absolute hexceeds).mem_iff _).2 ⟨names, rfl, hmeets⟩)
      rcases sourceAt_extend tree selection host (rootPath host s) names with ⟨fault', -, hfault⟩ | ⟨hnone, -⟩
      · rw [hfound] at hfault
        cases hfault
      · exact hnone fault htangles
    exact ⟨.nestedTooDeep, Or.inl ⟨rfl, hexceeds⟩, Or.inr ⟨hall, hregular.walk_fault hp.absolute hexceeds⟩⟩

end

/-- Pruning keeps the files that a scan makes something of. -/
theorem filterMap_judged_pruned (hl : tree.listings = []) (ha : root.isAbsolute = true) {depth : Nat}
    (hd : ¬tree.toFileTree.Exceeds depth root) :
    ((tree.pruned root).toFileTree.walk depth root).items.filterMap (judged (tree.pruned root) selection host root) =
      (tree.toFileTree.walk depth root).items.filterMap (judged tree selection host root) := by
  rw [MemoryTree.walk_pruned hl ha hd, List.filterMap_filter]
  refine List.filterMap_congr fun path hpath => ?_
  obtain ⟨names, rfl, hmeets⟩ := ((MemoryTree.regular_toFileTree hl).walk_sound ha depth).1 path hpath
  have hgone : tree.isGone root (root.extend names) = false := by
    rw [MemoryTree.isGone_extend, MemoryTree.isLost_eq_false_of_meets hl hmeets]
  rw [judged, MemoryTree.source?_pruned hgone]
  by_cases hread : tree.isReadable (root.extend names) = true
  · rw [if_pos hread, judged]
  · simp [judged, MemoryTree.source?, hread]

/-- What the refusals of a tree in memory do to scans from a root, and what else can happen to them. -/
structure Prunes (host : Host) (tree : MemoryTree) (selection : Selection) (s : Text) (root : Path) : Prop where
  /-- Scans of the tree and of the pruned tree come to the same names, and to the same place of each name, unless the tree is too
  deep or links lead around in circles or too deep. -/
  agrees : ∀ found, host.isFile (root.child Ignore.fileName).text = .ok found →
    ¬tree.toFileTree.Exceeds host.depths.walk root →
    (∀ names, tree.toFileTree.Meets root names → ∀ fault, ¬selection.Tangles host root (root.extend names) fault) →
    ∃ names, (ofMemory tree selection).scan host s = .ok names ∧
      (ofMemory (tree.pruned root) selection).scan host s = .ok names ∧
      ∀ name, ∃ location, (ofMemory tree selection).locate host s name = .ok location ∧
        (ofMemory (tree.pruned root) selection).locate host s name = .ok location
  /-- A tree that is too deep ends a scan, and so does a file at which links lead around in circles or too deep; who looks for one
  name may find it before. -/
  ends : ∀ found, host.isFile (root.child Ignore.fileName).text = .ok found →
    (tree.toFileTree.Exceeds host.depths.walk root ∨
      ∃ names fault, tree.toFileTree.Meets root names ∧ selection.Tangles host root (root.extend names) fault) →
    ∃ fault, (fault = .nestedTooDeep ∧ tree.toFileTree.Exceeds host.depths.walk root ∨
        (fault = .linkLoop ∨ fault = .nestedTooDeep) ∧
          ∃ names, tree.toFileTree.Meets root names ∧ selection.Tangles host root (root.extend names) fault) ∧
      (ofMemory tree selection).scan host s = .error fault ∧
      ∀ name, name ≠ [] → (ofMemory tree selection).locate host s name = .error fault ∨
        ∃ location, (ofMemory tree selection).locate host s name = .ok (some location)
  /-- Where the disk refuses to look for an ignore file in the root, a scan ends at once. -/
  refused : ∀ e, host.isFile (root.child Ignore.fileName).text = .error e →
    ∃ e', (e' = e ∨ host.isDir root.text = .error e') ∧ (ofMemory tree selection).scan host s = .error (.disk e') ∧
      ∀ name, name ≠ [] → (ofMemory tree selection).locate host s name = .error (.disk e')
  /-- Where all links on the way of the root can be replaced, a file that is met without double dots lies below the root, and no
  links lead around in circles or too deep. -/
  untangled : host.Untangles root → ∀ names, tree.toFileTree.Meets root names → Path.parentName ∉ names →
    isWithin host root (root.extend names) = .ok true

/-- Refusals of a tree in memory only prune it: from a root below which the disk holds nothing, a scan gives what it gives on the
pruned tree, where nothing is refused. What can still end it is how deep the tree is, or lies on the disk. -/
theorem scan_prunes (hw : Disk.IsProper host.workingDir) (ht : tree.IsPlain) (hn : '\x00' ∉ s)
    (hb : host.IsBare (rootPath host s)) : Prunes host tree selection s (rootPath host s) := by
  have hp := rootPath_isProper hw hn
  have hpruned : (tree.pruned (rootPath host s)).listings = [] := rfl
  refine ⟨?_, ?_, ?_, ?_⟩
  · intro found hf hdeep htangles
    have hr := Ignore.filesFor_of_bare hp hb hf selection.nestedIgnores
    have hsources := sources_ofMemory rfl hp hr ht.listings htangles
    have hprunedSources := sources_ofMemory rfl hp hr hpruned fun names hmeets =>
      htangles names ((MemoryTree.meets_pruned_iff ht.listings).1 hmeets).1
    rw [((MemoryTree.regular_toFileTree ht.listings).walk_lists hp.absolute hdeep).ends] at hsources
    rw [filterMap_judged_pruned ht.listings hp.absolute hdeep, ((MemoryTree.regular_toFileTree hpruned).walk_lists hp.absolute
      fun hexceeds => hdeep (MemoryTree.exceeds_of_pruned ht.listings hexceeds)).ends] at hprunedSources
    refine ⟨_, by rw [scan, hsources]; rfl, by rw [scan, hprunedSources]; rfl, fun name => ?_⟩
    by_cases hname : name.isEmpty = true
    · exact ⟨none, if_pos hname, if_pos hname⟩
    · exact ⟨_, by rw [locate, if_neg hname, hsources]; exact Trail.findSome?_of_all rfl _,
        by rw [locate, if_neg hname, hprunedSources]; exact Trail.findSome?_of_all rfl _⟩
  · intro found hf hends
    have hr := Ignore.filesFor_of_bare hp hb hf selection.nestedIgnores
    obtain ⟨fault, hcause, hfault⟩ := sources_fault_of_ends rfl hp hr ht.listings hends
    refine ⟨fault, hcause.imp_right ?_, scan_error_iff.2 hfault, fun name hname => ?_⟩
    · rintro ⟨names, hmeets, htangles⟩
      exact ⟨Source.isWithin_error_of_proper hp (ht.isProper hp.absolute hmeets) htangles.2, names, hmeets, htangles⟩
    · rw [locate, if_neg (by simpa using hname), Trail.findSome?, hfault]
      split
      · exact Or.inr ⟨_, rfl⟩
      · exact Or.inl rfl
  · intro e he
    obtain ⟨e', hcause, hpaths⟩ := Ignore.pathsFor_of_refused hp hb he selection.nestedIgnores
    have hsources : (ofMemory tree selection).sources host s = .stop (.disk e') :=
      sources_of_filesFor_error (Ignore.filesFor_error_iff.2 (Or.inl hpaths))
    refine ⟨e', hcause, by rw [scan, hsources]; rfl, fun name hname => ?_⟩
    rw [locate, if_neg (by simpa using hname), hsources]
    rfl
  · intro hu names hmeets hparent
    exact Source.isWithin_of_bare hp hb hu (ht.isProper hp.absolute hmeets) hparent

/-- The path that names lead to below `/ws`. -/
def belowWs (names : List String) : Path :=
  ⟨.slash, "ws".toList :: names.map String.toList⟩

/-- A file of a tree in memory that defines one function. -/
def defining (names : List String) (function : String) : Path × Text :=
  (belowWs names, "int ".toList ++ function.toList ++ "() \x7b\x7d".toList)

/-- A tree in which each question is refused at one path, so that only the last file is left. -/
def refusingTree : MemoryTree where
  files := [defining ["a.c"] "read", defining ["b.c"] "decode", defining ["c", "a.c"] "list", defining ["d", "a.c"] "isDir",
    defining ["e.c"] "isFile", defining ["f", "a.c"] "isLink", defining ["g", "a.c"] "left"]
  directories := []
  links := []
  listings := []
  refusals := ⟨[belowWs ["c"]], [belowWs ["d"]], [belowWs ["e.c"]], [belowWs ["f"]], [belowWs ["a.c"]], [belowWs ["b.c"]]⟩

/-- All files of the usual suffixes count, unless some ignore file leaves them out. -/
def usualSelection : Selection :=
  ⟨Source.defaultSuffixes, [], [], true⟩

/-- A name of 256 octets, one too many for a disk. -/
def overlongName : Text :=
  List.replicate 64 (Char.ofNat 0x10000)

set_option maxRecDepth 4000 in
/-- A scan of the tree in which each question is refused once finds what is left. From a root whose name is too long for the disk
it ends at once. -/
theorem scan_prunes_refusing :
    ((ofMemory refusingTree usualSelection).scan .empty "/ws".toList = .ok ["left".toList] ∧
      (ofMemory (refusingTree.pruned (belowWs [])) usualSelection).scan .empty "/ws".toList = .ok ["left".toList]) ∧
    (ofMemory refusingTree usualSelection).scan .empty ('/' :: overlongName) = .error (.disk .nameTooLong) := by
  have hproper : Disk.IsProper Host.empty.workingDir :=
    ⟨rfl, fun _ hname => absurd hname List.not_mem_nil, fun _ hname => absurd hname List.not_mem_nil⟩
  have hplain : refusingTree.IsPlain := by
    refine ⟨rfl, ?_, by decide⟩
    unfold Path.IsWritten
    decide
  -- on an empty disk nothing lies below a root
  have hbare : ∀ {s : Text} {name : Text}, rootPath .empty s = ⟨.slash, [name]⟩ →
      Host.empty.canonical (Path.text ⟨.slash, [name]⟩) = .ok ⟨.slash, [name]⟩ → Host.empty.IsBare (rootPath .empty s) := by
    intro s name hroot hcanonical base hbase names hne
    rw [hroot, hcanonical] at hbase
    cases hbase
    rfl
  constructor
  · have hroot : rootPath .empty "/ws".toList = belowWs [] := by cbv
    have hprunes : Prunes .empty refusingTree usualSelection "/ws".toList (rootPath .empty "/ws".toList) :=
      scan_prunes hproper hplain (by decide) (hbare hroot (by cbv))
    rw [hroot] at hprunes
    have hfile : Host.empty.isFile ((belowWs []).child Ignore.fileName).text = .ok false := by cbv
    have huntangled : Host.empty.Untangles (belowWs []) := ⟨⟨belowWs [], false, []⟩, by cbv, rfl⟩
    have hshallow : ¬refusingTree.toFileTree.Exceeds Host.empty.depths.walk (belowWs []) :=
      MemoryTree.not_exceeds_of_known rfl (by decide)
    have hclear : ∀ names, refusingTree.toFileTree.Meets (belowWs []) names →
        ∀ fault, ¬usualSelection.Tangles .empty (belowWs []) ((belowWs []).extend names) fault := by
      rintro names hmeets fault ⟨-, herror⟩
      obtain ⟨rest, hknown⟩ := MemoryTree.exists_known_of_meets rfl hmeets
      have hdown : ∀ path ∈ refusingTree.known, Path.parentName ∉ path.names := by decide
      have hparent : Path.parentName ∉ names :=
        fun hmem => hdown _ hknown (List.mem_append_right _ (List.mem_append_left _ hmem))
      rw [hprunes.untangled huntangled names hmeets hparent] at herror
      cases herror
    obtain ⟨names, hscan, hpruned, -⟩ := hprunes.agrees false hfile hshallow hclear
    have hleft : (ofMemory (refusingTree.pruned (belowWs [])) usualSelection).scan .empty "/ws".toList =
        .ok ["left".toList] := by cbv
    rw [hpruned] at hleft
    cases hleft
    exact ⟨hscan, hpruned⟩
  · have hroot : rootPath .empty ('/' :: overlongName) = ⟨.slash, [overlongName]⟩ := by cbv
    have hprunes : Prunes .empty refusingTree usualSelection ('/' :: overlongName)
        (rootPath .empty ('/' :: overlongName)) :=
      scan_prunes hproper hplain (by decide) (hbare hroot (by cbv))
    rw [hroot] at hprunes
    have hfile : Host.empty.isFile (Path.text ⟨.slash, [overlongName, Ignore.fileName]⟩) = .error .nameTooLong := by cbv
    have hdir : Host.empty.isDir (Path.text ⟨.slash, [overlongName]⟩) = .error .nameTooLong := by cbv
    obtain ⟨e, rfl | he, hscan, -⟩ := hprunes.refused _ hfile
    · exact hscan
    · rw [hdir] at he
      cases he
      exact hscan

end Scanner

end SymbolSearch
