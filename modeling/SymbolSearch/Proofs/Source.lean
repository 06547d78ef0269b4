import SymbolSearch.Proofs.Ignore.Tree
import SymbolSearch.Source.Scanner

/-!
# What a scan does not survive

A scan of the sources ends in a fault that nobody contains exactly if it meets one of these things first: an ignore rule that is too
short, too many directories inside each other where ignore files are looked for, a path that links lead around in circles or too deep,
an ignore rule that cannot be read, or a tree in which the walk comes too deep (`Scanner.Breaks`, `Scanner.scan_uncontained_iff`). A
tree itself only fails in ways that are contained (`FileTree.Fails`).
-/

namespace SymbolSearch

/-- A fault that a tree of files itself may end with: of the disk, or of a text that cannot be decoded. -/
def Fault.IsOfTree (fault : Fault) : Prop :=
  fault = .undecodable ∨ ∃ e, fault = .disk e

/-- A scan contains the faults of its tree. -/
theorem Fault.IsOfTree.contained {fault : Fault} (h : fault.IsOfTree) : fault.isContained = true := by
  rcases h with rfl | ⟨e, rfl⟩ <;> rfl

namespace FileTree

/-- What a tree of files promises: a question that it does not answer ends in a fault of the tree. -/
structure Fails (tree : FileTree) : Prop where
  list : ∀ path fault, tree.list path = .error fault → fault.IsOfTree
  isDir : ∀ path fault, tree.isDir path = .error fault → fault.IsOfTree
  isFile : ∀ path fault, tree.isFile path = .error fault → fault.IsOfTree
  isLink : ∀ path fault, tree.isLink path = .error fault → fault.IsOfTree
  readText : ∀ path fault, tree.readText path = .error fault → fault.IsOfTree

/-- The tree of a disk keeps the promise. -/
theorem fails_ofHost (host : Host) : (ofHost host).Fails := by
  have hdisk : ∀ {α : Type} {x : Except DiskError α} {fault : Fault}, x.mapError .disk = .error fault → fault.IsOfTree := by
    intro α x fault h
    obtain ⟨e, -, rfl⟩ := mapError_eq_error_iff.1 h
    exact Or.inr ⟨e, rfl⟩
  exact ⟨fun _ _ => hdisk, fun _ _ => hdisk, fun _ _ => hdisk, fun _ _ => hdisk, fun _ _ => hdisk⟩

variable {tree : FileTree} {fault : Fault}

/-! ## The walk -/

/-- A pruned trail ends as the trail does, or in a fault that kept the trail from being made. -/
theorem pruning_fault {α : Type} {act : Except Fault (Trail α)} (h : (pruning act).fault = some fault) :
    act = .error fault ∨ ∃ trail, act = .ok trail ∧ trail.fault = some fault := by
  unfold pruning at h
  split at h
  · exact Or.inr ⟨_, rfl, h⟩
  · split at h
    · cases h
    · cases h
      exact Or.inl rfl

/-- An entry brings a fault of the tree, or the one met in the directory it is. -/
theorem visit_fault (ht : tree.Fails) {enter : Path → Trail Path} {entry : Path}
    (h : (visit tree enter entry).fault = some fault) : fault.IsOfTree ∨ (enter entry).fault = some fault := by
  rcases pruning_fault h with h | ⟨trail, h, hf⟩
  · rcases bind_eq_error_iff.1 h with h | ⟨link, -, h⟩
    · exact Or.inl (ht.isLink _ _ h)
    · split at h
      · cases h
      · rcases bind_eq_error_iff.1 h with h | ⟨directory, -, h⟩
        · exact Or.inl (ht.isDir _ _ h)
        · split at h
          · cases h
          · rcases bind_eq_error_iff.1 h with h | ⟨file, -, h⟩
            · exact Or.inl (ht.isFile _ _ h)
            · split at h <;> cases h
  · obtain ⟨link, -, h⟩ := bind_eq_ok_iff.1 h
    split at h
    · cases h
      cases hf
    · obtain ⟨directory, -, h⟩ := bind_eq_ok_iff.1 h
      split at h
      · cases h
        split at hf
        · cases hf
        · exact Or.inr hf
      · obtain ⟨file, -, h⟩ := bind_eq_ok_iff.1 h
        split at h
        · cases h
          cases hf
        · cases h
          cases hf

/-- A walk ends in a fault of the tree, or because it comes too deep. -/
theorem walk_fault (ht : tree.Fails) {depth : Nat} {directory : Path} (h : (tree.walk depth directory).fault = some fault) :
    fault.IsOfTree ∨ fault = .nestedTooDeep := by
  induction depth generalizing directory with
  | zero =>
    rcases pruning_fault h with h | ⟨trail, h, hf⟩
    · rcases bind_eq_error_iff.1 h with h | ⟨entries, -, h⟩
      · exact Or.inl (ht.list _ _ h)
      · cases h
    · obtain ⟨entries, -, h⟩ := bind_eq_ok_iff.1 h
      cases h
      split at hf
      · cases hf
      · cases hf
        exact Or.inr rfl
  | succ depth ih =>
    rcases pruning_fault h with h | ⟨trail, h, hf⟩
    · rcases bind_eq_error_iff.1 h with h | ⟨entries, -, h⟩
      · exact Or.inl (ht.list _ _ h)
      · cases h
    · obtain ⟨entries, -, h⟩ := bind_eq_ok_iff.1 h
      cases h
      obtain ⟨entry, -, hentry⟩ := Trail.through_fault hf
      rcases visit_fault ht hentry with hentry | hentry
      · exact Or.inl hentry
      · exact ih hentry

end FileTree

/-! ## One file -/

namespace Source

variable {host : Host} {root path : Path} {fault : Fault} {rules : List Ignore.RuleFile}

/-- Whether a file lies below the root stays open only where links lead around in circles or too deep, or where the path is
refused. -/
theorem isWithin_error (h : isWithin host root path = .error fault) :
    fault = .linkLoop ∨ fault = .nestedTooDeep ∨ fault = .disk .nulCharacter := by
  simp only [isWithin] at h
  split at h
  · rename_i e he
    split at h
    · cases h
    · cases h
      rcases bind_eq_error_iff.1 he with he | ⟨root', -, he⟩
      · exact Host.canonical_error he
      · rcases bind_eq_error_iff.1 he with he | ⟨path', -, he⟩
        · exact Host.canonical_error he
        · cases he
  · rename_i hok
    exact absurd h (hok _)

/-- Judging a file meets links that lead around in circles or too deep, or a rule that cannot be read. -/
def Selection.Stumbles (selection : Selection) (host : Host) (rules : List Ignore.RuleFile) (root path : Path) : Prop :=
  isWithin host root path = .error .linkLoop ∨ isWithin host root path = .error .nestedTooDeep ∨
    isWithin host root path = .ok true ∧ (path.below? root).isSome = true ∧
      Until (fun file => file.Passes host selection.nestedIgnores path) (fun file => file.Breaks host path) rules

/-- Judging a file ends in a fault that a scan does not contain exactly if it stumbles. -/
theorem Selection.accepts_uncontained_iff {selection : Selection} :
    (∃ fault, selection.accepts host rules root path = .error fault ∧ fault.isContained = false) ↔
      selection.Stumbles host rules root path := by
  unfold Selection.accepts Selection.Stumbles
  cases hw : isWithin host root path with
  | error e =>
    rcases isWithin_error hw with rfl | rfl | rfl
    · simp [bind, Except.bind, Fault.isContained]
    · simp [bind, Except.bind, Fault.isContained]
    · simp [bind, Except.bind, Fault.isContained]
  | ok within =>
    cases within with
    | false => simp [bind, Except.bind]
    | true =>
      cases path.below? root with
      | none => simp [bind, Except.bind]
      | some names =>
        rw [← Ignore.ignores_uncontained_iff]
        cases Ignore.ignores host selection.nestedIgnores path rules with
        | error e => simp [bind, Except.bind]
        | ok out => cases out <;> simp [bind, Except.bind]

end Source

/-! ## The scan -/

namespace Scanner

variable {scanner : Scanner} {host : Host} {root : Text} {rules : List Ignore.RuleFile} {path : Path} {fault : Fault}

/-- What a scan makes of a file that it meets: the file and its text, if it counts as a source and can be read. -/
def sourceAt (scanner : Scanner) (host : Host) (rules : List Ignore.RuleFile) (root path : Path) :
    Except Fault (Option (Path × Text)) :=
  if !scanner.selection.suffixes.contains path.suffix then .ok none
  else do
    if ← scanner.selection.accepts host rules root path then readSource (scanner.tree host) path else .ok none

/-- Once the ignore files are read, the sources come from one pass over the walk. -/
theorem sources_eq (hr : Ignore.filesFor host scanner.selection.nestedIgnores (rootPath host root) = .ok rules) :
    scanner.sources host root =
      ((scanner.tree host).walk host.depths.walk (rootPath host root)).filterMap
        (scanner.sourceAt host rules (rootPath host root)) := by
  simp only [sources, Source.files, hr, Trail.filterMap_filterMap]
  congr 1
  funext path
  unfold sourceAt
  split
  · rfl
  · cases scanner.selection.accepts host rules (rootPath host root) path with
    | error e => rfl
    | ok accepted => cases accepted <;> rfl

/-- Reading a source ends only in faults that a scan contains. -/
theorem readSource_error {tree : FileTree} (ht : tree.Fails) (h : readSource tree path = .error fault) :
    fault.isContained = true := by
  unfold readSource at h
  split at h
  · cases h
  · rename_i e he
    split at h
    · cases h
    · cases h
      exact (ht.readText _ _ he).contained

/-- A file that a scan meets ends it in a fault that it does not contain exactly if judging the file stumbles. -/
theorem sourceAt_uncontained_iff (ht : (scanner.tree host).Fails) {root : Path} :
    (∃ fault, scanner.sourceAt host rules root path = .error fault ∧ fault.isContained = false) ↔
      scanner.selection.suffixes.contains path.suffix = true ∧ scanner.selection.Stumbles host rules root path := by
  rw [← Source.Selection.accepts_uncontained_iff]
  unfold sourceAt
  cases scanner.selection.suffixes.contains path.suffix with
  | false => simp
  | true =>
    cases scanner.selection.accepts host rules root path with
    | error e => simp [bind, Except.bind]
    | ok accepted =>
      cases accepted with
      | false => simp [bind, Except.bind]
      | true =>
        simp only [bind, Except.bind, Bool.not_true, Bool.false_eq_true, if_false, if_true, reduceCtorEq, false_and,
          exists_false, and_false, iff_false]
        rintro ⟨fault, h, hc⟩
        rw [readSource_error ht h] at hc
        cases hc

/-- What a scan of the sources under a root does not survive. -/
inductive Breaks (scanner : Scanner) (host : Host) (root : Text) : Prop where
  /-- A rule in an ignore file that is obeyed ends where a character is needed. -/
  | shortRule {path : Path} (hp : path ∈ Ignore.obeyed host scanner.selection.nestedIgnores (rootPath host root))
      (hs : Ignore.HasShortRule host path) : Breaks scanner host root
  /-- All ignore files are looked for, and too many directories are inside each other; the paths that are looked at before are not
  too long. -/
  | nesting (hn : scanner.selection.nestedIgnores = true) (hd : host.isDir (rootPath host root).text = .ok true)
      (hh : Ignore.Nests host host.depths.ignores (rootPath host root))
      (hl : ∀ directory ∈ (Ignore.directories host host.depths.ignores (rootPath host root)).items,
        ¬Ignore.IsOverlong host directory) : Breaks scanner host root
  /-- Judging a file of a known suffix stumbles, and the files that the walk meets before it are dealt with. -/
  | stumble {rules : List Ignore.RuleFile}
      (hr : Ignore.filesFor host scanner.selection.nestedIgnores (rootPath host root) = .ok rules)
      (hs : Until (fun path => ∃ found, scanner.sourceAt host rules (rootPath host root) path = .ok found)
        (fun path => scanner.selection.suffixes.contains path.suffix = true ∧
          scanner.selection.Stumbles host rules (rootPath host root) path)
        ((scanner.tree host).walk host.depths.walk (rootPath host root)).items) : Breaks scanner host root
  /-- The walk comes too deep, and the files that it meets before that are dealt with. -/
  | depth {rules : List Ignore.RuleFile}
      (hr : Ignore.filesFor host scanner.selection.nestedIgnores (rootPath host root) = .ok rules)
      (ha : ∀ path ∈ ((scanner.tree host).walk host.depths.walk (rootPath host root)).items,
        ∃ found, scanner.sourceAt host rules (rootPath host root) path = .ok found)
      (hd : ((scanner.tree host).walk host.depths.walk (rootPath host root)).fault = some .nestedTooDeep) : Breaks scanner host root

/-- A scan keeps its names back exactly by the fault of its sources. -/
theorem scan_error_iff : scanner.scan host root = .error fault ↔ (scanner.sources host root).fault = some fault := by
  simp only [scan, bind_eq_error_iff, Trail.all_eq_error_iff, reduceCtorEq, and_false, exists_false, or_false]

/-- Without ignore files to obey there are no sources to meet. -/
theorem sources_of_filesFor_error {e : Fault}
    (hr : Ignore.filesFor host scanner.selection.nestedIgnores (rootPath host root) = .error e) :
    scanner.sources host root = .stop e := by
  simp only [sources, Source.files, hr]
  rfl

/-- A scan ends in a fault that it does not contain exactly if it meets something that it does not survive. -/
theorem scan_uncontained_iff (ht : (scanner.tree host).Fails) :
    (∃ fault, scanner.scan host root = .error fault ∧ fault.isContained = false) ↔ scanner.Breaks host root := by
  simp only [scan_error_iff]
  constructor
  · rintro ⟨fault, hf, hc⟩
    cases hr : Ignore.filesFor host scanner.selection.nestedIgnores (rootPath host root) with
    | error e =>
      rw [sources_of_filesFor_error hr] at hf
      cases hf
      rcases Ignore.filesFor_error_iff.1 hr with hp | ⟨-, path, hp, hs⟩
      · obtain ⟨hn, hd, hh, hl⟩ := Ignore.exists_pathsFor_uncontained_iff.1 ⟨_, hp, hc⟩
        exact .nesting hn hd hh hl
      · exact .shortRule hp hs
    | ok rules =>
      rw [sources_eq hr, Trail.filterMap_fault_iff] at hf
      rcases hf with ⟨before, path, after, hsplit, hbefore, hpath⟩ | ⟨hall, hwalk⟩
      · exact .stumble hr ⟨before, path, after, hsplit, hbefore, (sourceAt_uncontained_iff ht).1 ⟨fault, hpath, hc⟩⟩
      · rcases FileTree.walk_fault ht hwalk with hfault | rfl
        · rw [hfault.contained] at hc
          cases hc
        · exact .depth hr hall hwalk
  · rintro (⟨hp, hs⟩ | ⟨hn, hd, hh, hl⟩ | ⟨hr, before, path, after, hsplit, hbefore, hpath⟩ | ⟨hr, hall, hwalk⟩)
    · rw [sources_of_filesFor_error (Ignore.filesFor_error_iff.2 (Or.inr ⟨rfl, _, hp, hs⟩))]
      exact ⟨.ruleTooShort, rfl, rfl⟩
    · obtain ⟨fault, hp, hc⟩ := Ignore.exists_pathsFor_uncontained_iff.2 ⟨hn, hd, hh, hl⟩
      rw [sources_of_filesFor_error (Ignore.filesFor_error_iff.2 (Or.inl hp))]
      exact ⟨fault, rfl, hc⟩
    · obtain ⟨fault, hpath, hc⟩ := (sourceAt_uncontained_iff ht).2 hpath
      refine ⟨fault, ?_, hc⟩
      rw [sources_eq hr, Trail.filterMap_fault_iff]
      exact Or.inl ⟨before, path, after, hsplit, hbefore, hpath⟩
    · refine ⟨.nestedTooDeep, ?_, rfl⟩
      rw [sources_eq hr, Trail.filterMap_fault_iff]
      exact Or.inr ⟨hall, hwalk⟩

end Scanner

end SymbolSearch
