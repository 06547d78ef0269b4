import Mathlib.Data.List.Sort
import SymbolSearch.Proofs.Tree.Walk
import SymbolSearch.Tree.Memory

/-!
# Walks of trees in memory

A tree in memory is one whose walk is known (`regular_toFileTree`): it meets the files that names lead to without a refusal on the
way (`meets_cons_iff`). So a refusal only takes away what lies behind it: unless the walk comes too deep, it meets the same files as
in the tree from which that has been removed (`walk_pruned`).
-/

namespace SymbolSearch.MemoryTree

variable {tree : MemoryTree} {p q root : Path} {name : Text} {names rest front : List Text}

/-! ## What stands in a tree -/

/-- Something was put at the path of that name below a path, or further below. -/
def HasChild (tree : MemoryTree) (p : Path) (name : Text) : Prop :=
  ∃ rest, p.extend (name :: rest) ∈ tree.known

/-- The paths directly below a path are those of names that lead to something. -/
theorem mem_children_iff : q ∈ tree.children p ↔ ∃ name, tree.HasChild p name ∧ q = p.child name := by
  simp only [children, List.mem_eraseDups, List.mem_filterMap]
  constructor
  · rintro ⟨other, hother, hq⟩
    split at hq
    · rename_i name rest hbelow
      cases hq
      rw [Path.below?_eq_some_iff.1 hbelow] at hother
      exact ⟨name, ⟨rest, hother⟩, rfl⟩
    · cases hq
  · rintro ⟨name, ⟨rest, hknown⟩, rfl⟩
    exact ⟨_, hknown, by rw [Path.below?_extend]⟩

/-- What is left of a list without repetitions repeats nothing. -/
theorem nodup_eraseDups {α : Type} [BEq α] [LawfulBEq α] : ∀ l : List α, l.eraseDups.Nodup
  | [] => List.nodup_nil
  | a :: l => by
    rw [List.eraseDups_cons, List.nodup_cons]
    exact ⟨by simp, nodup_eraseDups _⟩
termination_by l => l.length
decreasing_by exact Nat.lt_succ_of_le (List.length_filter_le _ _)

/-- The paths directly below a path, by their names. -/
theorem exists_children (tree : MemoryTree) (p : Path) :
    ∃ names : List Text, tree.children p = names.map p.child ∧ names.Nodup ∧ ∀ name, name ∈ names ↔ tree.HasChild p name := by
  have hnamed : ∀ q ∈ tree.children p, p.child q.name = q := by
    intro q hq
    obtain ⟨name, -, rfl⟩ := mem_children_iff.1 hq
    rw [Path.name_child]
  have hback : ((tree.children p).map Path.name).map p.child = tree.children p := by
    rw [List.map_map]
    exact (List.map_congr_left hnamed).trans (List.map_id _)
  refine ⟨(tree.children p).map Path.name, hback.symm, ?_, fun name => ?_⟩
  · refine List.Nodup.of_map p.child ?_
    rw [hback]
    exact nodup_eraseDups _
  · rw [List.mem_map]
    constructor
    · rintro ⟨q, hq, rfl⟩
      obtain ⟨name, hchild, rfl⟩ := mem_children_iff.1 hq
      rw [Path.name_child]
      exact hchild
    · intro hchild
      exact ⟨p.child name, mem_children_iff.2 ⟨name, hchild, rfl⟩, Path.name_child p name⟩

/-- A path is a directory if one was put there or something lies below it. -/
theorem isDirectory_iff : tree.isDirectory p = true ↔ p ∈ tree.directories ∨ ∃ name, tree.HasChild p name := by
  simp only [isDirectory, Bool.or_eq_true, List.contains_iff_mem, List.any_eq_true]
  refine or_congr_right ?_
  constructor
  · rintro ⟨other, hother, hbelow⟩
    split at hbelow
    · rename_i found hfound
      obtain ⟨name, rest, rfl⟩ := List.exists_cons_of_ne_nil (show found ≠ [] by rintro rfl; cases hbelow)
      rw [Path.below?_eq_some_iff.1 hfound] at hother
      exact ⟨name, rest, hother⟩
    · cases hbelow
  · rintro ⟨name, rest, hknown⟩
    exact ⟨_, hknown, by rw [Path.below?_extend]; rfl⟩

/-! ## The walk -/

/-- A walk cannot find out what stands at a path: it asks whether it is a link, if not whether it is a directory, and if not
whether it is a file, and one of these questions is refused. -/
def failsAt (tree : MemoryTree) (p : Path) : Bool :=
  tree.refusals.isLink.contains p || (!tree.links.contains p &&
    (tree.refusals.isDir.contains p || (!tree.isDirectory p && tree.refusals.isFile.contains p)))

/-- A file was put at the path. -/
def hasFile (tree : MemoryTree) (p : Path) : Bool :=
  tree.files.any (fun entry => entry.1 = p)

/-- A question that may be refused has its answer exactly if it is not. -/
theorem unlessRefused_eq_ok_iff {α : Type} {refused : List Path} {answer a : α} :
    unlessRefused refused p (.ok answer) = .ok a ↔ p ∉ refused ∧ answer = a := by
  unfold unlessRefused
  by_cases h : p ∈ refused
  · simp [h]
  · simp [h]

theorem unlessRefused_error {α : Type} {refused : List Path} {answer : α} {fault : Fault}
    (h : unlessRefused refused p (.ok answer) = .error fault) : fault = .disk .denied := by
  unfold unlessRefused at h
  split at h
  · cases h
    rfl
  · cases h

/-- Directories that list what lies directly below them list different names, and a question is refused as a disk does. -/
theorem regular_toFileTree (hl : tree.listings = []) : tree.toFileTree.Regular (fun p => p.isAbsolute = true) := by
  refine ⟨fun ha => ha, ?_, ?_⟩
  · intro p entries ha hentries
    obtain ⟨names, hchildren, hnodup, -⟩ := tree.exists_children p
    obtain ⟨-, rfl⟩ := unlessRefused_eq_ok_iff.1 hentries
    refine ⟨names, ?_, hnodup, fun _ _ => ha⟩
    rw [listing, hl]
    exact hchildren
  · intro p fault _ h
    have hdenied : fault = .disk .denied := by
      rcases h with h | h | h | h
      · exact unlessRefused_error h
      · exact unlessRefused_error h
      · exact unlessRefused_error h
      · exact unlessRefused_error h
    rw [hdenied]
    rfl

/-- A directory shows the names that lead to something, unless it may not be listed. -/
theorem shows_iff (hl : tree.listings = []) : tree.toFileTree.Shows p name ↔ p ∉ tree.refusals.list ∧ tree.HasChild p name := by
  have hlisting : tree.listing p = tree.children p := by
    rw [listing, hl]
    rfl
  have hchild : p.child name ∈ tree.children p ↔ tree.HasChild p name := by
    rw [mem_children_iff]
    constructor
    · rintro ⟨other, hchild, heq⟩
      rwa [← Path.name_child p name, heq, Path.name_child]
    · exact fun hchild => ⟨name, hchild, rfl⟩
  constructor
  · rintro ⟨entries, hentries, hmem⟩
    obtain ⟨hlisted, rfl⟩ := unlessRefused_eq_ok_iff.1 hentries
    rw [hlisting] at hmem
    exact ⟨hlisted, hchild.1 hmem⟩
  · rintro ⟨hlisted, hname⟩
    refine ⟨_, unlessRefused_eq_ok_iff.2 ⟨hlisted, rfl⟩, ?_⟩
    rw [hlisting]
    exact hchild.2 hname

theorem enters_iff : tree.toFileTree.Enters q ↔
    tree.failsAt q = false ∧ q ∉ tree.links ∧ tree.isDirectory q = true ∧ q.name ∉ FileTree.skippedNames := by
  simp only [FileTree.Enters, toFileTree, unlessRefused_eq_ok_iff, failsAt]
  by_cases hlink : q ∈ tree.links
  · simp [hlink]
  · cases tree.isDirectory q <;> simp [hlink, and_assoc]

theorem finds_iff : tree.toFileTree.Finds q ↔
    tree.failsAt q = false ∧ q ∉ tree.links ∧ tree.isDirectory q = false ∧ tree.hasFile q = true := by
  simp only [FileTree.Finds, toFileTree, unlessRefused_eq_ok_iff, failsAt, hasFile]
  by_cases hlink : q ∈ tree.links
  · simp [hlink]
  · cases tree.isDirectory q <;> simp [hlink, and_assoc]

/-- A walk from a path meets the file that names lead to: the directory can be listed and shows the first name, what stands there
shows, and it is a directory that is not passed over and from which the others lead to the file, or the file itself. -/
theorem meets_cons_iff (hl : tree.listings = []) :
    tree.toFileTree.Meets p (name :: rest) ↔
      p ∉ tree.refusals.list ∧ tree.HasChild p name ∧ tree.failsAt (p.child name) = false ∧ p.child name ∉ tree.links ∧
        (tree.isDirectory (p.child name) = true ∧ name ∉ FileTree.skippedNames ∧ tree.toFileTree.Meets (p.child name) rest ∨
          tree.isDirectory (p.child name) = false ∧ tree.hasFile (p.child name) = true ∧ rest = []) := by
  rw [FileTree.Meets, shows_iff hl, enters_iff, finds_iff, Path.name_child]
  constructor
  · rintro ⟨⟨hlisted, hchild⟩, ⟨⟨hshown, hlink, hdir, hskip⟩, hmeets⟩ | ⟨hrest, hshown, hlink, hdir, hfile⟩⟩
    · exact ⟨hlisted, hchild, hshown, hlink, Or.inl ⟨hdir, hskip, hmeets⟩⟩
    · exact ⟨hlisted, hchild, hshown, hlink, Or.inr ⟨hdir, hfile, hrest⟩⟩
  · rintro ⟨hlisted, hchild, hshown, hlink, ⟨hdir, hskip, hmeets⟩ | ⟨hdir, hfile, hrest⟩⟩
    · exact ⟨⟨hlisted, hchild⟩, Or.inl ⟨⟨hshown, hlink, hdir, hskip⟩, hmeets⟩⟩
    · exact ⟨⟨hlisted, hchild⟩, Or.inr ⟨hrest, hshown, hlink, hdir, hfile⟩⟩

/-- A walk meets only files of which the tree knows, or in whose place it knows of something further below. -/
theorem exists_known_of_meets (hl : tree.listings = []) (h : tree.toFileTree.Meets p names) :
    ∃ rest, p.extend (names ++ rest) ∈ tree.known := by
  induction names generalizing p with
  | nil => cases h
  | cons name rest ih =>
    obtain ⟨-, ⟨below, hknown⟩, -, -, ⟨-, -, hmeets⟩ | ⟨-, -, rfl⟩⟩ := (meets_cons_iff hl).1 h
    · obtain ⟨more, hmore⟩ := ih hmeets
      rw [Path.child_extend] at hmore
      exact ⟨more, hmore⟩
    · exact ⟨below, hknown⟩

/-- A walk comes no deeper than the tree knows of something. -/
theorem not_exceeds_of_known (hl : tree.listings = []) {depth : Nat}
    (h : ∀ q ∈ tree.known, q.names.length ≤ p.names.length + depth) : ¬tree.toFileTree.Exceeds depth p := by
  induction depth generalizing p with
  | zero =>
    rintro ⟨name, hshows⟩
    obtain ⟨-, rest, hknown⟩ := (shows_iff hl).1 hshows
    have hshort := h _ hknown
    simp only [Path.extend, List.length_append, List.length_cons] at hshort
    omega
  | succ depth ih =>
    rintro ⟨name, -, -, hexceeds⟩
    refine ih (fun q hq => ?_) hexceeds
    have hshort := h q hq
    simp only [Path.child, List.length_append, List.length_singleton]
    omega

/-! ## What refusals take away -/

/-- On the way from a path by names, a directory cannot be listed, or it does not show what stands at a name. -/
def isLost (tree : MemoryTree) : Path → List Text → Bool
  | _, [] => false
  | p, name :: rest =>
    tree.refusals.list.contains p || tree.failsAt (p.child name) || isLost tree (p.child name) rest

/-- The path lies below the root, and a walk from there does not come to it. -/
def isGone (tree : MemoryTree) (root p : Path) : Bool :=
  match p.below? root with
  | some names => tree.isLost root names
  | none => false

/-- Reading the file at the path is not refused, and it is a text. -/
def isReadable (tree : MemoryTree) (p : Path) : Bool :=
  !(tree.refusals.read.contains p || tree.refusals.decode.contains p)

/-- The directories in which a path lies. -/
def ancestors (p : Path) : List Path :=
  (List.range p.names.length).map (fun n => ⟨p.root, p.names.take n⟩)

/-- The tree without refusals from which all has been removed that they take away below the root: what a walk does not come to,
and the files that cannot be read. A directory stays one when all that lies below it is removed. -/
def pruned (tree : MemoryTree) (root : Path) : MemoryTree where
  files := tree.files.filter (fun entry => !tree.isGone root entry.1 && tree.isReadable entry.1)
  directories := (tree.directories ++ tree.known.flatMap ancestors).filter (fun p => !tree.isGone root p)
  links := tree.links.filter (fun p => !tree.isGone root p)
  listings := []
  refusals := ⟨[], [], [], [], [], []⟩

theorem isLost_append (p : Path) (front back : List Text) :
    tree.isLost p (front ++ back) = (tree.isLost p front || tree.isLost (p.extend front) back) := by
  induction front generalizing p with
  | nil => rw [Path.extend_nil]; rfl
  | cons name rest ih => simp [isLost, ih, Path.child_extend, Bool.or_assoc]

/-- No refusal stands on the way to what a walk meets. -/
theorem isLost_eq_false_of_meets (hl : tree.listings = []) (h : tree.toFileTree.Meets p names) : tree.isLost p names = false := by
  induction names generalizing p with
  | nil => cases h
  | cons name rest ih =>
    obtain ⟨hlist, -, hanswered, -, hrest⟩ := (meets_cons_iff hl).1 h
    have hlost : tree.isLost (p.child name) rest = false := by
      rcases hrest with ⟨-, -, hmeets⟩ | ⟨-, -, rfl⟩
      · exact ih hmeets
      · rfl
    simp [isLost, hlist, hanswered, hlost]

theorem isGone_extend (root : Path) (names : List Text) : tree.isGone root (root.extend names) = tree.isLost root names := by
  rw [isGone, Path.below?_extend]

theorem mem_ancestors_iff : q ∈ ancestors p ↔ ∃ name rest, p = q.extend (name :: rest) := by
  rw [ancestors, List.mem_map]
  constructor
  · rintro ⟨n, hn, rfl⟩
    have hne : p.names.drop n ≠ [] := by
      rw [List.mem_range] at hn
      simp only [ne_eq, List.drop_eq_nil_iff]
      omega
    obtain ⟨name, rest, hrest⟩ := List.exists_cons_of_ne_nil hne
    refine ⟨name, rest, ?_⟩
    rw [Path.extend, ← hrest, List.take_append_drop]
  · rintro ⟨name, rest, rfl⟩
    refine ⟨q.names.length, ?_, ?_⟩
    · rw [List.mem_range, Path.extend, List.length_append, List.length_cons]
      omega
    · rw [Path.extend, List.take_left]

/-- What stands in the pruned tree is not gone, and something stands there or below in the tree. -/
theorem of_mem_known_pruned (h : q ∈ (tree.pruned root).known) :
    tree.isGone root q = false ∧ ∃ names, q.extend names ∈ tree.known := by
  simp only [known, pruned, List.mem_append, List.mem_map, List.mem_filter, List.mem_flatMap, Bool.and_eq_true,
    Bool.not_eq_true'] at h
  rcases h with (⟨entry, ⟨hentry, hkept, -⟩, rfl⟩ | ⟨hdir | ⟨below, hbelow, hq⟩, hkept⟩) | ⟨hlink, hkept⟩
  · refine ⟨hkept, [], ?_⟩
    rw [Path.extend_nil]
    exact List.mem_append_left _ (List.mem_append_left _ (List.mem_map_of_mem hentry))
  · refine ⟨hkept, [], ?_⟩
    rw [Path.extend_nil]
    exact List.mem_append_left _ (List.mem_append_right _ hdir)
  · obtain ⟨name, rest, rfl⟩ := mem_ancestors_iff.1 hq
    refine ⟨hkept, name :: rest, ?_⟩
    simpa only [known, List.mem_append, List.mem_map] using hbelow
  · refine ⟨hkept, [], ?_⟩
    rw [Path.extend_nil]
    exact List.mem_append_right _ hlink

/-- A name that leads to something in the pruned tree leads to something in the tree, and a walk comes there. -/
theorem of_hasChild_pruned (h : (tree.pruned root).HasChild (root.extend front) name) :
    tree.HasChild (root.extend front) name ∧ root.extend front ∉ tree.refusals.list ∧
      tree.failsAt ((root.extend front).child name) = false := by
  obtain ⟨rest, hknown⟩ := h
  obtain ⟨hkept, names, hbelow⟩ := of_mem_known_pruned hknown
  rw [Path.extend_extend, isGone_extend, isLost_append, Bool.or_eq_false_iff, isLost, Bool.or_eq_false_iff,
    Bool.or_eq_false_iff] at hkept
  rw [Path.extend_extend, List.cons_append] at hbelow
  exact ⟨⟨rest ++ names, hbelow⟩, by simpa using hkept.2.1.1, hkept.2.1.2⟩

section

variable (hp : tree.isLost root front = false)
include hp

theorem mem_directories_pruned_iff :
    root.extend front ∈ (tree.pruned root).directories ↔ tree.isDirectory (root.extend front) = true := by
  simp only [pruned, List.mem_filter, List.mem_append, List.mem_flatMap, isGone_extend, hp, Bool.not_false, and_true,
    isDirectory_iff, mem_ancestors_iff]
  refine or_congr_right ?_
  constructor
  · rintro ⟨_, hknown, name, rest, rfl⟩
    exact ⟨name, rest, hknown⟩
  · rintro ⟨name, rest, hknown⟩
    exact ⟨_, hknown, name, rest, rfl⟩

theorem isDirectory_pruned : (tree.pruned root).isDirectory (root.extend front) = tree.isDirectory (root.extend front) := by
  rw [Bool.eq_iff_iff, isDirectory_iff, mem_directories_pruned_iff hp]
  constructor
  · rintro (hdir | ⟨name, hchild⟩)
    · exact hdir
    · exact isDirectory_iff.2 (Or.inr ⟨name, (of_hasChild_pruned hchild).1⟩)
  · exact Or.inl

theorem mem_links_pruned_iff : root.extend front ∈ (tree.pruned root).links ↔ root.extend front ∈ tree.links := by
  simp [pruned, isGone_extend, hp]

theorem hasFile_pruned :
    (tree.pruned root).hasFile (root.extend front) =
      (tree.hasFile (root.extend front) && tree.isReadable (root.extend front)) := by
  rw [Bool.eq_iff_iff, Bool.and_eq_true]
  simp only [hasFile, pruned, List.any_eq_true, List.mem_filter, decide_eq_true_eq, Bool.and_eq_true, Bool.not_eq_true']
  constructor
  · rintro ⟨entry, ⟨hentry, -, hread⟩, hpath⟩
    rw [hpath] at hread
    exact ⟨⟨entry, hentry, hpath⟩, hread⟩
  · rintro ⟨⟨entry, hentry, hpath⟩, hread⟩
    refine ⟨entry, ⟨hentry, ?_, ?_⟩, hpath⟩
    · rw [hpath, isGone_extend, hp]
    · rw [hpath, hread]

theorem mem_known_pruned_of_hasFile (hfile : tree.hasFile (root.extend front) = true)
    (hread : tree.isReadable (root.extend front) = true) : root.extend front ∈ (tree.pruned root).known := by
  have hkept : (tree.pruned root).hasFile (root.extend front) = true := by
    rw [hasFile_pruned hp, hfile, hread]
    rfl
  obtain ⟨entry, hentry, hpath⟩ := List.any_eq_true.1 hkept
  rw [← of_decide_eq_true hpath]
  exact List.mem_append_left _ (List.mem_append_left _ (List.mem_map_of_mem hentry))

end

/-- In the pruned tree no question is refused. -/
theorem failsAt_pruned (root p : Path) : (tree.pruned root).failsAt p = false := by
  simp [failsAt, pruned]

section

variable (hl : tree.listings = [])
include hl

/-- From a path that a walk comes to, it meets the same files in the pruned tree, as far as they can be read. -/
theorem meets_pruned_from_iff (hp : tree.isLost root front = false) :
    (tree.pruned root).toFileTree.Meets (root.extend front) names ↔
      tree.toFileTree.Meets (root.extend front) names ∧ tree.isReadable (root.extend (front ++ names)) = true := by
  induction names generalizing front with
  | nil => simp [FileTree.Meets]
  | cons name rest ih =>
    have hnext : (root.extend front).child name = root.extend (front ++ [name]) := by
      rw [Path.child_eq_extend, Path.extend_extend]
    have hsplit : front ++ name :: rest = (front ++ [name]) ++ rest := by simp
    have hlost : root.extend front ∉ tree.refusals.list → tree.failsAt ((root.extend front).child name) = false →
        tree.isLost root (front ++ [name]) = false := by
      intro hlist hfails
      simp [isLost_append, isLost, hp, hlist, hfails]
    have hpruned : (tree.pruned root).listings = [] := rfl
    rw [meets_cons_iff hpruned, meets_cons_iff hl]
    constructor
    · rintro ⟨-, hchild, -, hlink, hmeets⟩
      obtain ⟨hchild, hlist, hfails⟩ := of_hasChild_pruned hchild
      have hc := hlost hlist hfails
      simp only [hnext, mem_links_pruned_iff hc, isDirectory_pruned hc, hasFile_pruned hc, ih hc, Bool.and_eq_true]
        at hlink hmeets
      rcases hmeets with ⟨hdir, hskip, hmeets, hread⟩ | ⟨hdir, ⟨hfile, hread⟩, rfl⟩
      · refine ⟨⟨hlist, hchild, hfails, ?_, Or.inl ⟨?_, hskip, ?_⟩⟩, ?_⟩
        · rwa [hnext]
        · rwa [hnext]
        · rwa [hnext]
        · rwa [hsplit]
      · refine ⟨⟨hlist, hchild, hfails, ?_, Or.inr ⟨?_, ?_, rfl⟩⟩, hread⟩
        · rwa [hnext]
        · rwa [hnext]
        · rwa [hnext]
    · rintro ⟨⟨hlist, hchild, hfails, hlink, hmeets⟩, hread⟩
      have hc := hlost hlist hfails
      simp only [hnext] at hlink hmeets
      rw [hsplit] at hread
      have hkept : root.extend (front ++ [name]) ∈ (tree.pruned root).known := by
        rcases hmeets with ⟨hdir, -⟩ | ⟨-, hfile, rfl⟩
        · exact List.mem_append_left _ (List.mem_append_right _ ((mem_directories_pruned_iff hc).2 hdir))
        · rw [List.append_nil] at hread
          exact mem_known_pruned_of_hasFile hc hfile hread
      rw [← Path.extend_extend] at hkept
      refine ⟨List.not_mem_nil, ⟨[], hkept⟩, failsAt_pruned _ _, ?_, ?_⟩
      · rw [hnext, mem_links_pruned_iff hc]
        exact hlink
      · rw [hnext, isDirectory_pruned hc, hasFile_pruned hc, ih hc]
        rcases hmeets with ⟨hdir, hskip, hmeets⟩ | ⟨hdir, hfile, rfl⟩
        · exact Or.inl ⟨hdir, hskip, hmeets, hread⟩
        · rw [List.append_nil] at hread
          exact Or.inr ⟨hdir, by rw [hfile, hread]; rfl, rfl⟩

/-- In the pruned tree a walk meets the same files, as far as they can be read. -/
theorem meets_pruned_iff :
    (tree.pruned root).toFileTree.Meets root names ↔
      tree.toFileTree.Meets root names ∧ tree.isReadable (root.extend names) = true := by
  have hstart : (tree.pruned root).toFileTree.Meets (root.extend []) names ↔
      tree.toFileTree.Meets (root.extend []) names ∧ tree.isReadable (root.extend ([] ++ names)) = true :=
    meets_pruned_from_iff hl rfl
  rwa [Path.extend_nil, List.nil_append] at hstart

/-- From a path that a walk comes to, it comes too deep in the pruned tree only if it does in the tree. -/
theorem exceeds_of_pruned_from {depth : Nat} (hp : tree.isLost root front = false)
    (h : (tree.pruned root).toFileTree.Exceeds depth (root.extend front)) :
    tree.toFileTree.Exceeds depth (root.extend front) := by
  have hpruned : (tree.pruned root).listings = [] := rfl
  induction depth generalizing front with
  | zero =>
    obtain ⟨name, hshows⟩ := h
    obtain ⟨hchild, hlist, -⟩ := of_hasChild_pruned ((shows_iff hpruned).1 hshows).2
    exact ⟨name, (shows_iff hl).2 ⟨hlist, hchild⟩⟩
  | succ depth ih =>
    obtain ⟨name, hshows, henters, hexceeds⟩ := h
    obtain ⟨hchild, hlist, hfails⟩ := of_hasChild_pruned ((shows_iff hpruned).1 hshows).2
    have hc : tree.isLost root (front ++ [name]) = false := by simp [isLost_append, isLost, hp, hlist, hfails]
    have hnext : (root.extend front).child name = root.extend (front ++ [name]) := by
      rw [Path.child_eq_extend, Path.extend_extend]
    rw [hnext] at henters hexceeds hfails
    rw [enters_iff, mem_links_pruned_iff hc, isDirectory_pruned hc] at henters
    refine ⟨name, (shows_iff hl).2 ⟨hlist, hchild⟩, ?_, ?_⟩
    · rw [hnext, enters_iff]
      exact ⟨hfails, henters.2⟩
    · rw [hnext]
      exact ih hc hexceeds

/-- A walk comes too deep in the pruned tree only if it does in the tree. -/
theorem exceeds_of_pruned {depth : Nat} (h : (tree.pruned root).toFileTree.Exceeds depth root) :
    tree.toFileTree.Exceeds depth root := by
  have hstart : tree.toFileTree.Exceeds depth (root.extend []) := exceeds_of_pruned_from hl rfl (by rwa [Path.extend_nil])
  rwa [Path.extend_nil] at hstart

/-- A walk of a tree with refusals that does not come too deep meets what a walk of the pruned tree does, and the files that cannot
be read. -/
theorem walk_pruned (ha : root.isAbsolute = true) {depth : Nat} (hd : ¬tree.toFileTree.Exceeds depth root) :
    ((tree.pruned root).toFileTree.walk depth root).items = (tree.toFileTree.walk depth root).items.filter tree.isReadable := by
  have : Std.Irrefl Path.Precedes := ⟨fun p h => h.ne rfl⟩
  have : Std.Antisymm Path.Precedes := ⟨fun p q h h' => absurd h' h.asymm⟩
  have hpruned : (tree.pruned root).listings = [] := rfl
  obtain ⟨-, hordered, hmem⟩ := (regular_toFileTree hl).walk_lists ha hd
  obtain ⟨-, hordered', hmem'⟩ := (regular_toFileTree hpruned).walk_lists ha fun hexceeds => hd (exceeds_of_pruned hl hexceeds)
  refine hordered'.eq_of_mem_iff (hordered.filter _) fun q => ?_
  rw [hmem', List.mem_filter, hmem]
  simp only [meets_pruned_iff hl]
  constructor
  · rintro ⟨names, rfl, hmet, hread⟩
    exact ⟨⟨names, rfl, hmet⟩, hread⟩
  · rintro ⟨⟨names, rfl, hmet⟩, hread⟩
    exact ⟨names, rfl, hmet, hread⟩

end

end SymbolSearch.MemoryTree
