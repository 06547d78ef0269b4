import SymbolSearch.Proofs.Path.Order
import SymbolSearch.Proofs.Trail
import SymbolSearch.Tree.Basic

/-!
# What a walk meets

A walk of a tree that lists each directory by different names meets, in the order of paths, exactly the files that names lead to
through directories which it can list and enter (`walk_lists`). It may go only so deep: in a tree where it comes to a directory at
its last level and that one still lists something, it ends in a fault (`walk_fault`). What it has met by then are such files
(`walk_sound`).
-/

namespace SymbolSearch

/-! ## Trails that list paths -/

/-- A trail meets exactly the paths that `wanted` says, in their order, and comes to its end. -/
structure Trail.Lists (trail : Trail Path) (wanted : Path → Prop) : Prop where
  ends : trail.fault = none
  ordered : trail.items.Pairwise Path.Precedes
  mem_iff : ∀ q, q ∈ trail.items ↔ wanted q

namespace Trail

variable {p : Path}

theorem lists_empty {wanted : Path → Prop} (h : ∀ q, ¬wanted q) : Trail.empty.Lists wanted :=
  ⟨rfl, .nil, fun q => iff_of_false List.not_mem_nil (h q)⟩

theorem lists_one {wanted : Path → Prop} (h : ∀ q, wanted q ↔ q = p) : (Trail.one p).Lists wanted :=
  ⟨rfl, List.pairwise_singleton _ _, fun q => by rw [h]; exact List.mem_singleton⟩

/-- Trails that each list what is wanted behind one name list, in the order of the names, all that is wanted. -/
theorem through_lists (ha : p.isAbsolute = true) (wanted : List Text → Prop) {names : List Text}
    (ho : names.Pairwise Text.Before) (hn : ∀ reached, wanted reached → ∃ name rest, reached = name :: rest ∧ name ∈ names)
    {f : Path → Trail Path}
    (hf : ∀ name ∈ names, (f (p.child name)).Lists (fun q => ∃ rest, q = p.extend (name :: rest) ∧ wanted (name :: rest))) :
    (through f (names.map p.child)).Lists (fun q => ∃ reached, q = p.extend reached ∧ wanted reached) := by
  have hends : ∀ path ∈ names.map p.child, (f path).fault = none := by
    intro path hpath
    obtain ⟨name, hname, rfl⟩ := List.mem_map.1 hpath
    exact (hf name hname).ends
  rw [through_of_faultless hends]
  refine ⟨rfl, ?_, fun q => ?_⟩
  · rw [List.pairwise_flatMap, List.pairwise_map]
    constructor
    · intro path hpath
      obtain ⟨name, hname, rfl⟩ := List.mem_map.1 hpath
      exact (hf name hname).ordered
    · refine ho.imp_of_mem fun hname hother hbefore q hq q' hq' => ?_
      obtain ⟨front, rfl, -⟩ := ((hf _ hname).mem_iff q).1 hq
      obtain ⟨back, rfl, -⟩ := ((hf _ hother).mem_iff q').1 hq'
      exact Path.precedes_extend ha hbefore front back
  · simp only [List.mem_flatMap, List.mem_map, exists_exists_and_eq_and]
    constructor
    · rintro ⟨name, hname, hq⟩
      obtain ⟨rest, hq, hwanted⟩ := ((hf name hname).mem_iff q).1 hq
      exact ⟨name :: rest, hq, hwanted⟩
    · rintro ⟨reached, hq, hwanted⟩
      obtain ⟨name, rest, rfl, hname⟩ := hn reached hwanted
      exact ⟨name, hname, ((hf name hname).mem_iff q).2 ⟨rest, hq, hwanted⟩⟩

end Trail

namespace FileTree

variable {tree : FileTree} {inv : Path → Prop} {p q : Path} {name : Text} {names rest : List Text} {entries : List Path}
  {depth : Nat} {enter : Path → Trail Path} {fault : Fault}

/-! ## Where a walk comes to -/

/-- A directory lists a name. -/
def Shows (tree : FileTree) (p : Path) (name : Text) : Prop :=
  ∃ entries, tree.list p = .ok entries ∧ p.child name ∈ entries

/-- A path is known to be a directory, and no link to one; a walk does not pass it over. -/
def Enters (tree : FileTree) (q : Path) : Prop :=
  tree.isLink q = .ok false ∧ tree.isDir q = .ok true ∧ q.name ∉ skippedNames

/-- A path is known to be a file, and no link to one. -/
def Finds (tree : FileTree) (q : Path) : Prop :=
  tree.isLink q = .ok false ∧ tree.isDir q = .ok false ∧ tree.isFile q = .ok true

/-- Names lead from a directory to a file: each is listed where it stands, and all but the last name directories that a walk
enters. -/
def Meets (tree : FileTree) : Path → List Text → Prop
  | _, [] => False
  | p, name :: rest =>
    tree.Shows p name ∧
      (tree.Enters (p.child name) ∧ tree.Meets (p.child name) rest ∨ rest = [] ∧ tree.Finds (p.child name))

/-- A walk comes by so many names to a directory that lists something. -/
def Exceeds (tree : FileTree) : Nat → Path → Prop
  | 0, p => ∃ name, tree.Shows p name
  | depth + 1, p => ∃ name, tree.Shows p name ∧ tree.Enters (p.child name) ∧ tree.Exceeds depth (p.child name)

/-- At the paths that `inv` says, directories list different names, at which it goes on to hold, and a question stays unanswered
only where the disk fails. -/
structure Regular (tree : FileTree) (inv : Path → Prop) : Prop where
  absolute : ∀ {p}, inv p → p.isAbsolute = true
  listed : ∀ {p entries}, inv p → tree.list p = .ok entries →
    ∃ names : List Text, entries = names.map p.child ∧ names.Nodup ∧ ∀ name ∈ names, inv (p.child name)
  failure : ∀ {p fault}, inv p →
    tree.list p = .error fault ∨ tree.isLink p = .error fault ∨ tree.isDir p = .error fault ∨ tree.isFile p = .error fault →
      fault.isDiskFailure = true

/-! ## One entry -/

theorem visit_of_enters (h : tree.Enters q) : visit tree enter q = enter q := by
  obtain ⟨hlink, hdir, hskip⟩ := h
  simp [visit, hlink, hdir, hskip, pruning, bind, Except.bind]

theorem visit_of_finds (h : tree.Finds q) : visit tree enter q = .one q := by
  obtain ⟨hlink, hdir, hfile⟩ := h
  simp [visit, hlink, hdir, hfile, pruning, bind, Except.bind]

/-- A directory that a walk enters is no file. -/
theorem Enters.not_finds (h : tree.Enters q) : ¬tree.Finds q := by
  rintro ⟨-, hdir, -⟩
  have hboth := h.2.1.symm.trans hdir
  cases hboth

/-- A walk meets nothing where an answer lacks. -/
theorem Regular.pruning_error {α : Type} (hr : tree.Regular inv) (hp : inv p)
    (h : tree.list p = .error fault ∨ tree.isLink p = .error fault ∨ tree.isDir p = .error fault ∨
      tree.isFile p = .error fault) : pruning (.error fault : Except Fault (Trail α)) = .empty := by
  rw [pruning, if_pos (hr.failure hp h)]

/-- A walk meets nothing at an entry that is no directory to enter and no file. -/
theorem Regular.visit_of_not (hr : tree.Regular inv) (hq : inv q) (he : ¬tree.Enters q) (hf : ¬tree.Finds q) :
    visit tree enter q = .empty := by
  unfold visit
  cases hlink : tree.isLink q with
  | error fault => exact hr.pruning_error hq (Or.inr (Or.inl hlink))
  | ok linked =>
    cases linked with
    | true => rfl
    | false =>
      cases hdir : tree.isDir q with
      | error fault => exact hr.pruning_error hq (Or.inr (Or.inr (Or.inl hdir)))
      | ok found =>
        cases found with
        | true =>
          have hskip : q.name ∈ skippedNames := by
            by_contra hskip
            exact he ⟨hlink, hdir, hskip⟩
          simp [hskip, pruning, bind, Except.bind]
        | false =>
          cases hfile : tree.isFile q with
          | error fault => exact hr.pruning_error hq (Or.inr (Or.inr (Or.inr hfile)))
          | ok found =>
            cases found with
            | true => exact absurd ⟨hlink, hdir, hfile⟩ hf
            | false => rfl

/-- At an entry a walk goes on if it is a directory to enter; else it meets the file that the entry is, or nothing. -/
theorem Regular.visit_cases (hr : tree.Regular inv) (hq : inv q) (enter : Path → Trail Path) :
    tree.Enters q ∧ visit tree enter q = enter q ∨
      ¬tree.Enters q ∧ tree.Finds q ∧ visit tree enter q = .one q ∨
      ¬tree.Enters q ∧ ¬tree.Finds q ∧ visit tree enter q = .empty := by
  by_cases he : tree.Enters q
  · exact Or.inl ⟨he, visit_of_enters he⟩
  · by_cases hf : tree.Finds q
    · exact Or.inr (Or.inl ⟨he, hf, visit_of_finds hf⟩)
    · exact Or.inr (Or.inr ⟨he, hf, hr.visit_of_not hq he hf⟩)

/-- A walk meets at an entry of a directory the files that its name leads to, provided that it does so in the entry. -/
theorem Regular.visit_lists (hr : tree.Regular inv) (hq : inv (p.child name)) (hs : tree.Shows p name)
    (henter : tree.Enters (p.child name) →
      (enter (p.child name)).Lists (fun q => ∃ names, q = (p.child name).extend names ∧ tree.Meets (p.child name) names)) :
    (visit tree enter (p.child name)).Lists (fun q => ∃ rest, q = p.extend (name :: rest) ∧ tree.Meets p (name :: rest)) := by
  rcases hr.visit_cases hq enter with ⟨he, hvisit⟩ | ⟨he, hf, hvisit⟩ | ⟨he, hf, hvisit⟩
  · rw [hvisit]
    simpa [Meets, Path.child_extend, hs, he, he.not_finds] using henter he
  · rw [hvisit]
    refine Trail.lists_one fun q => ?_
    simp only [Meets, hs, he, hf, false_and, false_or, true_and, and_true]
    constructor
    · rintro ⟨rest, hq, rfl⟩
      exact hq
    · exact fun hq => ⟨[], hq, rfl⟩
  · rw [hvisit]
    refine Trail.lists_empty ?_
    simp [Meets, he, hf]

/-! ## Whole walks -/

/-- A walk meets nothing in a directory that it cannot list. -/
theorem Regular.walk_of_error (hr : tree.Regular inv) (hp : inv p) (h : tree.list p = .error fault) (depth : Nat) :
    tree.walk depth p = .empty := by
  have hpruned : pruning (.error fault : Except Fault (Trail Path)) = .empty := hr.pruning_error hp (Or.inl h)
  cases depth with
  | zero => rw [walk, h]; exact hpruned
  | succ depth => rw [walk, h]; exact hpruned

/-- At its last level a walk meets nothing, and a directory that lists something is a fault. -/
theorem Regular.walk_zero (hr : tree.Regular inv) (hp : inv p) (h : tree.list p = .ok entries) :
    (∀ name, ¬tree.Shows p name) ∧ tree.walk 0 p = .empty ∨
      (∃ name, tree.Shows p name) ∧ tree.walk 0 p = .stop .nestedTooDeep := by
  obtain ⟨names, rfl, -, -⟩ := hr.listed hp h
  cases names with
  | nil =>
    refine Or.inl ⟨?_, by rw [walk, h]; rfl⟩
    rintro name ⟨entries, hentries, hmem⟩
    rw [h] at hentries
    cases hentries
    cases hmem
  | cons name rest => exact Or.inr ⟨⟨name, _, h, List.mem_cons_self⟩, by rw [walk, h]; rfl⟩

/-- At the other levels a walk visits the entries of a directory in the order of their names. -/
theorem Regular.walk_succ (hr : tree.Regular inv) (hp : inv p) (h : tree.list p = .ok entries) (depth : Nat) :
    ∃ names : List Text, tree.walk (depth + 1) p = .through (visit tree (tree.walk depth)) (names.map p.child) ∧
      names.Pairwise Text.Before ∧ ∀ name, (name ∈ names ↔ tree.Shows p name) ∧ (name ∈ names → inv (p.child name)) := by
  obtain ⟨names, rfl, hnodup, hinv⟩ := hr.listed hp h
  obtain ⟨sorted, hsort, hperm, hordered⟩ := Path.exists_mergeSort_children (hr.absolute hp) hnodup
  refine ⟨sorted, ?_, hordered, fun name => ⟨?_, fun hname => hinv name (hperm.mem_iff.1 hname)⟩⟩
  · rw [walk, h, ← hsort]
    rfl
  · rw [hperm.mem_iff]
    constructor
    · exact fun hname => ⟨_, h, List.mem_map_of_mem hname⟩
    · rintro ⟨entries, hentries, hmem⟩
      rw [h] at hentries
      cases hentries
      obtain ⟨other, hother, heq⟩ := List.mem_map.1 hmem
      rwa [← Path.name_child p name, ← heq, Path.name_child]

/-- Nothing is met in a directory that lists nothing. -/
theorem lists_of_not_shows (h : ∀ name, ¬tree.Shows p name) :
    Trail.empty.Lists (fun q => ∃ names, q = p.extend names ∧ tree.Meets p names) := by
  refine Trail.lists_empty ?_
  rintro q ⟨names, -, hmeets⟩
  cases names with
  | nil => exact hmeets
  | cons name rest => exact h name hmeets.1

/-- A directory that cannot be listed shows nothing. -/
theorem not_shows_of_error (h : tree.list p = .error fault) (name : Text) : ¬tree.Shows p name := by
  rintro ⟨entries, hentries, -⟩
  rw [h] at hentries
  cases hentries

/-- A walk that does not come too deep comes to its end and meets the files that names lead to. -/
theorem Regular.walk_lists (hr : tree.Regular inv) (hp : inv p) (hd : ¬tree.Exceeds depth p) :
    (tree.walk depth p).Lists (fun q => ∃ names, q = p.extend names ∧ tree.Meets p names) := by
  -- along the levels, each directory being listed or not
  induction depth generalizing p with
  | zero =>
    cases hl : tree.list p with
    | error fault =>
      rw [hr.walk_of_error hp hl]
      exact lists_of_not_shows (not_shows_of_error hl)
    | ok entries =>
      rcases hr.walk_zero hp hl with ⟨hnone, hwalk⟩ | ⟨hsome, -⟩
      · rw [hwalk]
        exact lists_of_not_shows hnone
      · exact absurd hsome hd
  | succ depth ih =>
    cases hl : tree.list p with
    | error fault =>
      rw [hr.walk_of_error hp hl]
      exact lists_of_not_shows (not_shows_of_error hl)
    | ok entries =>
      obtain ⟨names, hwalk, hordered, hnames⟩ := hr.walk_succ hp hl depth
      rw [hwalk]
      refine Trail.through_lists (hr.absolute hp) (tree.Meets p) hordered ?_ ?_
      · intro reached hmeets
        cases reached with
        | nil => cases hmeets
        | cons name rest => exact ⟨name, rest, rfl, (hnames name).1.2 hmeets.1⟩
      · intro name hname
        have hshows := (hnames name).1.1 hname
        have hchild := (hnames name).2 hname
        exact hr.visit_lists hchild hshows fun henters => ih hchild fun hexceeds => hd ⟨name, hshows, henters, hexceeds⟩

/-- What a walk has met when it ends are files that names lead to, and it ends early only where it comes too deep. -/
theorem Regular.walk_sound (hr : tree.Regular inv) (hp : inv p) (depth : Nat) :
    (∀ q ∈ (tree.walk depth p).items, ∃ names, q = p.extend names ∧ tree.Meets p names) ∧
      ∀ fault, (tree.walk depth p).fault = some fault → fault = .nestedTooDeep := by
  induction depth generalizing p with
  | zero =>
    cases hl : tree.list p with
    | error fault => simp [hr.walk_of_error hp hl, Trail.empty]
    | ok entries =>
      rcases hr.walk_zero hp hl with ⟨-, hwalk⟩ | ⟨-, hwalk⟩
      · simp [hwalk, Trail.empty]
      · simp [hwalk, Trail.stop]
  | succ depth ih =>
    cases hl : tree.list p with
    | error fault => simp [hr.walk_of_error hp hl, Trail.empty]
    | ok entries =>
      obtain ⟨names, hwalk, -, hnames⟩ := hr.walk_succ hp hl depth
      rw [hwalk]
      constructor
      · intro q hq
        obtain ⟨path, hpath, hq⟩ := Trail.exists_of_mem_through hq
        obtain ⟨name, hname, rfl⟩ := List.mem_map.1 hpath
        have hshows := (hnames name).1.1 hname
        have hchild := (hnames name).2 hname
        rcases hr.visit_cases hchild (tree.walk depth) with ⟨he, hvisit⟩ | ⟨-, hf, hvisit⟩ | ⟨-, -, hvisit⟩
        · rw [hvisit] at hq
          obtain ⟨rest, rfl, hmeets⟩ := (ih hchild).1 q hq
          exact ⟨name :: rest, Path.child_extend p name rest, hshows, Or.inl ⟨he, hmeets⟩⟩
        · rw [hvisit] at hq
          exact ⟨[name], List.mem_singleton.1 hq, hshows, Or.inr ⟨rfl, hf⟩⟩
        · rw [hvisit] at hq
          cases hq
      · intro fault hfault
        obtain ⟨path, hpath, hfault⟩ := Trail.through_fault hfault
        obtain ⟨name, hname, rfl⟩ := List.mem_map.1 hpath
        have hchild := (hnames name).2 hname
        rcases hr.visit_cases hchild (tree.walk depth) with ⟨-, hvisit⟩ | ⟨-, -, hvisit⟩ | ⟨-, -, hvisit⟩
        · rw [hvisit] at hfault
          exact (ih hchild).2 fault hfault
        · rw [hvisit] at hfault
          cases hfault
        · rw [hvisit] at hfault
          cases hfault

/-- A walk that comes too deep ends in a fault. -/
theorem Regular.walk_fault (hr : tree.Regular inv) (hp : inv p) (hd : tree.Exceeds depth p) :
    (tree.walk depth p).fault = some .nestedTooDeep := by
  induction depth generalizing p with
  | zero =>
    obtain ⟨name, entries, hl, hmem⟩ := hd
    rcases hr.walk_zero hp hl with ⟨hnone, -⟩ | ⟨-, hwalk⟩
    · exact absurd ⟨entries, hl, hmem⟩ (hnone name)
    · rw [hwalk]
      rfl
  | succ depth ih =>
    obtain ⟨name, ⟨entries, hl, hmem⟩, henters, hexceeds⟩ := hd
    obtain ⟨names, hwalk, -, hnames⟩ := hr.walk_succ hp hl depth
    have hname := (hnames name).1.2 ⟨entries, hl, hmem⟩
    have hfault := ih ((hnames name).2 hname) hexceeds
    -- one entry ends the walk, and whatever entry ends it does so for the same reason
    have hended : (tree.walk (depth + 1) p).fault ≠ none := by
      rw [hwalk]
      intro hnone
      have hentry := Trail.through_fault_eq_none_iff.1 hnone (p.child name) (List.mem_map_of_mem hname)
      rw [visit_of_enters henters, hfault] at hentry
      cases hentry
    obtain ⟨fault, hsome⟩ := Option.ne_none_iff_exists'.1 hended
    rw [hsome, (hr.walk_sound hp (depth + 1)).2 fault hsome]

end FileTree

end SymbolSearch
