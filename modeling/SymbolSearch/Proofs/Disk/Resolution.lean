import SymbolSearch.Proofs.Disk.Ways

/-!
# Paths without links

Replacing the links of a path one by one comes to the way that following the path takes (`resolveFrom_of_leads`, `canonical_text`).
While a link is being replaced its target may meet further links, but never itself again: following it from there would take more
links than are left. So no link is found that leads back to itself, and no more links are inside each other than following the path
takes.
-/

namespace SymbolSearch.Disk

variable {disk : Disk} {way after : Way} {names : List Text} {n : Nat} {workingDir : Place}

/-! ## Links that are being replaced -/

/-- There is a link at the path, and following its target takes so many links and leads to the other path. -/
def LinkLeads (disk : Disk) (p : Path) (k : Nat) (q : Path) : Prop :=
  ∃ way middle name target, IsWay disk way ∧ (disk.endOf way).child? name = some (.link target) ∧
    p = ⟨.slash, namesOf way ++ [name]⟩ ∧ q = ⟨.slash, namesOf middle⟩ ∧
    Leads disk (if isFromRoot target then [] else way) (steps target) middle k

/-- Where a link leads, and by how many links, is decided by the disk. -/
theorem LinkLeads.unique {p q q' : Path} {k k' : Nat} (h : LinkLeads disk p k q) (h' : LinkLeads disk p k' q') :
    k = k' ∧ q = q' := by
  obtain ⟨way, middle, name, target, hway, hentry, rfl, rfl, hleads⟩ := h
  obtain ⟨way', middle', name', target', hway', hentry', hp, rfl, hleads'⟩ := h'
  obtain ⟨hnames, hname⟩ := List.append_inj' (congrArg Path.names hp) rfl
  cases hname
  obtain rfl := hway.ext hway' hnames
  rw [hentry] at hentry'
  cases hentry'
  obtain ⟨rfl, rfl⟩ := hleads.unique hleads'
  exact ⟨rfl, rfl⟩

/-- Links that are open while names are followed that take `n` links: each of them takes no fewer. -/
def Opened (disk : Disk) (opened : List Path) (n : Nat) : Prop :=
  ∀ p ∈ opened, ∃ k q, LinkLeads disk p k q ∧ n ≤ k

section

variable {opened : List Path} {p q : Path} {k m : Nat}

/-- Links that are open stay so for names that take fewer links. -/
theorem Opened.mono (h : Opened disk opened n) (hm : m ≤ n) : Opened disk opened m := by
  intro p hp
  obtain ⟨k, q, hlink, hn⟩ := h p hp
  exact ⟨k, q, hlink, Nat.le_trans hm hn⟩

/-- A link on the way is not open: what is open takes more links. -/
theorem Opened.not_mem (h : Opened disk opened n) (hp : LinkLeads disk p k q) (hk : k < n) : p ∉ opened := by
  intro hopen
  obtain ⟨k', q', hlink, hn⟩ := h p hopen
  have hsame := (hp.unique hlink).1
  omega

/-- A link on the way may be opened. -/
theorem Opened.cons (h : Opened disk opened n) (hp : LinkLeads disk p k q) (hk : k < n) : Opened disk (p :: opened) k := by
  intro other hother
  rcases List.mem_cons.1 hother with rfl | hother
  · exact ⟨k, q, hp, Nat.le_refl k⟩
  · exact h.mono (Nat.le_of_lt hk) other hother

end

/-- What is known of the links met so far: where those lead that have been replaced; all others are still open. -/
structure Met (disk : Disk) (met : List (Path × Option Path)) (opened : List Path) : Prop where
  replaced : ∀ p q, met.lookup p = some (some q) → ∃ k, LinkLeads disk p k q
  isOpen : ∀ p, met.lookup p = some none → p ∈ opened

/-- A link that is met is opened. -/
theorem Met.openLink {met : List (Path × Option Path)} {opened : List Path} (h : Met disk met opened) (p : Path) :
    Met disk ((p, none) :: met) (p :: opened) := by
  constructor
  · intro other q hlookup
    rw [List.lookup_cons] at hlookup
    split at hlookup
    · cases hlookup
    · exact h.replaced other q hlookup
  · intro other hlookup
    rw [List.lookup_cons] at hlookup
    split at hlookup
    · rename_i heq
      rw [eq_of_beq heq]
      exact List.mem_cons_self
    · exact List.mem_cons_of_mem _ (h.isOpen other hlookup)

/-- A link whose target has been found is closed. -/
theorem Met.closeLink {met : List (Path × Option Path)} {opened : List Path} {p q : Path} {k : Nat}
    (h : Met disk met (p :: opened)) (hp : LinkLeads disk p k q) : Met disk ((p, some q) :: met) opened := by
  constructor
  · intro other q' hlookup
    rw [List.lookup_cons] at hlookup
    split at hlookup
    · rename_i heq
      cases hlookup
      rw [eq_of_beq heq]
      exact ⟨k, hp⟩
    · exact h.replaced other q' hlookup
  · intro other hlookup
    rw [List.lookup_cons] at hlookup
    split at hlookup
    · cases hlookup
    · rename_i hne
      rcases List.mem_cons.1 (h.isOpen other hlookup) with rfl | hmem
      · simp at hne
      · exact hmem

/-! ## Replacing all links -/

/-- The path above the one along a way. -/
theorem up_namesOf (hw : IsWay disk way) : Path.up ⟨.slash, namesOf way⟩ = ⟨.slash, namesOf way.tail⟩ := by
  cases hw with
  | root => rfl
  | @child way name entry hway hsearch hentry hlink =>
    have hname : name ≠ Path.parentName := (isName_iff.1 (Entry.isSound_child hway.isSound.2 hentry).1).2.1
    simp only [Path.up, namesOf, List.map_cons, List.reverse_reverse, Path.addName, if_true, hname, if_false, List.tail_cons]

/-- A path below the one along a way is followed to where that one leads first. -/
theorem IsWay.linkAt?_child (hw : IsWay disk way) (name : Text) :
    disk.linkAt? workingDir (Path.child ⟨.slash, namesOf way⟩ name) =
      (disk.follow false linkLimit way [name]).toOption.bind fun after => (disk.endOf after).target? := by
  have hfollow : disk.follow false linkLimit [] (namesOf way ++ [name]) = disk.follow false linkLimit way [name] := by
    rw [follow_append hw.leads (Or.inl (List.cons_ne_nil _ _)), if_pos (Nat.zero_le _)]
    rfl
  have hstart : disk.start? workingDir (Path.child ⟨.slash, namesOf way⟩ name).isAbsolute = some [] := rfl
  rw [linkAt?, hstart, Path.child, ← hfollow]
  rfl

/-- A link that a name leads to is found at the path. -/
theorem IsWay.linkAt?_link (hw : IsWay disk way) {name target : Text} (hsearch : (disk.endOf way).isSearchable = true)
    (hentry : (disk.endOf way).child? name = some (.link target)) :
    disk.linkAt? workingDir (Path.child ⟨.slash, namesOf way⟩ name) = some target := by
  obtain ⟨hkept, hname, -, -, hsize⟩ := isName_iff.1 (Entry.isSound_child hw.isSound.2 hentry).1
  have hadmits : admits (disk.endOf way) name = true := by rw [admits_of_isKept hkept, hsearch]
  have hfollow : disk.follow false linkLimit way [name] = .ok ((name, .link target) :: way) := by
    rw [follow]
    simp only [Entry.isDirectory_of_child? hentry, hadmits, hkept, hname, Nat.not_lt.2 hsize, hentry, List.isEmpty_nil,
      Bool.not_true, Bool.not_false, Bool.and_self, Bool.false_eq_true, if_false, if_true]
  rw [hw.linkAt?_child, hfollow]
  rfl

/-- Where a name leads to no link, none is found at the path. -/
theorem IsWay.linkAt?_of_not_link (hw : IsWay disk way) {name : Text} {entry : Entry} (hsearch : (disk.endOf way).isSearchable = true)
    (hentry : (disk.endOf way).child? name = some entry) (hlink : entry.isLink = false) :
    disk.linkAt? workingDir (Path.child ⟨.slash, namesOf way⟩ name) = none := by
  obtain ⟨hkept, hname, -, -, hsize⟩ := isName_iff.1 (Entry.isSound_child hw.isSound.2 hentry).1
  have hfollow : disk.follow false linkLimit way [name] = .ok ((name, entry) :: way) := by
    rw [follow_enter hkept hname hsize hsearch hentry hlink, follow]
  rw [hw.linkAt?_child, hfollow]
  cases entry with
  | file content stamp denied => rfl
  | link target => cases hlink
  | directory access children => rfl

section

variable {here : Path} {name target : Text} {depth : Nat} {met : List (Path × Option Path)}
  (hkept : Path.isKept name = true) (hname : name ≠ Path.parentName) (hnul : '\x00' ∉ name)
include hkept hname hnul

/-- A name at which no link stands is kept in the path. -/
theorem resolveFrom_stay (hentry : disk.linkAt? workingDir (here.child name) = none) (rest : List Text) :
    disk.resolveFrom workingDir depth met here (name :: rest) =
      disk.resolveFrom workingDir depth met (here.child name) rest := by
  have hfree : List.contains name '\x00' = false := by simpa using hnul
  rw [resolveFrom]
  simp only [hkept, hname, hfree, hentry, Bool.not_true, Bool.false_eq_true, if_false]

variable (hentry : disk.linkAt? workingDir (here.child name) = some target)
include hentry

/-- A link that has been replaced before is replaced by the same path. -/
theorem resolveFrom_known {there : Path} (hmet : met.lookup (here.child name) = some (some there)) (rest : List Text) :
    disk.resolveFrom workingDir depth met here (name :: rest) = disk.resolveFrom workingDir depth met there rest := by
  have hfree : List.contains name '\x00' = false := by simpa using hnul
  rw [resolveFrom]
  simp only [hkept, hname, hfree, Bool.not_true, Bool.false_eq_true, if_false, hentry, hmet]

/-- At a link that leads back to itself, the rest is taken as written. -/
theorem resolveFrom_cut (hmet : met.lookup (here.child name) = some none) (rest : List Text) :
    disk.resolveFrom workingDir depth met here (name :: rest) = .ok ⟨putBehind (here.child name) rest, true, met⟩ := by
  have hfree : List.contains name '\x00' = false := by simpa using hnul
  rw [resolveFrom]
  simp only [hkept, hname, hfree, Bool.not_true, Bool.false_eq_true, if_false, hentry, hmet]

/-- A link that has not been met is replaced by what its target is resolved to. -/
theorem resolveFrom_inner {inner : Resolution} (hmet : met.lookup (here.child name) = none)
    (hinner : disk.resolveFrom workingDir depth ((here.child name, none) :: met)
      (if isFromRoot target then ⟨.slash, []⟩ else here) (steps target) = .ok inner) (rest : List Text) :
    disk.resolveFrom workingDir (depth + 1) met here (name :: rest) =
      if inner.cut then .ok { inner with path := putBehind inner.path rest }
      else disk.resolveFrom workingDir (depth + 1) ((here.child name, some inner.path) :: inner.met) inner.path rest := by
  have hfree : List.contains name '\x00' = false := by simpa using hnul
  rw [resolveFrom]
  simp only [hkept, hname, hfree, Bool.not_true, Bool.false_eq_true, if_false, hentry, hmet, hinner]
  rfl

end

/-- The names that a link of a sound disk leads along can be written. -/
theorem of_mem_steps_of_isSound {target name : Text} (h : (Entry.link target).isSound = true) (hname : name ∈ steps target) :
    '/' ∉ name ∧ '\x00' ∉ name := by
  have hfree : '\x00' ∉ target := by simpa [Entry.isSound] using h
  exact ⟨Text.not_mem_of_mem_splitOn hname, fun hmem => hfree ((Text.infix_of_mem_splitOn hname).subset hmem)⟩

/-- Names that lead somewhere are resolved to the names along the way there: none of the links that are still open is met again, and
no more links are inside each other than the names take. -/
theorem resolveFrom_of_leads (h : Leads disk way names after n) (hw : IsWay disk way) (hnul : ∀ name ∈ names, '\x00' ∉ name)
    {depth : Nat} {met : List (Path × Option Path)} {opened : List Path} (hmet : Met disk met opened) (ho : Opened disk opened n)
    (hdepth : n ≤ depth) :
    ∃ met', disk.resolveFrom workingDir depth met ⟨.slash, namesOf way⟩ names =
        .ok ⟨⟨.slash, namesOf after⟩, false, met'⟩ ∧ Met disk met' opened := by
  induction h generalizing depth met opened with
  | done way =>
    rw [resolveFrom]
    exact ⟨met, rfl, hmet⟩
  | skip hdir hadmits hname hrest ih =>
    rw [resolveFrom]
    simp only [hname, Bool.not_false, if_true]
    exact ih hw (fun other hother => hnul other (List.mem_cons_of_mem _ hother)) hmet ho hdepth
  | up hsearch hrest ih =>
    have hkept : Path.isKept Path.parentName = true := by decide
    rw [resolveFrom]
    simp only [hkept, Bool.not_true, Bool.false_eq_true, if_false, if_true, up_namesOf hw]
    exact ih hw.tail (fun other hother => hnul other (List.mem_cons_of_mem _ hother)) hmet ho hdepth
  | @enter way after name entry rest n hkept hname hsize hsearch hentry hlink hrest ih =>
    rw [resolveFrom_stay hkept hname (hnul name List.mem_cons_self) (hw.linkAt?_of_not_link hsearch hentry hlink), Path.child,
      ← namesOf_cons name entry]
    exact ih (hw.child hsearch hentry hlink) (fun other hother => hnul other (List.mem_cons_of_mem _ hother)) hmet ho hdepth
  | @through way middle after name target rest k m hkept hname hsize hsearch hentry htarget hrest ihTarget ihRest =>
    have hfree := hnul name List.mem_cons_self
    have hnulRest : ∀ other ∈ rest, '\x00' ∉ other := fun other hother => hnul other (List.mem_cons_of_mem _ hother)
    have hstart := hw.start target
    have hmiddle : IsWay disk middle := htarget.isWay hstart
    have hplace : disk.linkAt? workingDir (Path.child ⟨.slash, namesOf way⟩ name) = some target :=
      hw.linkAt?_link hsearch hentry
    have hlink : LinkLeads disk ⟨.slash, namesOf way ++ [name]⟩ k ⟨.slash, namesOf middle⟩ :=
      ⟨way, middle, name, target, hw, hentry, rfl, rfl, htarget⟩
    have hfewer : k < k + m + 1 := by omega
    have hoRest : Opened disk opened m := ho.mono (by omega)
    cases hknown : met.lookup ⟨.slash, namesOf way ++ [name]⟩ with
    | some found =>
      cases found with
      | none => exact absurd (hmet.isOpen _ hknown) (ho.not_mem hlink hfewer)
      | some q =>
        obtain ⟨k', hlink'⟩ := hmet.replaced _ _ hknown
        obtain rfl := (hlink.unique hlink').2
        rw [resolveFrom_known hkept hname hfree hplace hknown]
        exact ihRest hmiddle hnulRest hmet hoRest (by omega)
    | none =>
      have hsound : (Entry.link target).isSound = true := (Entry.isSound_child hw.isSound.2 hentry).2
      have hnulTarget : ∀ other ∈ steps target, '\x00' ∉ other := fun other hother => (of_mem_steps_of_isSound hsound hother).2
      obtain ⟨depth, rfl⟩ : ∃ d, depth = d + 1 := ⟨depth - 1, by omega⟩
      obtain ⟨met', hresolved, hmet'⟩ := ihTarget hstart hnulTarget (hmet.openLink _) (ho.cons hlink hfewer)
        (show k ≤ depth by omega)
      have hfrom : (⟨.slash, namesOf (if isFromRoot target then [] else way)⟩ : Path) =
          if isFromRoot target then ⟨.slash, []⟩ else ⟨.slash, namesOf way⟩ := by
        split <;> rfl
      rw [hfrom] at hresolved
      rw [resolveFrom_inner hkept hname hfree hplace hknown hresolved, if_neg Bool.false_ne_true]
      exact ihRest hmiddle hnulRest (hmet'.closeLink hlink) hoRest (by omega)

/-- Slashes in front of names lead nowhere else. -/
theorem Leads.blanks {blanks : List Text} (hd : (disk.endOf way).isDirectory = true) (hb : ∀ blank ∈ blanks, blank = [])
    (h : Leads disk way names after n) : Leads disk way (blanks ++ names) after n := by
  induction blanks with
  | nil => exact h
  | cons blank blanks ih =>
    obtain rfl := hb blank List.mem_cons_self
    exact .skip hd rfl rfl (ih fun other hother => hb other (List.mem_cons_of_mem _ hother))

/-- The path along a way can be followed. -/
theorem IsWay.isProper (hw : IsWay disk way) : IsProper ⟨.slash, namesOf way⟩ := by
  refine ⟨rfl, fun name hname => ?_, fun name hname => ?_⟩
  · obtain ⟨hkept, -, hslash, -, -⟩ := isName_iff.1 (hw.isSound.1 name hname)
    exact ⟨hkept, hslash⟩
  · exact (isName_iff.1 (hw.isSound.1 name hname)).2.2.2.1

/-- An absolute path that leads somewhere stands, once no link is left on it, for the names along the way there. -/
theorem canonical_text {p : Path} {depth : Nat} (hp : IsProper p) (h : Leads disk [] p.names way n) (hdepth : n ≤ depth) :
    disk.canonical depth workingDir p.text = .ok ⟨.slash, namesOf way⟩ := by
  have hway : IsWay disk way := h.isWay .root
  have hresolve : ∃ met', disk.resolve depth workingDir p.text = .ok ⟨⟨.slash, namesOf way⟩, false, met'⟩ := by
    obtain ⟨blanks, hsteps, hblanks⟩ := Path.steps_text hp.absolute hp.written
    have hfrom : isFromRoot p.text = true := by rw [isFromRoot, Path.ofText_text hp.absolute hp.written, hp.absolute]
    have hnulSteps : ∀ name ∈ steps p.text, '\x00' ∉ name :=
      fun name hname hmem => hp.nul_not_mem ((Text.infix_of_mem_splitOn hname).subset hmem)
    have hleads : Leads disk [] (steps p.text) way n := by
      rw [hsteps]
      exact h.blanks rfl hblanks
    have hmet : Met disk [] [] := by
      constructor
      · intro q q' hlookup
        cases hlookup
      · intro q hlookup
        cases hlookup
    have hopened : Opened disk [] n := fun q hq => absurd hq List.not_mem_nil
    obtain ⟨met', hresolved, -⟩ := resolveFrom_of_leads hleads .root hnulSteps hmet hopened hdepth
    refine ⟨met', ?_⟩
    simp only [resolve, hfrom, if_true]
    exact hresolved
  obtain ⟨met', hresolve⟩ := hresolve
  have hparent : Path.parentName ∉ namesOf way :=
    fun hmem => (isName_iff.1 (hway.isSound.1 _ hmem)).2.1 rfl
  have hnormal : Path.ofText (Path.absolute (Path.text ⟨.slash, workingDir⟩) (Path.text ⟨.slash, namesOf way⟩)) =
      ⟨.slash, namesOf way⟩ := by
    rw [Path.ofText_absolute rfl hway.isProper.written, Path.normalNames_eq_self hparent]
  -- the path found leads to the end of the way without a link, so it is refused at most for its length
  have hstat : disk.stat workingDir (Path.text ⟨.slash, namesOf way⟩) = .error .nameTooLong ∨
      disk.stat workingDir (Path.text ⟨.slash, namesOf way⟩) = .ok (disk.endOf way) := by
    rw [stat, locate_text hway.isProper, follow_of_leads hway.leads, if_pos (Nat.zero_le _)]
    split
    · exact Or.inl rfl
    · exact Or.inr rfl
  simp only [canonical, hresolve, bind, Except.bind, hnormal]
  rcases hstat with hstat | hstat <;> rw [hstat]

end SymbolSearch.Disk
