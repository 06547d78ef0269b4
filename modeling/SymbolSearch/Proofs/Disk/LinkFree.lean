import SymbolSearch.Proofs.Disk
import SymbolSearch.Proofs.Disk.Resolution

/-!
# Paths along which no link stands

Replacing the links of a path ends unless too many of them are inside each other, and unless a link leads back to itself no link is
left on the path that is found (`exists_resolveFrom`). Names along which no link stands lead along a way or nowhere
(`leads_or_refused`). Names behind a path whose links are replaced stay as they are where nothing stands on the disk, so such a path
keeps its place below the other (`canonical_extend`).
-/

namespace SymbolSearch.Disk

variable {disk : Disk} {workingDir : Place} {depth : Nat} {met : List (Path × Option Path)} {here p : Path} {name : Text}
  {names front back : List Text} {found : Resolution} {way : Way}

/-! ## Names behind a path -/

/-- Names that a path keeps are read from their written form. -/
theorem ofText_joinWith (hn : ∀ name ∈ names, Path.isKept name = true ∧ '/' ∉ name) :
    Path.ofText (Text.joinWith ['/'] names) = ⟨.relative, names⟩ := by
  have hwritten : Path.IsWritten ⟨.slash, names⟩ := hn
  have hhead := Path.head?_joinWith hwritten
  have hroot : Path.rootOf (Text.joinWith ['/'] names) = .relative := by
    cases hjoin : Text.joinWith ['/'] names with
    | nil => rfl
    | cons c rest =>
      have hc : c ≠ '/' := by
        rintro rfl
        rw [hjoin] at hhead
        exact hhead rfl
      unfold Path.rootOf
      split <;> simp_all
  have hsplit : (Text.splitOn '/' (Text.joinWith ['/'] names)).filter Path.isKept = names := by
    by_cases hne : names = []
    · rw [hne]
      rfl
    · rw [Text.splitOn_joinWith hne fun name hname => (hn name hname).2, List.filter_eq_self]
      exact fun name hname => (hn name hname).1
  rw [Path.ofText, hroot, hsplit]

/-- Names that a path keeps are put behind it one after the other. -/
theorem putBehind_eq_extend (p : Path) (hn : ∀ name ∈ names, Path.isKept name = true ∧ '/' ∉ name) :
    putBehind p names = p.extend names := by
  rw [putBehind, ofText_joinWith hn]
  rfl

/-- Names that a path keeps can be put behind it in two parts. -/
theorem putBehind_append (p : Path) (hn : ∀ name ∈ front ++ back, Path.isKept name = true ∧ '/' ∉ name) :
    putBehind p (front ++ back) = (putBehind p front).extend back := by
  rw [putBehind_eq_extend p hn, putBehind_eq_extend p fun name hname => hn name (List.mem_append_left _ hname),
    Path.extend_extend]

/-- What stands behind names is resolved where they lead to; behind a link that leads back to itself it is taken as written. -/
theorem resolveFrom_append (hn : ∀ name ∈ front ++ back, Path.isKept name = true ∧ '/' ∉ name)
    (h : disk.resolveFrom workingDir depth met here front = .ok found) :
    disk.resolveFrom workingDir depth met here (front ++ back) =
      if found.cut then .ok { found with path := found.path.extend back }
      else disk.resolveFrom workingDir depth found.met found.path back := by
  fun_induction resolveFrom disk workingDir depth met here front generalizing found with
  | case1 depth met here =>
    cases h
    rfl
  | case2 depth met here name rest hkept ih =>
    rw [List.cons_append, resolveFrom, if_pos hkept]
    exact ih (fun other hother => hn other (List.mem_cons_of_mem _ hother)) h
  | case3 depth met here rest hkept ih =>
    rw [List.cons_append, resolveFrom, if_neg hkept, if_pos rfl]
    exact ih (fun other hother => hn other (List.mem_cons_of_mem _ hother)) h
  | case4 => cases h
  | case5 depth met here name rest hkept hname hnul next target hentry there hmet =>
    rename_i ih
    refine (resolveFrom_known (by simpa using hkept) hname (by simpa using hnul) hentry hmet (rest ++ back)).trans ?_
    exact ih (fun other hother => hn other (List.mem_cons_of_mem _ hother)) h
  | case6 depth met here name rest hkept hname hnul next target hentry =>
    rename_i hmet
    cases h
    refine (resolveFrom_cut (by simpa using hkept) hname (by simpa using hnul) hentry hmet (rest ++ back)).trans ?_
    rw [putBehind_append _ fun other hother => hn other (List.mem_cons_of_mem _ hother)]
    rfl
  | case7 => cases h
  | case8 met here name rest hkept hname hnul next target hentry hmet depth start =>
    rename_i ihTarget ihRest
    have hrest : ∀ other ∈ rest ++ back, Path.isKept other = true ∧ '/' ∉ other :=
      fun other hother => hn other (List.mem_cons_of_mem _ hother)
    obtain ⟨inner, hinner, h⟩ := bind_eq_ok_iff.1 h
    refine (resolveFrom_inner (by simpa using hkept) hname (by simpa using hnul) hentry hmet hinner (rest ++ back)).trans ?_
    by_cases hcut : inner.cut = true
    · rw [if_pos hcut] at h ⊢
      cases h
      rw [if_pos hcut, putBehind_append _ hrest]
    · rw [if_neg hcut] at h ⊢
      exact ihRest inner hrest h
  | case9 depth met here name rest hkept hname hnul next hentry =>
    rename_i ih
    refine (resolveFrom_stay (by simpa using hkept) hname (by simpa using hnul) hentry (rest ++ back)).trans ?_
    exact ih (fun other hother => hn other (List.mem_cons_of_mem _ hother)) h

/-! ## Paths along which no link stands -/

/-- A path from the root, without double dots, along which no link stands. -/
structure LinkFree (disk : Disk) (p : Path) : Prop where
  root : p.root = .slash
  written : p.IsWritten
  nulFree : ∀ name ∈ p.names, '\x00' ∉ name
  downward : Path.parentName ∉ p.names
  linkless : ∀ place, place <+: p.names → disk.linkAt? [] ⟨.slash, place⟩ = none

theorem LinkFree.isProper (h : LinkFree disk p) : IsProper p := by
  refine ⟨?_, h.written, h.nulFree⟩
  rw [Path.isAbsolute, h.root]
  rfl

/-- What names without a NUL character are put behind a path can be followed as well. -/
theorem IsProper.putBehind (h : IsProper p) (hn : ∀ name ∈ names, '\x00' ∉ name) : IsProper (putBehind p names) := by
  have hwritten := Path.isWritten_ofText (Text.joinWith ['/'] names)
  have hnul : ∀ name ∈ (Path.ofText (Text.joinWith ['/'] names)).names, '\x00' ∉ name := by
    intro name hname hmem
    have hpart : name <:+: Text.joinWith ['/'] names := Text.infix_of_mem_splitOn (List.mem_filter.1 hname).1
    rcases Text.of_mem_joinWith (hpart.subset hmem) with hslash | ⟨other, hother, hmem⟩
    · simp at hslash
    · exact hn other hother hmem
  unfold Disk.putBehind Path.join
  split
  · rename_i habsolute
    exact ⟨habsolute, hwritten, hnul⟩
  · refine ⟨h.absolute, fun name hname => ?_, fun name hname => ?_⟩
    · rcases List.mem_append.1 hname with hname | hname
      · exact h.written name hname
      · exact hwritten name hname
    · rcases List.mem_append.1 hname with hname | hname
      · exact h.nulFree name hname
      · exact hnul name hname

theorem LinkFree.start (disk : Disk) : LinkFree disk ⟨.slash, []⟩ := by
  refine ⟨rfl, fun _ hname => absurd hname List.not_mem_nil, fun _ hname => absurd hname List.not_mem_nil, List.not_mem_nil, ?_⟩
  intro place hplace
  rw [List.prefix_nil.1 hplace, linkAt?, show disk.start? [] (Path.mk .slash []).isAbsolute = some [] from rfl]
  simp only [Option.bind_eq_bind, Option.bind_some, follow, Except.toOption]
  rfl

/-- A path above one without links has none either. -/
theorem LinkFree.of_prefix (h : LinkFree disk p) {names : List Text} (hn : names <+: p.names) : LinkFree disk ⟨.slash, names⟩ :=
  ⟨rfl, fun name hname => h.written name (hn.subset hname), fun name hname => h.nulFree name (hn.subset hname),
    fun hmem => h.downward (hn.subset hmem), fun place hplace => h.linkless place (hplace.trans hn)⟩

theorem LinkFree.up (h : LinkFree disk p) : LinkFree disk p.up := by
  obtain ⟨root, names⟩ := p
  obtain rfl : root = .slash := h.root
  have hup : Path.up ⟨.slash, names⟩ = ⟨.slash, names.dropLast⟩ := by
    rcases List.eq_nil_or_concat names with rfl | ⟨before, last, rfl⟩
    · rfl
    · have hlast : last ≠ Path.parentName := by
        rintro rfl
        exact h.downward (by simp)
      simp [Path.up, Path.addName, hlast]
  rw [hup]
  exact h.of_prefix (List.dropLast_prefix names)

/-- A path of one more name, at which no link stands. -/
theorem LinkFree.child (h : LinkFree disk p) (hkept : Path.isKept name = true) (hname : name ≠ Path.parentName)
    (hslash : '/' ∉ name) (hnul : '\x00' ∉ name) (hentry : disk.linkAt? [] ⟨.slash, p.names ++ [name]⟩ = none) :
    LinkFree disk (p.child name) := by
  refine ⟨h.root, fun other hother => ?_, fun other hother => ?_, fun hmem => ?_, fun place hplace => ?_⟩
  · rcases List.mem_append.1 hother with hother | hother
    · exact h.written other hother
    · rw [List.mem_singleton.1 hother]
      exact ⟨hkept, hslash⟩
  · rcases List.mem_append.1 hother with hother | hother
    · exact h.nulFree other hother
    · rw [List.mem_singleton.1 hother]
      exact hnul
  · rcases List.mem_append.1 hmem with hmem | hmem
    · exact h.downward hmem
    · exact hname (List.mem_singleton.1 hmem).symm
  · rcases List.prefix_concat_iff.1 hplace with rfl | hplace
    · exact hentry
    · exact h.linkless place hplace

/-- A link is looked for at a path below one without links from the root on, whatever the working directory is. -/
theorem LinkFree.linkAt?_child (h : LinkFree disk p) (workingDir : Place) (name : Text) :
    disk.linkAt? workingDir (p.child name) = disk.linkAt? [] ⟨.slash, p.names ++ [name]⟩ := by
  obtain ⟨root, names⟩ := p
  obtain rfl : root = .slash := h.root
  rfl

/-- Names along which no link stands lead along a way without taking one, or they are refused, and so is what stands behind them. -/
theorem leads_or_refused (hw : IsWay disk way) (hn : ∀ name ∈ names, Path.isKept name = true ∧ name ≠ Path.parentName)
    (hl : ∀ front, front <+: names → disk.linkAt? [] ⟨.slash, namesOf way ++ front⟩ = none) :
    (∃ after, Leads disk way names after 0 ∧ namesOf after = namesOf way ++ names) ∨
      ∃ e, e ≠ .tooManyLinks ∧ ∀ followLast budget back, disk.follow followLast budget way (names ++ back) = .error e := by
  induction names generalizing way with
  | nil => exact Or.inl ⟨way, .done way, (List.append_nil _).symm⟩
  | cons name rest ih =>
    obtain ⟨hkept, hname⟩ := hn name List.mem_cons_self
    have hadmits := admits_of_isKept hkept (disk.endOf way)
    by_cases hsearch : (disk.endOf way).isSearchable = true
    · have hdir := Entry.isDirectory_of_isSearchable hsearch
      by_cases hlong : nameLimit < Utf8.size name
      · refine Or.inr ⟨.nameTooLong, nofun, fun followLast budget back => ?_⟩
        rw [List.cons_append, follow]
        simp only [hdir, hadmits, hsearch, hkept, hname, hlong, Bool.not_true, Bool.false_eq_true, if_false, if_true]
      · cases hentry : (disk.endOf way).child? name with
        | none =>
          refine Or.inr ⟨.notFound, nofun, fun followLast budget back => ?_⟩
          rw [List.cons_append, follow]
          simp only [hdir, hadmits, hsearch, hkept, hname, hlong, hentry, Bool.not_true, Bool.false_eq_true, if_false]
        | some entry =>
          have hlink : entry.isLink = false := by
            cases entry with
            | file content stamp denied => rfl
            | directory access children => rfl
            | link target =>
              have hfound : disk.linkAt? [] ⟨.slash, namesOf way ++ [name]⟩ = some target := hw.linkAt?_link hsearch hentry
              rw [hl [name] (by simp)] at hfound
              cases hfound
          have hsize : Utf8.size name ≤ nameLimit := Nat.not_lt.1 hlong
          have hbelow : ∀ front, front <+: rest →
              disk.linkAt? [] ⟨.slash, namesOf ((name, entry) :: way) ++ front⟩ = none := by
            intro front hfront
            rw [namesOf_cons, List.append_assoc]
            exact hl (name :: front) (List.cons_prefix_cons.2 ⟨rfl, hfront⟩)
          rcases ih (hw.child hsearch hentry hlink) (fun other hother => hn other (List.mem_cons_of_mem _ hother)) hbelow with
            ⟨after, hleads, hnames⟩ | ⟨e, hmany, hrefused⟩
          · refine Or.inl ⟨after, .enter hkept hname hsize hsearch hentry hlink hleads, ?_⟩
            rw [hnames, namesOf_cons, List.append_assoc]
            rfl
          · refine Or.inr ⟨e, hmany, fun followLast budget back => ?_⟩
            rw [List.cons_append, follow_enter hkept hname hsize hsearch hentry hlink]
            exact hrefused followLast budget back
    · have hclosed : (disk.endOf way).isSearchable = false := by simpa using hsearch
      by_cases hdir : (disk.endOf way).isDirectory = true
      · refine Or.inr ⟨.denied, nofun, fun followLast budget back => ?_⟩
        rw [List.cons_append, follow]
        simp only [hdir, hadmits, hclosed, Bool.not_true, Bool.not_false, Bool.false_eq_true, if_false, if_true]
      · refine Or.inr ⟨.notDirectory, nofun, fun followLast budget back => ?_⟩
        rw [List.cons_append, follow, if_pos (by simpa using hdir)]

/-- The names of a path without links lead along a way, or they are refused. -/
theorem LinkFree.leads_or_refused (h : LinkFree disk p) :
    (∃ way, Leads disk [] p.names way 0 ∧ namesOf way = p.names) ∨
      ∃ e, e ≠ .tooManyLinks ∧ ∀ followLast budget back, disk.follow followLast budget [] (p.names ++ back) = .error e := by
  refine Disk.leads_or_refused .root (fun name hname => ⟨(h.written name hname).1, ?_⟩) h.linkless
  rintro rfl
  exact h.downward hname

/-- A link that is found below a path without links stands there on the disk. -/
theorem LinkFree.entry?_of_linkAt? (h : LinkFree disk p) {target : Text} (hkept : Path.isKept name = true)
    (hname : name ≠ Path.parentName) (hlink : disk.linkAt? workingDir (p.child name) = some target) :
    disk.entry? (p.names ++ [name]) = some (.link target) := by
  obtain ⟨root, names⟩ := p
  obtain rfl : root = .slash := h.root
  rcases h.leads_or_refused with ⟨way, hleads, hnames⟩ | ⟨e, -, hrefused⟩
  · obtain rfl : namesOf way = names := hnames
    have hway := hleads.isWay .root
    rw [hway.linkAt?_child] at hlink
    obtain ⟨after, hfollow, htarget⟩ := Option.bind_eq_some_iff.1 hlink
    rw [hway.entry?_child]
    rw [follow] at hfollow
    simp only [hkept, hname, Bool.not_true, Bool.false_eq_true, if_false, follow] at hfollow
    split at hfollow
    · cases hfollow
    · split at hfollow
      · cases hfollow
      · split at hfollow
        · cases hfollow
        · cases hentry : (disk.endOf way).child? name with
          | none =>
            rw [hentry] at hfollow
            cases hfollow
          | some entry =>
            rw [hentry] at hfollow
            cases entry with
            | link other =>
              cases hfollow
              cases htarget
              rfl
            | file content stamp denied =>
              cases hfollow
              cases htarget
            | directory access children =>
              cases hfollow
              cases htarget
  · simp only [linkAt?, Path.child, show disk.start? workingDir (Path.mk .slash (names ++ [name])).isAbsolute = some [] from rfl,
      Option.bind_eq_bind, Option.bind_some, hrefused] at hlink
    cases hlink

/-! ## Replacing links -/

/-- What stands in a sound entry is sound. -/
theorem isSound_at? {entry inner : Entry} {place : Place} (hs : entry.isSound = true) (h : entry.at? place = some inner) :
    inner.isSound = true := by
  induction place generalizing entry with
  | nil =>
    cases h
    exact hs
  | cons name rest ih =>
    rw [Entry.at?] at h
    cases hc : entry.child? name with
    | none =>
      rw [hc] at h
      cases h
    | some child =>
      rw [hc] at h
      exact ih (Entry.isSound_child hs hc).2 h

/-- The links that have been replaced so far lead to paths along which no link stands. -/
def Settled (disk : Disk) (met : List (Path × Option Path)) : Prop :=
  ∀ q there, met.lookup q = some (some there) → LinkFree disk there

theorem Settled.openLink (h : Settled disk met) (p : Path) : Settled disk ((p, none) :: met) := by
  intro q there hlookup
  rw [List.lookup_cons] at hlookup
  split at hlookup
  · cases hlookup
  · exact h q there hlookup

theorem Settled.closeLink (h : Settled disk met) (hh : LinkFree disk here) (p : Path) :
    Settled disk ((p, some here) :: met) := by
  intro q there hlookup
  rw [List.lookup_cons] at hlookup
  split at hlookup
  · cases hlookup
    exact hh
  · exact h q there hlookup

/-- Replacing the links that names meet comes to its end, at a path that can be followed, unless too many of them are inside each
other. Unless a link leads back to itself, no link is left on it. -/
theorem exists_resolveFrom (hn : ∀ name ∈ names, '/' ∉ name ∧ '\x00' ∉ name)
    (hh : LinkFree disk here) (hm : Settled disk met) :
    disk.resolveFrom workingDir depth met here names = .error .nestedTooDeep ∨
      ∃ found, disk.resolveFrom workingDir depth met here names = .ok found ∧ IsProper found.path ∧
        (found.cut = false → LinkFree disk found.path ∧ Settled disk found.met) := by
  fun_induction resolveFrom disk workingDir depth met here names with
  | case1 depth met here => exact Or.inr ⟨_, rfl, hh.isProper, fun _ => ⟨hh, hm⟩⟩
  | case2 depth met here name rest hkept ih => exact ih (fun other hother => hn other (List.mem_cons_of_mem _ hother)) hh hm
  | case3 depth met here rest hkept ih => exact ih (fun other hother => hn other (List.mem_cons_of_mem _ hother)) hh.up hm
  | case4 depth met here name rest hkept hname hnul => exact absurd (by simpa using hnul) (hn name List.mem_cons_self).2
  | case5 depth met here name rest hkept hname hnul next target hentry there hmet =>
    rename_i ih
    exact ih (fun other hother => hn other (List.mem_cons_of_mem _ hother)) (hm _ _ hmet) hm
  | case6 depth met here name rest hkept hname hnul next target hentry =>
    have hrest : ∀ other ∈ rest, '\x00' ∉ other := fun other hother => (hn other (List.mem_cons_of_mem _ hother)).2
    have hproper := (hh.isProper.child (by simpa using hkept) (hn name List.mem_cons_self)).putBehind hrest
    exact Or.inr ⟨_, rfl, hproper, fun hcut => by cases hcut⟩
  | case7 => exact Or.inl rfl
  | case8 met here name rest hkept hname hnul next target hentry hmet depth start =>
    rename_i ihTarget ihRest
    have htop : disk.top.isSound = true := disk.sound
    have hsound : (Entry.link target).isSound = true :=
      isSound_at? htop (hh.entry?_of_linkAt? (by simpa using hkept) hname hentry)
    have hstart : LinkFree disk start := by
      unfold start
      split
      · exact .start disk
      · exact hh
    rcases ihTarget (fun _ => of_mem_steps_of_isSound hsound) hstart (hm.openLink next) with
      hdeep | ⟨inner, hinner, hproper, hfree⟩
    · rw [hdeep]
      exact Or.inl rfl
    · rw [hinner]
      by_cases hcut : inner.cut = true
      · have hrest : ∀ other ∈ rest, '\x00' ∉ other := fun other hother => (hn other (List.mem_cons_of_mem _ hother)).2
        refine Or.inr ⟨{ inner with path := putBehind inner.path rest }, if_pos hcut, hproper.putBehind hrest, fun hends => ?_⟩
        rw [hends] at hcut
        cases hcut
      · obtain ⟨hpath, hmet⟩ := hfree (by simpa using hcut)
        refine (ihRest inner (fun other hother => hn other (List.mem_cons_of_mem _ hother)) hpath (hmet.closeLink hpath next)).imp
          (fun hdeep => (if_neg hcut).trans hdeep) ?_
        rintro ⟨found, hfound, hends⟩
        exact ⟨found, (if_neg hcut).trans hfound, hends⟩
  | case9 depth met here name rest hkept hname hnul next hentry =>
    rename_i ih
    have hnamed := hn name List.mem_cons_self
    refine ih (fun other hother => hn other (List.mem_cons_of_mem _ hother)) ?_ hm
    refine hh.child (by simpa using hkept) hname hnamed.1 hnamed.2 ?_
    rw [← hh.linkAt?_child]
    exact hentry

/-- The links of an absolute path are replaced name by name from the root. -/
theorem resolve_text (hp : IsProper p) (depth : Nat) (workingDir : Place) :
    disk.resolve depth workingDir p.text = disk.resolveFrom workingDir depth [] ⟨.slash, []⟩ p.names := by
  obtain ⟨blanks, hsteps, hblanks⟩ := Path.steps_text hp.absolute hp.written
  have hfrom : isFromRoot p.text = true := by rw [isFromRoot, Path.ofText_text hp.absolute hp.written, hp.absolute]
  have hskip : ∀ blanks : List Text, (∀ blank ∈ blanks, blank = []) →
      disk.resolveFrom workingDir depth [] ⟨.slash, []⟩ (blanks ++ p.names) =
        disk.resolveFrom workingDir depth [] ⟨.slash, []⟩ p.names := by
    intro blanks hblanks
    induction blanks with
    | nil => rfl
    | cons blank rest ih =>
      obtain rfl := hblanks blank List.mem_cons_self
      have hkept : Path.isKept [] = false := rfl
      rw [List.cons_append, resolveFrom]
      simp only [hkept, Bool.not_false, if_true]
      exact ih fun other hother => hblanks other (List.mem_cons_of_mem _ hother)
  simp only [resolve, hfrom, if_true, hsteps]
  exact hskip blanks hblanks

/-- The links of a path that can be followed are replaced, unless too many of them are inside each other. -/
theorem exists_resolve (hp : IsProper p) (depth : Nat) (workingDir : Place) :
    disk.resolve depth workingDir p.text = .error .nestedTooDeep ∨
      ∃ found, disk.resolve depth workingDir p.text = .ok found ∧ IsProper found.path ∧
        (found.cut = false → LinkFree disk found.path) := by
  rw [resolve_text hp]
  have hnone : ∀ q there, List.lookup q ([] : List (Path × Option Path)) = some (some there) → LinkFree disk there := by
    intro q there hlookup
    cases hlookup
  have hnames : ∀ name ∈ p.names, '/' ∉ name ∧ '\x00' ∉ name :=
    fun name hname => ⟨(hp.written name hname).2, hp.nulFree name hname⟩
  refine (exists_resolveFrom hnames (.start disk) hnone).imp_right ?_
  rintro ⟨found, hfound, hproper, hfree⟩
  exact ⟨found, hfound, hproper, fun hcut => (hfree hcut).1⟩

/-- A path without links is never refused for its links, nor for a NUL character. -/
theorem LinkFree.stat (h : LinkFree disk p) (workingDir : Place) :
    disk.stat workingDir p.text ≠ .error .tooManyLinks ∧ disk.stat workingDir p.text ≠ .error .nulCharacter := by
  have hnul := h.isProper.nul_not_mem
  constructor
  · intro hmany
    rw [Disk.stat, map_eq_error_iff, locate_text h.isProper] at hmany
    split at hmany
    · cases hmany
    · rcases h.leads_or_refused with ⟨way, hleads, -⟩ | ⟨e, hne, hrefused⟩
      · rw [follow_of_leads hleads, if_pos (Nat.zero_le _)] at hmany
        cases hmany
      · have hfollow := hrefused true linkLimit []
        rw [List.append_nil, hmany, Except.error.injEq] at hfollow
        exact hne hfollow.symm
  · rw [Ne, stat_error_nul_iff]
    exact hnul

/-- A path on which no link is left stands for what it was made from. -/
theorem canonical_of_resolve {s : Text} (hr : disk.resolve depth workingDir s = .ok found) (hf : LinkFree disk found.path) :
    disk.canonical depth workingDir s = .ok found.path := by
  have hpath : Path.ofText (Path.absolute (Path.text ⟨.slash, workingDir⟩) found.path.text) = found.path := by
    rw [Path.ofText_absolute hf.isProper.absolute hf.written, Path.normalNames_eq_self hf.downward]
  obtain ⟨hmany, hnul⟩ := hf.stat workingDir
  -- both errors that the disk would report are excluded
  simp only [canonical, hr, bind, Except.bind, hpath]

/-- The way of a path that can be followed is refused only for links that lead back to themselves, or for too many of them inside
each other. -/
theorem canonical_error (hp : IsProper p) {fault : Fault} (h : disk.canonical depth workingDir p.text = .error fault) :
    fault = .linkLoop ∨ fault = .nestedTooDeep := by
  rcases exists_resolve hp depth workingDir with hdeep | ⟨found, hfound, hproper, -⟩
  · rw [canonical, hdeep] at h
    cases h
    exact Or.inr rfl
  · rw [canonical, hfound] at h
    simp only [bind, Except.bind, Path.ofText_absolute hproper.absolute hproper.written] at h
    split at h
    · cases h
      exact Or.inl rfl
    · rename_i hnul
      have hnormal : IsProper ⟨found.path.root, Path.normalNames true found.path.names⟩ :=
        ⟨hproper.absolute, fun name hname => hproper.written name (Path.mem_of_mem_normalNames hname),
          fun name hname => hproper.nulFree name (Path.mem_of_mem_normalNames hname)⟩
      exact absurd (stat_error_nul_iff.1 hnul) hnormal.nul_not_mem
    · cases h

/-- Names at which nothing stands on the disk are put behind a path without links one after the other. -/
theorem resolveFrom_absent (hh : LinkFree disk here) (hb : ∀ names, names ≠ [] → disk.entry? (here.names ++ names) = none)
    (hn : ∀ name ∈ names, Path.isKept name = true ∧ name ≠ Path.parentName ∧ '/' ∉ name ∧ '\x00' ∉ name)
    (workingDir : Place) (depth : Nat) (met : List (Path × Option Path)) :
    LinkFree disk (here.extend names) ∧
      disk.resolveFrom workingDir depth met here names = .ok ⟨here.extend names, false, met⟩ := by
  induction names generalizing here with
  | nil =>
    rw [Path.extend_nil, resolveFrom]
    exact ⟨hh, rfl⟩
  | cons name rest ih =>
    obtain ⟨hkept, hname, hslash, hnul⟩ := hn name List.mem_cons_self
    have hstays : disk.linkAt? workingDir (here.child name) = none := by
      rw [Option.eq_none_iff_forall_ne_some]
      intro target hlink
      have hentry := hh.entry?_of_linkAt? hkept hname hlink
      rw [hb [name] (List.cons_ne_nil _ _)] at hentry
      cases hentry
    have hnext : LinkFree disk (here.child name) := by
      refine hh.child hkept hname hslash hnul ?_
      rw [← hh.linkAt?_child workingDir, hstays]
    have hbelow : ∀ names, names ≠ [] → disk.entry? ((here.child name).names ++ names) = none := by
      intro names _
      rw [Path.child, List.append_assoc]
      exact hb _ (List.cons_ne_nil _ _)
    obtain ⟨hfree, hrest⟩ := ih hnext hbelow fun other hother => hn other (List.mem_cons_of_mem _ hother)
    rw [Path.child_extend] at hfree hrest
    refine ⟨hfree, ?_⟩
    rw [resolveFrom_stay hkept hname hnul hstays]
    exact hrest

/-- Names at which nothing stands on the disk stay as they are behind a path whose links are replaced. -/
theorem canonical_extend (hp : IsProper p) (hr : disk.resolve depth workingDir p.text = .ok found) (hc : found.cut = false)
    (hb : ∀ base, disk.canonical depth workingDir p.text = .ok base →
      ∀ names, names ≠ [] → disk.entry? (base.names ++ names) = none)
    (hn : ∀ name ∈ names, Path.isKept name = true ∧ name ≠ Path.parentName ∧ '/' ∉ name ∧ '\x00' ∉ name) :
    disk.canonical depth workingDir p.text = .ok found.path ∧
      disk.canonical depth workingDir (p.extend names).text = .ok (found.path.extend names) := by
  have hfree : LinkFree disk found.path := by
    rcases exists_resolve hp depth workingDir with hdeep | ⟨found', hfound', -, hfree⟩
    · rw [hr] at hdeep
      cases hdeep
    · rw [hr] at hfound'
      cases hfound'
      exact hfree hc
  have hcanonical := canonical_of_resolve hr hfree
  obtain ⟨hbelow, habsent⟩ := resolveFrom_absent hfree (hb _ hcanonical) hn workingDir depth found.met
  have hproper : IsProper (p.extend names) := hp.extend fun name hname => ⟨(hn name hname).1, (hn name hname).2.2⟩
  have hresolve : disk.resolve depth workingDir (p.extend names).text = .ok ⟨found.path.extend names, false, found.met⟩ := by
    rw [resolve_text hp] at hr
    rw [resolve_text hproper, Path.extend, resolveFrom_append hproper.written hr, if_neg (by simp [hc])]
    exact habsent
  exact ⟨hcanonical, canonical_of_resolve hresolve hbelow⟩

end SymbolSearch.Disk
