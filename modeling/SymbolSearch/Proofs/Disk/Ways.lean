import SymbolSearch.Proofs.Disk
import SymbolSearch.Proofs.Path.Writing

/-!
# Where paths lead

Following a path goes through directories and links. `Leads` says where names lead from a way and how many links that takes; a disk
follows names exactly as long as they do not take more links than it allows (`follow_append`, `leads_of_follow`). A way that was
followed from the root holds no link, and its names lead along it without any (`IsWay.leads`).
-/

namespace SymbolSearch

/-- What a name in a directory is. -/
theorem Disk.isName_iff {name : Text} :
    isName name = true ↔ Path.isKept name = true ∧ name ≠ Path.parentName ∧ '/' ∉ name ∧ '\x00' ∉ name ∧
      Utf8.size name ≤ nameLimit := by
  simp [isName, and_assoc]

namespace Entry

variable {entry child : Entry} {name : Text}

/-- A name leads somewhere only in a directory. -/
theorem isDirectory_of_child? (h : entry.child? name = some child) : entry.isDirectory = true := by
  cases entry with
  | file content stamp denied => cases h
  | link target => cases h
  | directory access children => rfl

/-- Only a directory may be searched. -/
theorem isDirectory_of_isSearchable (h : entry.isSearchable = true) : entry.isDirectory = true := by
  cases entry with
  | file content stamp denied => cases h
  | link target => cases h
  | directory access children => rfl

/-- Names one behind the other lead where the second ones lead from where the first ones do. -/
theorem at?_append (entry : Entry) (front back : Place) : entry.at? (front ++ back) = (entry.at? front).bind (·.at? back) := by
  induction front generalizing entry with
  | nil => rfl
  | cons name rest ih =>
    rw [List.cons_append, at?, at?]
    cases entry.child? name with
    | none => rfl
    | some child => exact ih child

/-- The entry is a link. -/
def isLink : Entry → Bool
  | link _ => true
  | _ => false

end Entry

namespace Disk

/-- A name that a path keeps, or the one of the directory above, may be looked up only in a directory that may be searched. -/
theorem admits_of_isKept {name : Text} (h : Path.isKept name = true) (entry : Entry) : admits entry name = entry.isSearchable := by
  have hempty : name.isEmpty = false := by
    cases name with
    | nil => cases h
    | cons c rest => rfl
  rw [admits, hempty, Bool.false_or]

/-! ## Following names -/

/-- The names along a way, the first one first. -/
def namesOf (way : Way) : Place :=
  (way.map Prod.fst).reverse

/-- Each entry on the way stands where its name says, in a directory that may be searched, and none is a link. -/
inductive IsWay (disk : Disk) : Way → Prop where
  | root : IsWay disk []
  | child {way : Way} {name : Text} {entry : Entry} (hway : IsWay disk way) (hsearch : (disk.endOf way).isSearchable = true)
      (hentry : (disk.endOf way).child? name = some entry) (hlink : entry.isLink = false) : IsWay disk ((name, entry) :: way)

/-- Names lead from one way to another, and following them takes so many links. The names of a link's target are followed first,
then the rest. -/
inductive Leads (disk : Disk) : Way → List Text → Way → Nat → Prop where
  | done (way : Way) : Leads disk way [] way 0
  | skip {way after : Way} {name : Text} {rest : List Text} {n : Nat} (hdir : (disk.endOf way).isDirectory = true)
      (hadmits : admits (disk.endOf way) name = true) (hname : Path.isKept name = false) (hrest : Leads disk way rest after n) :
      Leads disk way (name :: rest) after n
  | up {way after : Way} {rest : List Text} {n : Nat} (hsearch : (disk.endOf way).isSearchable = true)
      (hrest : Leads disk way.tail rest after n) : Leads disk way (Path.parentName :: rest) after n
  | enter {way after : Way} {name : Text} {entry : Entry} {rest : List Text} {n : Nat} (hkept : Path.isKept name = true)
      (hname : name ≠ Path.parentName) (hsize : Utf8.size name ≤ nameLimit) (hsearch : (disk.endOf way).isSearchable = true)
      (hentry : (disk.endOf way).child? name = some entry) (hlink : entry.isLink = false)
      (hrest : Leads disk ((name, entry) :: way) rest after n) : Leads disk way (name :: rest) after n
  | through {way middle after : Way} {name target : Text} {rest : List Text} {k m : Nat} (hkept : Path.isKept name = true)
      (hname : name ≠ Path.parentName) (hsize : Utf8.size name ≤ nameLimit) (hsearch : (disk.endOf way).isSearchable = true)
      (hentry : (disk.endOf way).child? name = some (.link target))
      (htarget : Leads disk (if isFromRoot target then [] else way) (steps target) middle k)
      (hrest : Leads disk middle rest after m) : Leads disk way (name :: rest) after (k + m + 1)

variable {disk : Disk} {way middle after : Way} {names front back : List Text} {n k m : Nat}

/-- A name that leads to no link is followed by going there. -/
theorem follow_enter {name : Text} {entry : Entry} {rest : List Text} {followLast : Bool} {budget : Nat}
    (hkept : Path.isKept name = true) (hname : name ≠ Path.parentName) (hsize : Utf8.size name ≤ nameLimit)
    (hsearch : (disk.endOf way).isSearchable = true) (hentry : (disk.endOf way).child? name = some entry)
    (hlink : entry.isLink = false) :
    disk.follow followLast budget way (name :: rest) = disk.follow followLast budget ((name, entry) :: way) rest := by
  have hdir := Entry.isDirectory_of_child? hentry
  have hadmits : admits (disk.endOf way) name = true := by rw [admits_of_isKept hkept, hsearch]
  have hlong : ¬nameLimit < Utf8.size name := Nat.not_lt.2 hsize
  rw [follow]
  simp only [hdir, hadmits, hkept, hname, hlong, hentry, Bool.not_true, Bool.false_eq_true, if_false]
  cases entry with
  | file content stamp denied => rfl
  | link target => cases hlink
  | directory access children => rfl

/-- A name that leads to a link is followed by following its target, for one of the links that may be taken. -/
theorem follow_through {name target : Text} {rest : List Text} {followLast : Bool} (hr : rest ≠ [] ∨ followLast = true)
    (hkept : Path.isKept name = true) (hname : name ≠ Path.parentName) (hsize : Utf8.size name ≤ nameLimit)
    (hsearch : (disk.endOf way).isSearchable = true) (hentry : (disk.endOf way).child? name = some (.link target)) :
    disk.follow followLast 0 way (name :: rest) = .error .tooManyLinks ∧
      ∀ budget, disk.follow followLast (budget + 1) way (name :: rest) =
        disk.follow followLast budget (if isFromRoot target then [] else way) (steps target ++ rest) := by
  have hdir := Entry.isDirectory_of_child? hentry
  have hadmits : admits (disk.endOf way) name = true := by rw [admits_of_isKept hkept, hsearch]
  have hlong : ¬nameLimit < Utf8.size name := Nat.not_lt.2 hsize
  have hlast : (rest.isEmpty && !followLast) = false := by
    rcases hr with hr | hr
    · simp [hr]
    · simp [hr]
  constructor
  · rw [follow]
    simp only [hdir, hadmits, hkept, hname, hlong, hentry, hlast, Bool.not_true, Bool.false_eq_true, if_false]
  · intro budget
    rw [follow]
    simp only [hdir, hadmits, hkept, hname, hlong, hentry, hlast, Bool.not_true, Bool.false_eq_true, if_false]

/-- Names that lead somewhere are followed, with what is behind them, as long as there are links left to take. -/
theorem follow_append (h : Leads disk way front middle k) {followLast : Bool} (hb : back ≠ [] ∨ followLast = true)
    (budget : Nat) :
    disk.follow followLast budget way (front ++ back) =
      if k ≤ budget then disk.follow followLast (budget - k) middle back else .error .tooManyLinks := by
  induction h generalizing back budget with
  | done way => simp
  | skip hdir hadmits hname hrest ih =>
    rw [List.cons_append, follow]
    simp only [hdir, hadmits, hname, Bool.not_true, Bool.not_false, Bool.false_eq_true, if_false, if_true]
    exact ih hb budget
  | up hsearch hrest ih =>
    have hkept : Path.isKept Path.parentName = true := by decide
    rw [List.cons_append, follow]
    simp only [Entry.isDirectory_of_isSearchable hsearch, admits_of_isKept hkept, hsearch, hkept, Bool.not_true,
      Bool.false_eq_true, if_false, if_true]
    exact ih hb budget
  | enter hkept hname hsize hsearch hentry hlink hrest ih =>
    rw [List.cons_append, follow_enter hkept hname hsize hsearch hentry hlink]
    exact ih hb budget
  | @through way middle after name target rest k m hkept hname hsize hsearch hentry htarget hrest ihTarget ihRest =>
    have hbehind : rest ++ back ≠ [] ∨ followLast = true := hb.imp_left (List.append_ne_nil_of_right_ne_nil rest)
    obtain ⟨hnone, hsome⟩ := follow_through hbehind hkept hname hsize hsearch hentry
    rw [List.cons_append]
    cases budget with
    | zero => rw [hnone, if_neg (Nat.not_succ_le_zero _)]
    | succ budget =>
      rw [hsome, ihTarget hbehind, ihRest hb]
      -- the target and the rest share the links that the first one leaves
      by_cases hk : k ≤ budget
      · by_cases hm : m ≤ budget - k
        · have hleft : budget - k - m = budget + 1 - (k + m + 1) := by omega
          rw [if_pos hk, if_pos hm, if_pos (by omega), hleft]
        · rw [if_pos hk, if_neg hm, if_neg (by omega)]
      · rw [if_neg hk, if_neg (by omega)]

/-- Names that lead somewhere are followed to their end. -/
theorem follow_of_leads (h : Leads disk way names after n) (budget : Nat) :
    disk.follow true budget way names = if n ≤ budget then .ok after else .error .tooManyLinks := by
  have hfollow : disk.follow true budget way (names ++ []) = _ := follow_append h (Or.inr rfl) budget
  rwa [List.append_nil, follow] at hfollow

/-- Names that lead somewhere lead nowhere else, and by no fewer links. -/
theorem Leads.eq_and_le {other : Way} (h : Leads disk way names after n) (h' : Leads disk way names other m) :
    after = other ∧ n ≤ m := by
  have hfollow := (follow_of_leads h m).symm.trans (follow_of_leads h' m)
  rw [if_pos (Nat.le_refl m)] at hfollow
  by_cases hle : n ≤ m
  · rw [if_pos hle, Except.ok.injEq] at hfollow
    exact ⟨hfollow, hle⟩
  · rw [if_neg hle] at hfollow
    cases hfollow

/-- Where names lead, and by how many links, is decided by the disk. -/
theorem Leads.unique {other : Way} (h : Leads disk way names after n) (h' : Leads disk way names other m) :
    after = other ∧ n = m :=
  ⟨(h.eq_and_le h').1, Nat.le_antisymm (h.eq_and_le h').2 (h'.eq_and_le h).2⟩

/-- Names behind names that lead somewhere lead on from there. -/
theorem Leads.append (h : Leads disk way front middle k) (h' : Leads disk middle back after m) :
    Leads disk way (front ++ back) after (k + m) := by
  induction h with
  | done way =>
    rw [Nat.zero_add]
    exact h'
  | skip hdir hadmits hname hrest ih => exact .skip hdir hadmits hname (ih h')
  | up hsearch hrest ih => exact .up hsearch (ih h')
  | enter hkept hname hsize hsearch hentry hlink hrest ih => exact .enter hkept hname hsize hsearch hentry hlink (ih h')
  | @through way middle' after' name target rest k' m' hkept hname hsize hsearch hentry htarget hrest ihTarget ihRest =>
    have hsum : k' + m' + 1 + m = k' + (m' + m) + 1 := by omega
    rw [hsum]
    exact .through hkept hname hsize hsearch hentry htarget (ihRest h')

/-- Names that lead somewhere can be cut anywhere. -/
theorem Leads.split (h : Leads disk way (front ++ back) after n) :
    ∃ middle k m, Leads disk way front middle k ∧ Leads disk middle back after m ∧ n = k + m := by
  induction front generalizing way n with
  | nil => exact ⟨way, 0, n, .done way, h, (Nat.zero_add n).symm⟩
  | cons name front ih =>
    cases h with
    | skip hdir hadmits hname hrest =>
      obtain ⟨middle, k, m, hfront, hback, rfl⟩ := ih hrest
      exact ⟨middle, k, m, .skip hdir hadmits hname hfront, hback, rfl⟩
    | up hsearch hrest =>
      obtain ⟨middle, k, m, hfront, hback, rfl⟩ := ih hrest
      exact ⟨middle, k, m, .up hsearch hfront, hback, rfl⟩
    | enter hkept hname hsize hsearch hentry hlink hrest =>
      obtain ⟨middle, k, m, hfront, hback, rfl⟩ := ih hrest
      exact ⟨middle, k, m, .enter hkept hname hsize hsearch hentry hlink hfront, hback, rfl⟩
    | through hkept hname hsize hsearch hentry htarget hrest =>
      obtain ⟨middle, k, m, hfront, hback, rfl⟩ := ih hrest
      exact ⟨middle, _, m, .through hkept hname hsize hsearch hentry htarget hfront, hback, by omega⟩

/-- A single name that leads somewhere stands in a directory. -/
theorem Leads.exists_child? {name : Text} (h : Leads disk way [name] after n) (hkept : Path.isKept name = true)
    (hname : name ≠ Path.parentName) : ∃ entry, (disk.endOf way).child? name = some entry := by
  cases h with
  | skip hdir hadmits hskip hrest =>
    rw [hkept] at hskip
    cases hskip
  | up hsearch hrest => exact absurd rfl hname
  | enter hkept hname hsize hsearch hentry hlink hrest => exact ⟨_, hentry⟩
  | through hkept hname hsize hsearch hentry htarget hrest => exact ⟨_, hentry⟩

/-- Where a name that a path keeps may be looked up, there is a directory that may be searched. -/
theorem isSearchable_of_admits {entry : Entry} {name : Text} (h : ¬(!admits entry name) = true)
    (hkept : ¬(!Path.isKept name) = true) : entry.isSearchable = true := by
  rw [admits_of_isKept (by simpa using hkept)] at h
  simpa using h

/-- Names that a disk follows lead somewhere, by no more links than it allows. -/
theorem leads_of_follow {budget : Nat} (h : disk.follow true budget way names = .ok after) :
    ∃ n ≤ budget, Leads disk way names after n := by
  generalize hlast : true = followLast at h
  fun_induction follow disk followLast budget way names with
  | case1 budget way =>
    cases h
    exact ⟨0, Nat.zero_le _, .done _⟩
  | case2 => cases h
  | case3 => cases h
  | case4 budget way name rest hdir hadmits hname ih =>
    obtain ⟨n, hn, hrest⟩ := ih h
    exact ⟨n, hn, .skip (by simpa using hdir) (by simpa using hadmits) (by simpa using hname) hrest⟩
  | case5 budget way rest hdir hadmits hkept ih =>
    obtain ⟨n, hn, hrest⟩ := ih h
    exact ⟨n, hn, .up (isSearchable_of_admits hadmits hkept) hrest⟩
  | case6 => cases h
  | case7 => cases h
  | case8 => simp_all
  | case9 => cases h
  | case10 way name rest hdir hadmits hkept hname hsize target hentry hmiddle budget ih =>
    obtain ⟨n, hn, hall⟩ := ih h
    obtain ⟨middle, k, m, htarget, hrest, rfl⟩ := hall.split
    exact ⟨k + m + 1, Nat.succ_le_succ hn, .through (by simpa using hkept) hname (Nat.not_lt.1 hsize)
      (isSearchable_of_admits hadmits hkept) hentry htarget hrest⟩
  | case11 budget way name rest hdir hadmits hkept hname hsize entry hlink hentry ih =>
    obtain ⟨n, hn, hrest⟩ := ih h
    have hplain : entry.isLink = false := by
      cases entry with
      | link target => exact absurd rfl (hlink target)
      | file content stamp denied => rfl
      | directory access children => rfl
    exact ⟨n, hn, .enter (by simpa using hkept) hname (Nat.not_lt.1 hsize) (isSearchable_of_admits hadmits hkept) hentry hplain
      hrest⟩

/-! ## Ways without links -/

/-- One more name on a way is the last of its names. -/
theorem namesOf_cons (name : Text) (entry : Entry) (way : Way) : namesOf ((name, entry) :: way) = namesOf way ++ [name] := by
  rw [namesOf, List.map_cons, List.reverse_cons]
  rfl

/-- The way to the directory above has no links either. -/
theorem IsWay.tail (h : IsWay disk way) : IsWay disk way.tail := by
  cases h with
  | root => exact .root
  | child hway _ _ _ => exact hway

/-- The target of a link at the end of a way without links is followed from such a way. -/
theorem IsWay.start (h : IsWay disk way) (target : Text) : IsWay disk (if isFromRoot target then [] else way) := by
  split
  · exact .root
  · exact h

/-- Where names lead to from a way without links, there is such a way. -/
theorem Leads.isWay (h : Leads disk way names after n) (hw : IsWay disk way) : IsWay disk after := by
  induction h with
  | done way => exact hw
  | skip hdir hadmits hname hrest ih => exact ih hw
  | up hsearch hrest ih => exact ih hw.tail
  | enter hkept hname hsize hsearch hentry hlink hrest ih => exact ih (hw.child hsearch hentry hlink)
  | through hkept hname hsize hsearch hentry htarget hrest ihTarget ihRest => exact ihRest (ihTarget (hw.start _))

/-- The names along a way lead to its end. -/
theorem IsWay.entry? (h : IsWay disk way) : disk.entry? (namesOf way) = some (disk.endOf way) := by
  induction h with
  | root => rfl
  | @child way name entry hway hsearch hentry hlink ih =>
    rw [Disk.entry?] at ih ⊢
    rw [namesOf_cons, Entry.at?_append, ih, Option.bind_some, Entry.at?, hentry]
    rfl

/-- A name behind the names along a way leads where it leads from the end of the way. -/
theorem IsWay.entry?_child (h : IsWay disk way) (name : Text) :
    disk.entry? (namesOf way ++ [name]) = (disk.endOf way).child? name := by
  have hentry := h.entry?
  rw [Disk.entry?] at hentry ⊢
  rw [Entry.at?_append, hentry, Option.bind_some, Entry.at?]
  cases (disk.endOf way).child? name <;> rfl

/-- A way without links is known by its names. -/
theorem IsWay.ext {other : Way} (h : IsWay disk way) (h' : IsWay disk other) (hn : namesOf way = namesOf other) :
    way = other := by
  induction h generalizing other with
  | root =>
    cases h' with
    | root => rfl
    | child _ _ _ _ => simp [namesOf] at hn
  | @child way name entry hway hsearch hentry hlink ih =>
    cases h' with
    | root => simp [namesOf] at hn
    | child hway' hsearch' hentry' hlink' =>
      rw [namesOf_cons, namesOf_cons] at hn
      obtain ⟨hnames, hname⟩ := List.append_inj' hn rfl
      cases hname
      obtain rfl := ih hway' hnames
      rw [hentry] at hentry'
      cases hentry'
      rfl

/-- The names along a way can stand in directories, and its end is sound. -/
theorem IsWay.isSound (h : IsWay disk way) :
    (∀ name ∈ namesOf way, isName name = true) ∧ (disk.endOf way).isSound = true := by
  induction h with
  | root => exact ⟨by simp [namesOf], disk.sound⟩
  | @child way name entry hway hsearch hentry hlink ih =>
    obtain ⟨hname, hentry⟩ := Entry.isSound_child ih.2 hentry
    refine ⟨?_, hentry⟩
    intro other hother
    rw [namesOf_cons] at hother
    rcases List.mem_append.1 hother with hother | hother
    · exact ih.1 other hother
    · rw [List.mem_singleton.1 hother]
      exact hname

/-- A name that leads to no link is followed by going there. -/
theorem IsWay.leads_child (hw : IsWay disk way) {name : Text} {entry : Entry} (hsearch : (disk.endOf way).isSearchable = true)
    (hentry : (disk.endOf way).child? name = some entry) (hlink : entry.isLink = false) :
    Leads disk way [name] ((name, entry) :: way) 0 := by
  obtain ⟨hkept, hparent, -, -, hsize⟩ := isName_iff.1 (Entry.isSound_child hw.isSound.2 hentry).1
  exact .enter hkept hparent hsize hsearch hentry hlink (.done _)

/-- The names along a way lead there without a link. -/
theorem IsWay.leads (h : IsWay disk way) : Leads disk [] (namesOf way) way 0 := by
  induction h with
  | root => exact .done []
  | @child way name entry hway hsearch hentry hlink ih =>
    rw [namesOf_cons]
    exact ih.append (hway.leads_child hsearch hentry hlink)

/-! ## Written paths -/

section

variable {p : Path} {name : Text}

/-- A path that can be followed: absolute, and without a NUL character in its names. -/
structure IsProper (p : Path) : Prop where
  absolute : p.isAbsolute = true
  written : p.IsWritten
  nulFree : ∀ name ∈ p.names, '\x00' ∉ name

/-- A path that can be followed holds no NUL character. -/
theorem IsProper.nul_not_mem (h : IsProper p) : '\x00' ∉ p.text := by
  rw [Path.mem_text_iff h.absolute (by decide)]
  rintro ⟨name, hname, hmem⟩
  exact h.nulFree name hname hmem

theorem IsProper.extend (h : IsProper p) (hn : ∀ name ∈ names, Path.isKept name = true ∧ '/' ∉ name ∧ '\x00' ∉ name) :
    IsProper (p.extend names) := by
  refine ⟨h.absolute, h.written.extend fun name hname => ⟨(hn name hname).1, (hn name hname).2.1⟩, fun name hname => ?_⟩
  rcases List.mem_append.1 hname with hname | hname
  · exact h.nulFree name hname
  · exact (hn name hname).2.2

theorem IsProper.child (h : IsProper p) (hkept : Path.isKept name = true) (hn : '/' ∉ name ∧ '\x00' ∉ name) :
    IsProper (p.child name) := by
  refine h.extend fun other hother => ?_
  rw [List.mem_singleton.1 hother]
  exact ⟨hkept, hn⟩

end

/-- Where slashes meet, nothing is followed. -/
theorem follow_blanks {followLast : Bool} {budget : Nat} {blanks : List Text} (hd : (disk.endOf way).isDirectory = true)
    (hb : ∀ blank ∈ blanks, blank = []) (rest : List Text) :
    disk.follow followLast budget way (blanks ++ rest) = disk.follow followLast budget way rest := by
  induction blanks with
  | nil => rfl
  | cons blank blanks ih =>
    obtain rfl := hb blank List.mem_cons_self
    have hadmits : admits (disk.endOf way) [] = true := rfl
    have hkept : Path.isKept [] = false := rfl
    rw [List.cons_append, follow]
    simp only [hd, hadmits, hkept, Bool.not_true, Bool.not_false, Bool.false_eq_true, if_false, if_true]
    exact ih fun other ho => hb other (List.mem_cons_of_mem _ ho)

/-- An absolute path is followed name by name from the root, unless it is too long. -/
theorem locate_text {p : Path} (hp : IsProper p) (followLast : Bool) (workingDir : Place) :
    disk.locate followLast workingDir p.text =
      if pathLimit ≤ Utf8.size p.text then .error .nameTooLong else disk.follow followLast linkLimit [] p.names := by
  have hnul : p.text.contains '\x00' = false := by simpa using hp.nul_not_mem
  have hempty : p.text.isEmpty = false := by
    rw [Path.text_eq hp.absolute]
    cases hroot : p.root with
    | relative => simpa [Path.isAbsolute, hroot] using hp.absolute
    | slash => rfl
    | doubleSlash => rfl
  have hfrom : isFromRoot p.text = true := by rw [isFromRoot, Path.ofText_text hp.absolute hp.written, hp.absolute]
  obtain ⟨blanks, hsteps, hblanks⟩ := Path.steps_text hp.absolute hp.written
  have hfollow : disk.follow followLast linkLimit [] (steps p.text) = disk.follow followLast linkLimit [] p.names := by
    rw [hsteps]
    exact follow_blanks rfl hblanks p.names
  simp only [locate, start?, hnul, hempty, hfrom, Bool.false_eq_true, if_false, if_true, hfollow]

end Disk

end SymbolSearch
