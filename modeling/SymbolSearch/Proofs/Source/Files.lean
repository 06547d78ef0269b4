import Mathlib
import SymbolSearch.Proofs.Ignore
import SymbolSearch.Proofs.Source.Walk
import SymbolSearch.Source.Files

/-!
# Which files are sources

The sources below a root come in the order of paths, and they are exactly the files that a walk meets and that pass the suffixes,
the ignore files and the wildcards (`files_listed`). No file that a walk meets lies outside the root, whatever links there are: a
walk takes no link, so the way to the file goes on from the way to the root (`isWithin_of_reaches`).
-/

namespace SymbolSearch

/-! ## Ignore files speak of what is below the root -/

namespace Ignore

variable {host : Host} {nested : Bool} {root : Path} {names : List Text} {rules : List RuleFile} {fault : Fault}

/-- The ignore file of a directory is about what lies below that directory. -/
theorem RuleFile.load?_base {path : Path} {file : RuleFile} (h : RuleFile.load? host path = .ok (some file)) :
    file.base = Path.ofText (host.absolute path.parent.text) := by
  unfold RuleFile.load? at h
  split at h
  · cases h
  · split at h
    · obtain ⟨parsed, hparsed, hfile⟩ := map_eq_ok_iff.1 h
      obtain ⟨lines, -, hlines⟩ := bind_eq_ok_iff.1 hparsed
      cases hlines
      cases hfile
      rfl
    · obtain ⟨lines, -, hlines⟩ := map_eq_ok_iff.1 h
      cases hlines

/-- Where only the ignore file of the root is obeyed, it is about what lies below the root. -/
theorem filesFor_base (h : filesFor host false root = .ok rules) :
    ∀ file ∈ rules, file.base = Path.ofText (host.absolute root.text) := by
  have hparent : (root.child fileName).parent = root := by simp [Path.child, Path.parent]
  obtain ⟨paths, hpaths, hload⟩ := bind_eq_ok_iff.1 h
  obtain ⟨found, -, ⟨hnested, -⟩ | ⟨-, rfl⟩⟩ := pathsFor_eq_ok_iff.1 hpaths
  · cases hnested
  intro file hfile
  obtain ⟨path, hpath, hloaded⟩ := (mem_loadAll hload).1 hfile
  have hown : path = root.child fileName := by
    cases found with
    | false => cases hpath
    | true => exact List.mem_singleton.1 hpath
  rw [RuleFile.load?_base hloaded, hown, hparent]

/-- The normal form of a path below a root goes on from the normal form of the root. -/
theorem absolute_extend (ha : root.isAbsolute = true) (hw : (root.extend names).IsWritten) (hn : Path.parentName ∉ names) :
    Path.ofText (host.absolute (root.extend names).text) = (Path.ofText (host.absolute root.text)).extend names := by
  have hroot : root.IsWritten := fun name hname => hw name (List.mem_append_left _ hname)
  rw [Host.absolute, Host.absolute, Path.ofText_absolute (p := root.extend names) ha hw, Path.ofText_absolute ha hroot,
    Path.extend, Path.normalNames_append _ hn]
  rfl

/-- Ignore files fail to speak of a path below the root only because of a rule that cannot be read. -/
theorem ignores_error_of_below (hr : filesFor host nested root = .ok rules) (ha : root.isAbsolute = true)
    (hw : (root.extend names).IsWritten) (hn : Path.parentName ∉ names)
    (h : ignores host nested (root.extend names) rules = .error fault) : fault = .badSet := by
  rcases ignores_error_iff.1 h with ⟨hfault, -⟩ | ⟨-, rfl, before, file, after, rfl, -, hfile⟩
  · exact hfault
  · have hbelow : (Path.ofText (host.absolute (root.extend names).text)).below? file.base = some names := by
      rw [filesFor_base hr file (by simp), absolute_extend ha hw hn, Path.below?_extend]
    exact absurd hfile (RuleFile.ignores_ne_outsideBase hbelow)

/-- An ignore file whose rules can all be read meets none that cannot. -/
theorem RuleFile.ignores_ne_badSet {file : RuleFile} {path : Path}
    (h : ∀ rule ∈ file.rules, (Expression.read? rule.expressionText).isSome = true) :
    file.ignores host path ≠ .error .badSet := by
  intro hbad
  obtain ⟨names, -, front, rule, back, horder, -, hnone⟩ := RuleFile.ignores_badSet_iff.1 hbad
  have hrule : rule ∈ file.order := by
    rw [horder]
    exact List.mem_append_right _ List.mem_cons_self
  have hown : rule ∈ file.rules := by
    unfold RuleFile.order at hrule
    split at hrule
    · exact List.mem_reverse.1 hrule
    · exact hrule
  have hsome := h rule hown
  rw [hnone] at hsome
  cases hsome

/-- Ignore files of which none meets a rule that cannot be read speak of a path. -/
theorem ignores_ne_badSet {path : Path} (h : ∀ file ∈ rules, file.ignores host path ≠ .error .badSet) :
    ignores host nested path rules ≠ .error .badSet := by
  intro hbad
  rcases ignores_error_iff.1 hbad with ⟨-, before, file, after, rfl, -, hbreaks⟩ | ⟨hfault, -⟩
  · exact h file (List.mem_append_right _ List.mem_cons_self) (RuleFile.ignores_badSet_iff.2 hbreaks)
  · cases hfault

end Ignore

/-! ## Files below the root -/

namespace Source

variable {host : Host} {selection : Selection} {root : Path} {way : Way} {top : Entry} {names : List Text}
  {rules : List Ignore.RuleFile}

/-- The path of a host that leads along a way stands, without links, for the names along it. -/
theorem canonical_of_isAt (h : host.disk.IsAt root way) : host.canonical root.text = .ok ⟨.slash, Disk.namesOf way⟩ := by
  obtain ⟨n, hn, hleads⟩ := h.leads
  exact Disk.canonical_text h.toIsProper hleads (Nat.le_trans hn host.depths.linkLimit_le)

/-- The path of a file that names lead to from the root, without its links, goes on by these names from that of the root. -/
theorem canonical_of_reaches (h : host.disk.IsAt root way) (hn : (host.disk.endOf way).Reaches names) :
    host.canonical (root.extend names).text = .ok (Path.extend ⟨.slash, Disk.namesOf way⟩ names) := by
  obtain ⟨found, hfound, hfile, -⟩ := hn
  obtain ⟨after, hafter, hnames, -⟩ := h.extend hfound (Entry.isLink_of_isFile hfile)
  rw [canonical_of_isAt hafter, hnames]
  rfl

/-- A file that names lead to from the root lies below the root also once no link is left. -/
theorem isWithin_of_reaches (h : host.disk.IsAt root way) (hn : (host.disk.endOf way).Reaches names) :
    isWithin host root (root.extend names) = .ok true := by
  simp only [isWithin, canonical_of_isAt h, canonical_of_reaches h hn, bind, Except.bind, Path.below?_extend]
  rfl

/-- The wildcards let a path pass exactly if one of the included ones matches it, if there are any, and no excluded one does. -/
theorem Selection.passes_iff {s : Text} :
    selection.passes s = true ↔
      (selection.included = [] ∨ ∃ pattern ∈ selection.included, Wildcard.isMatch pattern s = true) ∧
        ∀ pattern ∈ selection.excluded, Wildcard.isMatch pattern s = false := by
  simp [Selection.passes]

/-- A file below the root is judged by the ignore files and the wildcards alone. -/
theorem Selection.accepts_of_reaches (h : host.disk.IsAt root way) (hn : (host.disk.endOf way).Reaches names) {out : Bool}
    (hi : Ignore.ignores host selection.nestedIgnores (root.extend names) rules = .ok out) :
    selection.accepts host rules root (root.extend names) = .ok (!out && selection.passes (Path.namesText names)) := by
  simp only [Selection.accepts, isWithin_of_reaches h hn, Path.below?_extend, hi, bind, Except.bind]
  cases out <;> rfl

/-- The ignore files speak of every file below the root, unless they meet a rule that cannot be read. -/
theorem exists_ignores (h : host.disk.IsAt root way) (hr : Ignore.filesFor host selection.nestedIgnores root = .ok rules)
    (hn : (host.disk.endOf way).Reaches names)
    (hb : Ignore.ignores host selection.nestedIgnores (root.extend names) rules ≠ .error .badSet) :
    ∃ out, Ignore.ignores host selection.nestedIgnores (root.extend names) rules = .ok out := by
  obtain ⟨found, hfound, hfile, -⟩ := hn
  obtain ⟨after, hafter, -⟩ := h.extend hfound (Entry.isLink_of_isFile hfile)
  have hparent := h.parentName_not_mem hfound (Entry.isLink_of_isFile hfile)
  cases hi : Ignore.ignores host selection.nestedIgnores (root.extend names) rules with
  | ok out => exact ⟨out, rfl⟩
  | error fault =>
    rw [Ignore.ignores_error_of_below hr h.absolute hafter.written hparent hi] at hi
    exact absurd hi hb

/-- A file counts as a source: its suffix is known, no ignore file leaves it out, and the wildcards let it pass. -/
def Selection.keeps (selection : Selection) (host : Host) (rules : List Ignore.RuleFile) (root path : Path) : Bool :=
  selection.suffixes.contains path.suffix &&
    ((Ignore.ignores host selection.nestedIgnores path rules).toOption == some false &&
      selection.passes (Path.namesText ((path.below? root).getD [])))

/-- What it takes for a file below the root to count. -/
theorem Selection.keeps_extend_iff :
    selection.keeps host rules root (root.extend names) = true ↔ (root.extend names).suffix ∈ selection.suffixes ∧
      Ignore.ignores host selection.nestedIgnores (root.extend names) rules = .ok false ∧
      (selection.included = [] ∨ ∃ pattern ∈ selection.included, Wildcard.isMatch pattern (Path.namesText names) = true) ∧
      ∀ pattern ∈ selection.excluded, Wildcard.isMatch pattern (Path.namesText names) = false := by
  have hanswer : ∀ answer : Except Fault Bool, answer.toOption = some false ↔ answer = .ok false := by
    intro answer
    cases answer <;> simp [Except.toOption]
  rw [Selection.keeps, Path.below?_extend, Option.getD_some, Bool.and_eq_true, Bool.and_eq_true, List.contains_iff_mem,
    beq_iff_eq, hanswer, Selection.passes_iff]

/-- No ignore file meets a rule that cannot be read when it is asked about a file of a known suffix below the root. -/
def Selection.Readable (selection : Selection) (host : Host) (rules : List Ignore.RuleFile) (root : Path) (top : Entry) : Prop :=
  ∀ path, top.FileBelow root path → path.suffix ∈ selection.suffixes →
    Ignore.ignores host selection.nestedIgnores path rules ≠ .error .badSet

/-- The sources below a root are the files that a walk meets and that count, and they end as the walk does. -/
theorem files_eq (h : host.disk.IsAt root way) (hd : (host.disk.endOf way).isDirectory = true)
    (hr : Ignore.filesFor host selection.nestedIgnores root = .ok rules)
    (hb : selection.Readable host rules root (host.disk.endOf way)) :
    files host (.ofHost host) selection root =
      ⟨((FileTree.ofHost host).walk host.depths.walk root).items.filter (selection.keeps host rules root),
        ((FileTree.ofHost host).walk host.depths.walk root).fault⟩ := by
  have hjudged : ∀ path ∈ ((FileTree.ofHost host).walk host.depths.walk root).items,
      (if !selection.suffixes.contains path.suffix then .ok none
        else do .ok (if ← selection.accepts host rules root path then some path else none)) =
        (.ok (Option.guard (fun path => selection.keeps host rules root path) path) : Except Fault (Option Path)) := by
    intro path hpath
    have hbelow := FileTree.fileBelow_of_mem_walk h hd hpath
    obtain ⟨names, rfl, hreaches, -⟩ := id hbelow
    cases hsuffix : selection.suffixes.contains (root.extend names).suffix with
    | false =>
      have hkeeps : selection.keeps host rules root (root.extend names) = false := by rw [Selection.keeps, hsuffix]; rfl
      simp only [hkeeps, Option.guard, Bool.not_false, Bool.false_eq_true, if_true, if_false]
    | true =>
      obtain ⟨out, hout⟩ := exists_ignores h hr hreaches (hb _ hbelow (List.contains_iff_mem.1 hsuffix))
      have hkeeps : selection.keeps host rules root (root.extend names) =
          (!out && selection.passes (Path.namesText names)) := by
        rw [Selection.keeps, hsuffix, hout, Path.below?_extend]
        cases out <;> rfl
      simp only [Selection.accepts_of_reaches h hreaches hout, hkeeps, Option.guard, Bool.not_true, Bool.false_eq_true,
        if_false, bind, Except.bind]
  rw [files, hr]
  simp only
  rw [Trail.filterMap_of_ok hjudged, List.filterMap_eq_filter]

/-- The list holds the sources below a root: in the order of paths, none twice, exactly the files that names lead to and that
count; and all of them are below the root also once no link is left. -/
structure ListsSources (host : Host) (selection : Selection) (rules : List Ignore.RuleFile) (root : Path) (top : Entry)
    (items : List Path) : Prop where
  ordered : items.Pairwise Path.Precedes
  nodup : items.Nodup
  mem_iff : ∀ path, path ∈ items ↔ ∃ names, path = root.extend names ∧ top.Reaches names ∧
    Utf8.size path.text < Disk.pathLimit ∧ path.suffix ∈ selection.suffixes ∧
    Ignore.ignores host selection.nestedIgnores path rules = .ok false ∧
    (selection.included = [] ∨ ∃ pattern ∈ selection.included, Wildcard.isMatch pattern (Path.namesText names) = true) ∧
    ∀ pattern ∈ selection.excluded, Wildcard.isMatch pattern (Path.namesText names) = false
  /-- The check of where a path leads drops no file that names lead to. -/
  within : ∀ names, top.Reaches names → isWithin host root (root.extend names) = .ok true
  confined : ∀ path ∈ items, ∃ base names, host.canonical root.text = .ok base ∧ host.canonical path.text = .ok (base.extend names)

/-- The sources below a root that is a directory, whatever links there are. As long as names do not lead too deep, the walk comes
to its end, and what it lists is exactly the sources, each as far as its path can be followed. Where they do lead too deep, the walk
ends in a fault. -/
theorem files_listed {s : Text} (hroot : Path.ofText s = root) (ha : root.isAbsolute = true)
    (hstat : host.disk.stat host.workingDir.names root.text = .ok top) (htop : top.isDirectory = true)
    (hr : Ignore.filesFor host selection.nestedIgnores root = .ok rules) (hb : selection.Readable host rules root top) :
    (¬top.TooDeep host.depths.walk root →
      ∃ items, (files host (.ofHost host) selection root).all = .ok items ∧
        ListsSources host selection rules root top items) ∧
    (top.TooDeep host.depths.walk root → (files host (.ofHost host) selection root).all = .error .nestedTooDeep) := by
  have hwritten : root.IsWritten := by
    rw [← hroot]
    exact Path.isWritten_ofText s
  obtain ⟨way, hway, rfl⟩ := Disk.exists_isAt (Disk.isProper_of_stat ha hwritten hstat) hstat
  have hfiles := files_eq hway htop hr hb
  constructor
  · intro hdeep
    obtain ⟨hends, hordered, hmem⟩ := FileTree.walk_lists hway htop hdeep
    have hsorted := hordered.filter (selection.keeps host rules root)
    refine ⟨_, Trail.all_eq_ok_iff.2 ⟨by rw [hfiles]; exact hends, by rw [hfiles]⟩, hsorted, hsorted.imp Path.Precedes.ne, ?_, ?_, ?_⟩
    · intro path
      rw [List.mem_filter, hmem]
      constructor
      · rintro ⟨⟨names, rfl, hreaches, hsize⟩, hkeeps⟩
        exact ⟨names, rfl, hreaches, hsize, Selection.keeps_extend_iff.1 hkeeps⟩
      · rintro ⟨names, rfl, hreaches, hsize, hkeeps⟩
        exact ⟨⟨names, rfl, hreaches, hsize⟩, Selection.keeps_extend_iff.2 hkeeps⟩
    · exact fun names hreaches => isWithin_of_reaches hway hreaches
    · intro path hpath
      obtain ⟨names, rfl, hreaches, -⟩ := (hmem path).1 (List.mem_filter.1 hpath).1
      exact ⟨_, names, canonical_of_isAt hway, canonical_of_reaches hway hreaches⟩
  · intro hdeep
    rw [Trail.all_eq_error_iff, hfiles]
    exact FileTree.walk_fault_of_tooDeep hway hdeep

/-- What lies in the directory that `/in` is a link to: siblings `a` and `a.c`, links to themselves and to the directory above,
a directory that may not be listed, and files that are passed over or left out. -/
def linkedTop : Entry :=
  .folder [("a.c".toList, .ofAscii [] 0), ("loop.c".toList, .link "loop.c".toList),
    ("a".toList, .folder [("b.c".toList, .ofAscii [] 0), ("up".toList, .link "..".toList)]),
    ("hidden".toList, .directory ⟨false, true⟩ [("h.c".toList, .ofAscii [] 0)]),
    (".git".toList, .folder [("h.c".toList, .ofAscii [] 0)]), (".gitignore".toList, .ofAscii "s.c".toList 0),
    ("s.c".toList, .ofAscii [] 0), ("x.c".toList, .ofAscii [] 0)]

/-- A host on which the root of the sources is reached by a link. -/
def linkedHost : Host :=
  .ofRoot [("in".toList, .link "ws".toList), ("ws".toList, linkedTop)] (by cbv)

/-- The host with a walk that may only come to what stands in the root. -/
def shallowHost : Host :=
  { linkedHost with depths := { Depths.direct with walk := 1 } }

/-- Files of one suffix, of which one more is left out by a wildcard. -/
def linkedSelection : Selection :=
  ⟨[".c".toList], ["*.c".toList], ["x*".toList], false⟩

/-- The rules of the ignore file of the root. -/
def linkedRules : List Ignore.RuleFile :=
  [⟨⟨.slash, ["in".toList]⟩, [⟨false, false, false, [.char 's', .char '.', .char 'c']⟩]⟩]

set_option maxRecDepth 4000 in
/-- The sources below a link, among links that lead around in circles; and none where the walk comes too deep. -/
theorem files_listed_linked :
    (∃ items, (files linkedHost (.ofHost linkedHost) linkedSelection ⟨.slash, ["in".toList]⟩).all = .ok items ∧
      ListsSources linkedHost linkedSelection linkedRules ⟨.slash, ["in".toList]⟩ linkedTop items ∧
      ⟨.slash, ["in".toList, "a".toList, "b.c".toList]⟩ ∈ items ∧ ⟨.slash, ["in".toList, "s.c".toList]⟩ ∉ items) ∧
    (files shallowHost (.ofHost shallowHost) linkedSelection ⟨.slash, ["in".toList]⟩).all = .error .nestedTooDeep := by
  have hread : Path.ofText "/in".toList = ⟨.slash, ["in".toList]⟩ := by cbv
  have hreadable : ∀ host : Host, linkedSelection.Readable host linkedRules ⟨.slash, ["in".toList]⟩ linkedTop := by
    refine fun host path _ _ => Ignore.ignores_ne_badSet fun file hfile =>
      Ignore.RuleFile.ignores_ne_badSet fun rule hrule => ?_
    rw [List.mem_singleton.1 hfile] at hrule
    rw [List.mem_singleton.1 hrule]
    decide +kernel
  constructor
  · have hstat : linkedHost.disk.stat linkedHost.workingDir.names (Path.text ⟨.slash, ["in".toList]⟩) = .ok linkedTop := by cbv
    have hrules : Ignore.filesFor linkedHost false ⟨.slash, ["in".toList]⟩ = .ok linkedRules := by cbv
    have hdeep : ¬linkedTop.TooDeep linkedHost.depths.walk ⟨.slash, ["in".toList]⟩ :=
      Entry.not_tooDeep_of_height (by decide) _
    obtain ⟨items, hitems, hlists⟩ := (files_listed hread rfl hstat rfl hrules (hreadable linkedHost)).1 hdeep
    refine ⟨items, hitems, hlists, (hlists.mem_iff _).2 ?_, ?_⟩
    · have hkept : Ignore.ignores linkedHost false ⟨.slash, ["in".toList, "a".toList, "b.c".toList]⟩ linkedRules = .ok false := by
        decide +kernel
      have hreaches : linkedTop.Reaches ["a".toList, "b.c".toList] :=
        ⟨_, ⟨rfl, _, rfl, rfl, _, rfl, rfl⟩, rfl, by decide⟩
      refine ⟨["a".toList, "b.c".toList], rfl, hreaches, by decide, by decide, hkept,
        Or.inr ⟨_, List.mem_cons_self, by decide +kernel⟩, ?_⟩
      intro pattern hpattern
      rw [List.mem_singleton.1 hpattern]
      decide +kernel
    · intro hmem
      obtain ⟨names, -, -, -, -, hignored, -⟩ := (hlists.mem_iff _).1 hmem
      have hout : Ignore.ignores linkedHost false ⟨.slash, ["in".toList, "s.c".toList]⟩ linkedRules = .ok true := by
        decide +kernel
      have hboth := hout.symm.trans hignored
      cases hboth
  · have hstat : shallowHost.disk.stat shallowHost.workingDir.names (Path.text ⟨.slash, ["in".toList]⟩) = .ok linkedTop := by cbv
    have hrules : Ignore.filesFor shallowHost false ⟨.slash, ["in".toList]⟩ = .ok linkedRules := by cbv
    have hdeep : linkedTop.TooDeep shallowHost.depths.walk ⟨.slash, ["in".toList]⟩ :=
      ⟨["a".toList], _, rfl, ⟨rfl, _, rfl, rfl⟩, rfl, by decide, by decide⟩
    exact (files_listed hread rfl hstat rfl hrules (hreadable shallowHost)).2 hdeep

/-- A name of 252 octets. -/
def longName : Text :=
  List.replicate 63 (Char.ofNat 0x10000)

/-- A file below so many directories of that name. -/
def deepEntry : Nat → Entry
  | 0 => .folder [("x.c".toList, .ofAscii [] 0)]
  | n + 1 => .folder [(longName, deepEntry n)]

/-- The names of the directories and of the file lead to the file. -/
theorem deepEntry_isOpenTo (n : Nat) :
    (deepEntry n).IsOpenTo (List.replicate n longName ++ ["x.c".toList]) (.ofAscii [] 0) := by
  induction n with
  | zero => exact ⟨rfl, _, rfl, rfl⟩
  | succ n ih =>
    refine ⟨rfl, deepEntry n, ?_, ih⟩
    simp [deepEntry, Entry.folder, Entry.child?]

/-- A host with a file whose path is too long to be followed. -/
def deepHost : Host :=
  .ofRoot [(longName, deepEntry 16)] (by decide +kernel)

set_option maxRecDepth 4000 in
/-- It is not enough that names lead to a file that counts: with directories of long names, its path cannot be followed to its
end, and the walk passes it over. -/
theorem files_miss_deep :
    ¬∀ (host : Host) (selection : Selection) (s : Text) (root : Path) (top : Entry)
      (rules : List Ignore.RuleFile) (items : List Path) (names : List Text),
      Path.ofText s = root → root.isAbsolute = true →
      host.disk.stat host.workingDir.names root.text = .ok top → top.isDirectory = true →
      Ignore.filesFor host selection.nestedIgnores root = .ok rules →
      selection.Readable host rules root top →
      (files host (.ofHost host) selection root).all = .ok items →
      top.Reaches names → (root.extend names).suffix ∈ selection.suffixes →
      Ignore.ignores host selection.nestedIgnores (root.extend names) rules = .ok false →
      (selection.included = [] ∨ ∃ pattern ∈ selection.included, Wildcard.isMatch pattern (Path.namesText names) = true) →
      (∀ pattern ∈ selection.excluded, Wildcard.isMatch pattern (Path.namesText names) = false) →
      root.extend names ∈ items := by
  intro hall
  have hstat : deepHost.disk.stat deepHost.workingDir.names (Path.text ⟨.slash, []⟩) = .ok (deepEntry 17) := by cbv
  have hrules : Ignore.filesFor deepHost false ⟨.slash, []⟩ = .ok [] := by cbv
  have hreaches : (deepEntry 17).Reaches (List.replicate 17 longName ++ ["x.c".toList]) :=
    ⟨_, deepEntry_isOpenTo 17, rfl, by decide +kernel⟩
  have hlong : Disk.pathLimit ≤ Utf8.size (Path.text ⟨.slash, List.replicate 17 longName ++ ["x.c".toList]⟩) := by
    decide +kernel
  have hreadable : Selection.Readable ⟨[".c".toList], [], [], false⟩ deepHost [] ⟨.slash, []⟩ (deepEntry 17) :=
    fun _ _ _ hbad => by cases hbad
  have hproper : Disk.IsProper ⟨.slash, []⟩ :=
    ⟨rfl, fun _ hname => absurd hname List.not_mem_nil, fun _ hname => absurd hname List.not_mem_nil⟩
  obtain ⟨way, hway, hend⟩ := Disk.exists_isAt hproper hstat
  have hdeep : ¬(deepEntry 17).TooDeep deepHost.depths.walk ⟨.slash, []⟩ := Entry.not_tooDeep_of_height (by decide) _
  rw [← hend] at hreaches hreadable hdeep hstat
  have hdir : (deepHost.disk.endOf way).isDirectory = true := by rw [hend]; rfl
  have hfiles := files_eq hway hdir hrules hreadable
  have hwalk := FileTree.walk_lists hway hdir hdeep
  have hitems := Trail.all_eq_ok_iff.2 ⟨(congrArg Trail.fault hfiles).trans hwalk.ends, congrArg Trail.items hfiles⟩
  have hmem := hall deepHost ⟨[".c".toList], [], [], false⟩ "/".toList ⟨.slash, []⟩ _ [] _ _ (by cbv) rfl hstat hdir hrules
    hreadable hitems hreaches (by decide +kernel) rfl (Or.inl rfl) fun _ hpattern => absurd hpattern List.not_mem_nil
  obtain ⟨names, -, -, hshort⟩ := (hwalk.mem_iff _).1 (List.mem_filter.1 hmem).1
  exact absurd hshort (Nat.not_lt.2 hlong)

end Source

end SymbolSearch
