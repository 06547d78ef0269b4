import Mathlib
import SymbolSearch.Proofs.Ignore.Tree
import SymbolSearch.Proofs.Source.Files

/-!
# Obeying the ignore files of all directories

A source is left out exactly if the ignore file of some directory above it leaves it out; an ignore file has no say outside its
directory, and obeying more of them than that of the root only takes files away (`files_nested`). The exceptions are trees that
cannot be searched for ignore files: the path of one is too long to look at, that of the root may not be looked at, or too many
directories are inside each other. They have no sources at all.
-/

namespace SymbolSearch

/-- A path below another one, seen from a third below that, lies below it exactly if its names begin with those of the third. -/
theorem Path.prefix_of_below? {p : Path} {front names found : List Text}
    (h : (p.extend names).below? (p.extend front) = some found) : front <+: names := by
  have heq := below?_eq_some_iff.1 h
  rw [extend_extend] at heq
  exact ⟨found, (List.append_cancel_left (congrArg Path.names heq)).symm⟩

namespace Ignore

variable {host : Host} {root : Path} {way : Way} {top : Entry} {front names : List Text} {file : RuleFile}

/-- The file holds the rules of the ignore file in the directory that names lead to from the root; that is no link and can be
read. -/
structure Governs (host : Host) (root : Path) (front : List Text) (file : RuleFile) : Prop where
  own : IsOwn host ((root.extend front).child fileName)
  loaded : RuleFile.load? host ((root.extend front).child fileName) = .ok (some file)

/-- The rules of an ignore file are about what lies below its directory. -/
theorem Governs.base (hg : Governs host root front file) : file.base = Path.ofText (host.absolute (root.extend front).text) := by
  have hparent : ((root.extend front).child fileName).parent = root.extend front := by simp [Path.child, Path.parent]
  rw [RuleFile.load?_base hg.loaded, hparent]

/-- The names of a file below the root make a path that goes on from the root, also in its normal form. -/
theorem absolute_of_reaches (h : host.disk.IsAt root way) (hn : (host.disk.endOf way).Reaches names) :
    Path.ofText (host.absolute (root.extend names).text) = (Path.ofText (host.absolute root.text)).extend names := by
  obtain ⟨found, hfound, hfile, -⟩ := hn
  have hlink := Entry.isLink_of_isFile hfile
  obtain ⟨after, hafter, -⟩ := h.extend hfound hlink
  exact absolute_extend h.absolute hafter.written (h.parentName_not_mem hfound hlink)

/-- An ignore file leaves out only what lies below its directory. -/
theorem Governs.prefix_of_ignores (h : host.disk.IsAt root way) (hf : (host.disk.endOf way).ShowsDirectory front)
    (hg : Governs host root front file) (hn : (host.disk.endOf way).Reaches names)
    (hi : file.ignores host (root.extend names) = .ok true) : front <+: names := by
  obtain ⟨hproper, hparent⟩ := h.toIsProper.extend_of_isName (hf.isName h.isWay.isSound.2)
  obtain ⟨found, hbelow⟩ := RuleFile.below_of_ignores hi
  rw [hg.base, absolute_of_reaches h hn, absolute_extend h.absolute hproper.written hparent] at hbelow
  exact Path.prefix_of_below? hbelow

/-- The ignore file of the root speaks of all that lies below the root. -/
theorem Governs.ignores_ne_outsideBase (h : host.disk.IsAt root way) (hg : Governs host root [] file)
    (hn : (host.disk.endOf way).Reaches names) : file.ignores host (root.extend names) ≠ .error .outsideBase := by
  have hbelow : (Path.ofText (host.absolute (root.extend names).text)).below? file.base = some names := by
    rw [hg.base, Path.extend_nil, absolute_of_reaches h hn, Path.below?_extend]
  exact RuleFile.ignores_ne_outsideBase hbelow

/-- The ignore file of some directory on the way from the root to a file leaves the file out. -/
def LeavesOut (host : Host) (root : Path) (names : List Text) : Prop :=
  ∃ front back file, names = front ++ back ∧ back ≠ [] ∧ Governs host root front file ∧
    file.ignores host (root.extend names) = .ok true

/-- The ignore files at and below the root can be obeyed: none holds a rule that is too short, and none meets a rule that cannot
be read when it is asked about a file of one of the suffixes. -/
structure Obeyable (host : Host) (suffixes : List Text) (root : Path) (top : Entry) : Prop where
  loads : ∀ front, top.ShowsDirectory front → IsOwn host ((root.extend front).child fileName) →
    ∃ loaded, RuleFile.load? host ((root.extend front).child fileName) = .ok loaded
  speaks : ∀ front file, top.ShowsDirectory front → Governs host root front file →
    ∀ path, top.FileBelow root path → path.suffix ∈ suffixes → file.ignores host path ≠ .error .badSet

/-- The ignore files at and below the root can be looked for: no path of one is too long, not too many directories are inside each
other, and the disk says whether the root has one. -/
structure Searchable (host : Host) (root : Path) (top : Entry) : Prop where
  short : ∀ front, top.ShowsDirectory front → ¬IsOverlong host (root.extend front)
  shallow : ¬top.Stacks host.depths.ignores root
  answered : ∃ found, host.isFile (root.child fileName).text = .ok found

/-- Ignore files can be loaded where none of them holds a rule that is too short. -/
theorem exists_loadAll {paths : List Path} (h : ∀ path ∈ paths, ∃ loaded, RuleFile.load? host path = .ok loaded) :
    ∃ rules, loadAll host paths = .ok rules := by
  cases hl : loadAll host paths with
  | ok rules => exact ⟨rules, rfl⟩
  | error fault =>
    obtain ⟨-, path, hpath, hshort⟩ := loadAll_error_iff.1 hl
    obtain ⟨loaded, hloaded⟩ := h path hpath
    rw [RuleFile.load?_error_iff.2 ⟨rfl, hshort⟩] at hloaded
    cases hloaded

section

variable (h : host.disk.IsAt root way) (hd : (host.disk.endOf way).isDirectory = true)
  (hdir : host.isDir root.text = .ok true)

include h hd

/-- Below a root something keeps ignore files from being found where the path of one is too long, or where too many directories are
inside each other. -/
theorem exists_halts_iff :
    (∃ fault, Halts host root fault) ↔ (∃ front, (host.disk.endOf way).ShowsDirectory front ∧ IsOverlong host (root.extend front)) ∨
      (host.disk.endOf way).Stacks host.depths.ignores root := by
  rw [← nests_iff h hd]
  constructor
  · rintro ⟨fault, ⟨hmem, hlong⟩ | ⟨hnests, -⟩⟩
    · obtain ⟨front, rfl, hfront⟩ := exists_of_mem_directories hmem
      exact Or.inl ⟨front, ((descends_iff h hd).1 hfront).1, hlong⟩
    · exact Or.inr hnests
  · intro hcause
    by_cases hlong : ∃ directory ∈ (directories host host.depths.ignores root).items, IsOverlong host directory
    · obtain ⟨directory, hmem, hlong⟩ := hlong
      exact ⟨_, .overlong hmem hlong⟩
    · have hshort : ∀ directory ∈ (directories host host.depths.ignores root).items, ¬IsOverlong host directory :=
        fun directory hmem hl => hlong ⟨directory, hmem, hl⟩
      by_cases hnests : Nests host host.depths.ignores root
      · exact ⟨_, .depth hnests hshort⟩
      · obtain ⟨names, hshows, hl⟩ := hcause.resolve_right hnests
        obtain ⟨front, hfront, hl⟩ := exists_descends_of_overlong h hshows hl
        exact absurd hl (hshort _ ((mem_directories_iff hnests).2 ⟨front, rfl, hfront⟩))

/-- What keeps ignore files from being found, where not too many directories are inside each other, is the length of a path. -/
theorem halts_overlong (hs : ¬(host.disk.endOf way).Stacks host.depths.ignores root) {fault : Fault} (hh : Halts host root fault) :
    fault = .disk .nameTooLong := by
  cases hh with
  | overlong hmem hlong => rfl
  | depth hnests hshort => exact absurd ((nests_iff h hd).1 hnests) hs

include hdir

/-- The ignore files of a tree are found unless the path of one is too long or too many directories are inside each other. -/
theorem exists_pathsUnder (hs : ∀ front, (host.disk.endOf way).ShowsDirectory front → ¬IsOverlong host (root.extend front))
    (hn : ¬(host.disk.endOf way).Stacks host.depths.ignores root) : ∃ paths, pathsUnder host root = .ok paths := by
  cases hp : pathsUnder host root with
  | ok paths => exact ⟨paths, rfl⟩
  | error fault =>
    rcases pathsUnder_error_iff.1 hp with ⟨e, he, -⟩ | ⟨-, hhalts⟩
    · rw [hdir] at he
      cases he
    · rcases (exists_halts_iff h hd).1 ⟨fault, hhalts⟩ with ⟨front, hshows, hlong⟩ | hstacks
      · exact absurd hlong (hs front hshows)
      · exact absurd hstacks hn

/-- The rules that are obeyed where the ignore files of all directories are. -/
theorem exists_filesFor_nested {suffixes : List Text} (hc : Obeyable host suffixes root (host.disk.endOf way))
    (hs : Searchable host root (host.disk.endOf way)) :
    ∃ rules, filesFor host true root = .ok rules ∧
      ∀ file, file ∈ rules ↔ ∃ front, (host.disk.endOf way).ShowsDirectory front ∧ Governs host root front file := by
  obtain ⟨paths, hpaths⟩ := exists_pathsUnder h hd hdir hs.short hs.shallow
  obtain ⟨found, hfound⟩ := hs.answered
  have hmem : ∀ path, path ∈ paths ↔ ∃ front, (host.disk.endOf way).ShowsDirectory front ∧
      path = (root.extend front).child fileName ∧ IsOwn host path := by
    intro path
    rw [mem_pathsUnder hdir hpaths]
    constructor
    · rintro ⟨front, hfront, hpath⟩
      exact ⟨front, ((descends_iff h hd).1 hfront).1, hpath⟩
    · rintro ⟨front, hfront, rfl, hown⟩
      exact ⟨front, descends_of_isOwn h hfront hown, rfl, hown⟩
  have hloads : ∀ path ∈ paths, ∃ loaded, RuleFile.load? host path = .ok loaded := by
    intro path hpath
    obtain ⟨front, hfront, rfl, hown⟩ := (hmem path).1 hpath
    exact hc.loads front hfront hown
  obtain ⟨rules, hrules⟩ := exists_loadAll hloads
  have hall : pathsFor host true root = .ok paths := pathsFor_eq_ok_iff.2 ⟨found, hfound, Or.inl ⟨rfl, hpaths⟩⟩
  refine ⟨rules, bind_eq_ok_iff.2 ⟨paths, hall, hrules⟩, fun file => ?_⟩
  rw [mem_loadAll hrules]
  constructor
  · rintro ⟨path, hpath, hloaded⟩
    obtain ⟨front, hfront, rfl, hown⟩ := (hmem path).1 hpath
    exact ⟨front, hfront, hown, hloaded⟩
  · rintro ⟨front, hfront, hown, hloaded⟩
    exact ⟨_, (hmem _).2 ⟨front, hfront, rfl, hown⟩, hloaded⟩

/-- Ignore files can be looked for and obeyed that have been loaded, if all their rules can be read. -/
theorem obeyable_of_filesFor {rules : List RuleFile} (hr : filesFor host true root = .ok rules)
    (hread : ∀ file ∈ rules, ∀ rule ∈ file.rules, (Expression.read? rule.expressionText).isSome = true)
    (suffixes : List Text) :
    Obeyable host suffixes root (host.disk.endOf way) ∧ Searchable host root (host.disk.endOf way) := by
  obtain ⟨paths, hpaths, hloaded⟩ := bind_eq_ok_iff.1 hr
  obtain ⟨found, hfound, ⟨-, hunder⟩ | ⟨hnested, -⟩⟩ := pathsFor_eq_ok_iff.1 hpaths
  · have hmem : ∀ front, (host.disk.endOf way).ShowsDirectory front → IsOwn host ((root.extend front).child fileName) →
        (root.extend front).child fileName ∈ paths :=
      fun front hfront hown => (mem_pathsUnder hdir hunder).2 ⟨front, descends_of_isOwn h hfront hown, rfl, hown⟩
    have hhalts : ¬∃ fault, Halts host root fault := by
      rintro ⟨fault, hhalts⟩
      rw [pathsUnder_error_iff.2 (Or.inr ⟨hdir, hhalts⟩)] at hunder
      cases hunder
    rw [exists_halts_iff h hd, not_or] at hhalts
    refine ⟨⟨?_, ?_⟩, fun front hfront hlong => hhalts.1 ⟨front, hfront, hlong⟩, hhalts.2, found, hfound⟩
    · intro front hfront hown
      cases hl : RuleFile.load? host ((root.extend front).child fileName) with
      | ok loaded => exact ⟨loaded, rfl⟩
      | error fault =>
        have hshort := (RuleFile.load?_error_iff.1 hl).2
        rw [loadAll_error_iff.2 ⟨rfl, _, hmem front hfront hown, hshort⟩] at hloaded
        cases hloaded
    · intro front file hfront hgoverns path _ _
      exact RuleFile.ignores_ne_badSet (hread file ((mem_loadAll hloaded).2 ⟨_, hmem front hfront hgoverns.own, hgoverns.loaded⟩))
  · cases hnested

end

/-- The rules that are obeyed where only the ignore file of the root is, and that is no link. -/
theorem exists_filesFor_root {suffixes : List Text} (hc : Obeyable host suffixes root top) (htop : top.isDirectory = true)
    (hl : host.isLink (root.child fileName).text ≠ .ok true) {found : Bool}
    (hf : host.isFile (root.child fileName).text = .ok found) :
    ∃ rules, filesFor host false root = .ok rules ∧ ∀ file, file ∈ rules ↔ Governs host root [] file := by
  have hown : IsOwn host (root.child fileName) ↔ found = true := by
    obtain ⟨linked, hlinked⟩ := exists_isLink hf
    rw [hlinked] at hl
    cases linked with
    | true => exact absurd rfl hl
    | false => simp [IsOwn, hf, hlinked]
  have hpaths : ∀ path, path ∈ (if found then [root.child fileName] else []) ↔
      path = root.child fileName ∧ IsOwn host (root.child fileName) := by
    intro path
    rw [hown]
    cases found <;> simp
  have hloads : ∀ path ∈ (if found then [root.child fileName] else []), ∃ loaded, RuleFile.load? host path = .ok loaded := by
    intro path hpath
    obtain ⟨rfl, hpathOwn⟩ := (hpaths path).1 hpath
    have hroot := hc.loads [] htop
    rw [Path.extend_nil] at hroot
    exact hroot hpathOwn
  obtain ⟨rules, hrules⟩ := exists_loadAll hloads
  have hall : pathsFor host false root = .ok (if found then [root.child fileName] else []) :=
    pathsFor_eq_ok_iff.2 ⟨found, hf, Or.inr ⟨rfl, rfl⟩⟩
  refine ⟨rules, bind_eq_ok_iff.2 ⟨_, hall, hrules⟩, fun file => ?_⟩
  rw [mem_loadAll hrules]
  constructor
  · rintro ⟨path, hpath, hloaded⟩
    obtain ⟨rfl, hpathOwn⟩ := (hpaths path).1 hpath
    refine ⟨?_, ?_⟩ <;> rw [Path.extend_nil]
    · exact hpathOwn
    · exact hloaded
  · rintro ⟨hpathOwn, hloaded⟩
    rw [Path.extend_nil] at hpathOwn hloaded
    exact ⟨_, (hpaths _).2 ⟨rfl, hpathOwn⟩, hloaded⟩

/-- Obeying the ignore files of all directories keeps a file exactly if none on the way to it leaves it out. -/
theorem ignores_nested_iff (h : host.disk.IsAt root way) {rules : List RuleFile}
    (hr : ∀ file, file ∈ rules ↔ ∃ front, (host.disk.endOf way).ShowsDirectory front ∧ Governs host root front file)
    (hn : (host.disk.endOf way).Reaches names)
    (hb : ∀ file ∈ rules, file.ignores host (root.extend names) ≠ .error .badSet) :
    ignores host true (root.extend names) rules = .ok false ↔ ¬LeavesOut host root names := by
  rw [ignores_eq_false_iff hb (Or.inl rfl)]
  constructor
  · rintro hkept ⟨front, back, file, rfl, hback, hgoverns, hout⟩
    exact hkept file ((hr file).2 ⟨front, hn.showsDirectory hback, hgoverns⟩) hout
  · intro hkept file hfile hout
    obtain ⟨front, hfront, hgoverns⟩ := (hr file).1 hfile
    obtain ⟨back, rfl⟩ := hgoverns.prefix_of_ignores h hfront hn hout
    refine hkept ⟨front, back, file, rfl, ?_, hgoverns, hout⟩
    -- a file stands below the directory, not in its place
    rintro rfl
    rw [List.append_nil] at hn
    exact hn.not_showsDirectory hfront

/-- Obeying only the ignore file of the root keeps a file exactly if that does not leave it out. -/
theorem ignores_root_iff (h : host.disk.IsAt root way) {rules : List RuleFile}
    (hr : ∀ file, file ∈ rules ↔ Governs host root [] file) (hn : (host.disk.endOf way).Reaches names)
    (hb : ∀ file ∈ rules, file.ignores host (root.extend names) ≠ .error .badSet) :
    ignores host false (root.extend names) rules = .ok false ↔
      ∀ file, Governs host root [] file → file.ignores host (root.extend names) ≠ .ok true := by
  rw [ignores_eq_false_iff hb (Or.inr fun file hfile => ((hr file).1 hfile).ignores_ne_outsideBase h hn)]
  exact forall_congr' fun file => by rw [hr]

end Ignore

namespace Source

open Ignore

variable {host : Host} {selection : Selection} {root : Path} {way : Way} {top : Entry} {names : List Text}
  {rules : List RuleFile}

/-- The selection with all ignore files of the tree obeyed, or only that of its root. -/
def Selection.obeying (selection : Selection) (nested : Bool) : Selection :=
  { selection with nestedIgnores := nested }

/-- How the sources where all ignore files are obeyed stand to those where only that of the root is. -/
structure ObeysAll (host : Host) (selection : Selection) (root : Path) (top : Entry) (items plain : List Path) : Prop where
  mem_iff : ∀ path, path ∈ items ↔ ∃ names, path = root.extend names ∧ top.Reaches names ∧
    Utf8.size path.text < Disk.pathLimit ∧ path.suffix ∈ selection.suffixes ∧ ¬LeavesOut host root names ∧
    (selection.included = [] ∨ ∃ pattern ∈ selection.included, Wildcard.isMatch pattern (Path.namesText names) = true) ∧
    ∀ pattern ∈ selection.excluded, Wildcard.isMatch pattern (Path.namesText names) = false
  /-- An ignore file has no say in what lies outside its directory. -/
  confined : ∀ front file names, top.ShowsDirectory front → Governs host root front file → top.Reaches names →
    file.ignores host (root.extend names) = .ok true → front <+: names
  sublist : items.Sublist plain
  eq_plain : (∀ front, front ≠ [] → top.ShowsDirectory front → ¬IsOwn host ((root.extend front).child fileName)) → items = plain

section

variable (h : host.disk.IsAt root way) (hd : (host.disk.endOf way).isDirectory = true)
  (hc : Obeyable host selection.suffixes root (host.disk.endOf way))

include h hd hc

omit hd in
/-- A file counts, where all ignore files are obeyed, if none on the way to it leaves it out. -/
theorem keeps_nested_iff
    (hr : ∀ file, file ∈ rules ↔ ∃ front, (host.disk.endOf way).ShowsDirectory front ∧ Governs host root front file)
    (hn : (host.disk.endOf way).Reaches names) (hsize : Utf8.size (root.extend names).text < Disk.pathLimit) :
    (selection.obeying true).keeps host rules root (root.extend names) = true ↔
      (root.extend names).suffix ∈ selection.suffixes ∧ ¬LeavesOut host root names ∧
      (selection.included = [] ∨ ∃ pattern ∈ selection.included, Wildcard.isMatch pattern (Path.namesText names) = true) ∧
      ∀ pattern ∈ selection.excluded, Wildcard.isMatch pattern (Path.namesText names) = false := by
  rw [Selection.keeps_extend_iff]
  refine and_congr_right fun hsuffix => and_congr_left fun _ => ignores_nested_iff h hr hn fun file hfile => ?_
  obtain ⟨front, hfront, hgoverns⟩ := (hr file).1 hfile
  exact hc.speaks front file hfront hgoverns _ ⟨names, rfl, hn, hsize⟩ hsuffix

/-- A file counts, where only the ignore file of the root is obeyed, if that does not leave it out. -/
theorem keeps_root_iff (hr : ∀ file, file ∈ rules ↔ Governs host root [] file) (hn : (host.disk.endOf way).Reaches names)
    (hsize : Utf8.size (root.extend names).text < Disk.pathLimit) :
    (selection.obeying false).keeps host rules root (root.extend names) = true ↔
      (root.extend names).suffix ∈ selection.suffixes ∧
      (∀ file, Governs host root [] file → file.ignores host (root.extend names) ≠ .ok true) ∧
      (selection.included = [] ∨ ∃ pattern ∈ selection.included, Wildcard.isMatch pattern (Path.namesText names) = true) ∧
      ∀ pattern ∈ selection.excluded, Wildcard.isMatch pattern (Path.namesText names) = false := by
  rw [Selection.keeps_extend_iff]
  refine and_congr_right fun hsuffix => and_congr_left fun _ => ignores_root_iff h hr hn fun file hfile => ?_
  exact hc.speaks [] file hd ((hr file).1 hfile) _ ⟨names, rfl, hn, hsize⟩ hsuffix

/-- The files of a walk that count where all ignore files are obeyed, and those that do where only that of the root is. -/
theorem obeysAll_filter (hdeep : ¬(host.disk.endOf way).TooDeep host.depths.walk root) {rootRules : List RuleFile}
    (hr : ∀ file, file ∈ rules ↔ ∃ front, (host.disk.endOf way).ShowsDirectory front ∧ Governs host root front file)
    (hr' : ∀ file, file ∈ rootRules ↔ Governs host root [] file) :
    ObeysAll host selection root (host.disk.endOf way)
      (((FileTree.ofHost host).walk host.depths.walk root).items.filter ((selection.obeying true).keeps host rules root))
      (((FileTree.ofHost host).walk host.depths.walk root).items.filter ((selection.obeying false).keeps host rootRules root)) := by
  obtain ⟨-, -, hmem⟩ := FileTree.walk_lists h hd hdeep
  generalize ((FileTree.ofHost host).walk host.depths.walk root).items = met at hmem
  have hroot : ∀ names, (host.disk.endOf way).Reaches names → ¬LeavesOut host root names →
      ∀ file, Governs host root [] file → file.ignores host (root.extend names) ≠ .ok true := by
    intro names hreaches hkept file hgoverns hout
    refine hkept ⟨[], names, file, rfl, ?_, hgoverns, hout⟩
    rintro rfl
    exact hreaches.not_showsDirectory hd
  refine ⟨?_, ?_, ?_, ?_⟩
  · intro path
    rw [List.mem_filter, hmem]
    constructor
    · rintro ⟨⟨names, rfl, hreaches, hsize⟩, hkeeps⟩
      exact ⟨names, rfl, hreaches, hsize, (keeps_nested_iff h hc hr hreaches hsize).1 hkeeps⟩
    · rintro ⟨names, rfl, hreaches, hsize, hkeeps⟩
      exact ⟨⟨names, rfl, hreaches, hsize⟩, (keeps_nested_iff h hc hr hreaches hsize).2 hkeeps⟩
  · exact fun front file names hfront hgoverns hreaches hout => hgoverns.prefix_of_ignores h hfront hreaches hout
  · -- what counts in the one way counts in the other, so the one list is the other with some paths left out
    have hboth : met.filter ((selection.obeying true).keeps host rules root) =
        (met.filter ((selection.obeying false).keeps host rootRules root)).filter
          ((selection.obeying true).keeps host rules root) := by
      rw [List.filter_filter]
      refine List.filter_congr fun path hpath => ?_
      obtain ⟨names, rfl, hreaches, hsize⟩ := (hmem path).1 hpath
      rw [Bool.eq_iff_iff, Bool.and_eq_true, keeps_nested_iff h hc hr hreaches hsize,
        keeps_root_iff h hd hc hr' hreaches hsize]
      constructor
      · rintro ⟨hsuffix, hkept, hpasses⟩
        exact ⟨⟨hsuffix, hkept, hpasses⟩, hsuffix, hroot names hreaches hkept, hpasses⟩
      · exact fun hkeeps => hkeeps.1
    rw [hboth]
    exact List.filter_sublist
  · intro halone
    refine List.filter_congr fun path hpath => ?_
    obtain ⟨names, rfl, hreaches, hsize⟩ := (hmem path).1 hpath
    rw [Bool.eq_iff_iff, keeps_nested_iff h hc hr hreaches hsize, keeps_root_iff h hd hc hr' hreaches hsize]
    refine and_congr_right fun _ => and_congr_left fun _ => ⟨hroot names hreaches, ?_⟩
    rintro hkept ⟨front, back, file, rfl, hback, hgoverns, hout⟩
    by_cases hfront : front = []
    · subst hfront
      exact hkept file hgoverns hout
    · exact halone front hfront (hreaches.showsDirectory hback) hgoverns.own

end

/-- What comes of looking for the sources below a root where all ignore files of the tree are obeyed. -/
structure NestedOutcome (host : Host) (selection : Selection) (root : Path) (top : Entry) : Prop where
  /-- Where the path of an ignore file, if there is one or not, is too long to look at, there are no sources. -/
  overlong : (∃ front, top.ShowsDirectory front ∧ IsOverlong host (root.extend front)) → ¬top.Stacks host.depths.ignores root →
    (files host (.ofHost host) (selection.obeying true) root).all = .error (.disk .nameTooLong)
  /-- Where too many directories are inside each other, there are none either; a path that is too long may be met before. -/
  stacked : top.Stacks host.depths.ignores root →
    (files host (.ofHost host) (selection.obeying true) root).all = .error .nestedTooDeep ∨
      (∃ front, top.ShowsDirectory front ∧ IsOverlong host (root.extend front)) ∧
        (files host (.ofHost host) (selection.obeying true) root).all = .error (.disk .nameTooLong)
  /-- Where the ignore file of the root may not be looked for, there are none either. -/
  refused : (∀ front, top.ShowsDirectory front → ¬IsOverlong host (root.extend front)) → ¬top.Stacks host.depths.ignores root →
    ∀ e, host.isFile (root.child fileName).text = .error e →
      (files host (.ofHost host) (selection.obeying true) root).all = .error (.disk e)
  /-- Where the ignore files can be looked for and obeyed, and the walk does not come too deep, a file is left out exactly if the
  ignore file of some directory above it leaves it out. -/
  obeys : Searchable host root top → host.isLink (root.child fileName).text ≠ .ok true →
    Obeyable host selection.suffixes root top → ¬top.TooDeep host.depths.walk root →
    ∃ items plain, (files host (.ofHost host) (selection.obeying true) root).all = .ok items ∧
      (files host (.ofHost host) (selection.obeying false) root).all = .ok plain ∧
      ObeysAll host selection root top items plain
  /-- Where the walk comes too deep, there are no sources, whichever ignore files are obeyed. -/
  tooDeep : Searchable host root top → host.isLink (root.child fileName).text ≠ .ok true →
    Obeyable host selection.suffixes root top → top.TooDeep host.depths.walk root →
    (files host (.ofHost host) (selection.obeying true) root).all = .error .nestedTooDeep ∧
      (files host (.ofHost host) (selection.obeying false) root).all = .error .nestedTooDeep

/-- Where the ignore files to obey are not found, there are no sources. -/
theorem files_all_of_error {fault : Fault} (h : pathsFor host true root = .error fault) :
    (files host (.ofHost host) (selection.obeying true) root).all = .error fault := by
  have hrules : filesFor host (selection.obeying true).nestedIgnores root = .error fault := filesFor_error_iff.2 (Or.inl h)
  rw [files, hrules]
  rfl

/-- Where the ignore files can be looked for and obeyed, the sources are files that the walk meets. -/
theorem exists_files_eq (h : host.disk.IsAt root way) (hd : (host.disk.endOf way).isDirectory = true)
    (hdir : host.isDir root.text = .ok true) (hs : Searchable host root (host.disk.endOf way))
    (hl : host.isLink (root.child fileName).text ≠ .ok true)
    (hc : Obeyable host selection.suffixes root (host.disk.endOf way)) :
    ∃ rules rootRules,
      (∀ file, file ∈ rules ↔ ∃ front, (host.disk.endOf way).ShowsDirectory front ∧ Governs host root front file) ∧
      (∀ file, file ∈ rootRules ↔ Governs host root [] file) ∧
      files host (.ofHost host) (selection.obeying true) root =
        ⟨((FileTree.ofHost host).walk host.depths.walk root).items.filter ((selection.obeying true).keeps host rules root),
          ((FileTree.ofHost host).walk host.depths.walk root).fault⟩ ∧
      files host (.ofHost host) (selection.obeying false) root =
        ⟨((FileTree.ofHost host).walk host.depths.walk root).items.filter ((selection.obeying false).keeps host rootRules root),
          ((FileTree.ofHost host).walk host.depths.walk root).fault⟩ := by
  obtain ⟨rules, hrules, hmem⟩ := exists_filesFor_nested h hd hdir hc hs
  obtain ⟨found, hfound⟩ := hs.answered
  obtain ⟨rootRules, hrootRules, hrootMem⟩ := exists_filesFor_root hc hd hl hfound
  have hreadable : (selection.obeying true).Readable host rules root (host.disk.endOf way) := by
    refine fun path hpath hsuffix => ignores_ne_badSet fun file hfile => ?_
    obtain ⟨front, hfront, hgoverns⟩ := (hmem file).1 hfile
    exact hc.speaks front file hfront hgoverns path hpath hsuffix
  have hreadable' : (selection.obeying false).Readable host rootRules root (host.disk.endOf way) := by
    refine fun path hpath hsuffix => ignores_ne_badSet fun file hfile => ?_
    exact hc.speaks [] file hd ((hrootMem file).1 hfile) path hpath hsuffix
  exact ⟨rules, rootRules, hmem, hrootMem, files_eq h hd hrules hreadable, files_eq h hd hrootRules hreadable'⟩

/-- Where all ignore files of a tree are obeyed, a file is left out exactly if the ignore file of some directory above it leaves it
out, unless the tree cannot be searched for ignore files or comes too deep. -/
theorem files_nested {s : Text} (hroot : Path.ofText s = root) (ha : root.isAbsolute = true)
    (hstat : host.disk.stat host.workingDir.names root.text = .ok top) (htop : top.isDirectory = true) :
    NestedOutcome host selection root top := by
  have hwritten : root.IsWritten := by
    rw [← hroot]
    exact Path.isWritten_ofText s
  have hdir : host.isDir root.text = .ok true := by
    rw [Host.isDir, Disk.isDir, hstat, ← htop]
    rfl
  obtain ⟨way, hway, rfl⟩ := Disk.exists_isAt (Disk.isProper_of_stat ha hwritten hstat) hstat
  have hhalted : ∀ fault, Halts host root fault →
      (files host (.ofHost host) (selection.obeying true) root).all = .error fault := fun fault hhalts =>
    files_all_of_error (pathsFor_error_iff.2 (Or.inl ⟨rfl, pathsUnder_error_iff.2 (Or.inr ⟨hdir, hhalts⟩)⟩))
  refine ⟨?_, ?_, ?_, ?_, ?_⟩
  · intro hlong hshallow
    obtain ⟨fault, hhalts⟩ := (exists_halts_iff hway htop).2 (Or.inl hlong)
    rw [hhalted fault hhalts, halts_overlong hway htop hshallow hhalts]
  · intro hstacks
    obtain ⟨fault, hhalts⟩ := (exists_halts_iff hway htop).2 (Or.inr hstacks)
    have hall := hhalted fault hhalts
    cases hhalts with
    | overlong hmem hlong =>
      obtain ⟨front, rfl, hfront⟩ := exists_of_mem_directories hmem
      exact Or.inr ⟨⟨front, ((descends_iff hway htop).1 hfront).1, hlong⟩, hall⟩
    | depth hnests hshort => exact Or.inl hall
  · intro hshort hshallow e he
    refine files_all_of_error (pathsFor_error_iff.2 (Or.inr ⟨fun _ => ?_, e, he, rfl⟩))
    exact exists_pathsUnder hway htop hdir hshort hshallow
  · intro hs hlink hc hdeep
    obtain ⟨rules, rootRules, hmem, hrootMem, hfiles, hrootFiles⟩ := exists_files_eq hway htop hdir hs hlink hc
    have hends := (FileTree.walk_lists hway htop hdeep).ends
    refine ⟨_, _, Trail.all_eq_ok_iff.2 ⟨?_, congrArg Trail.items hfiles⟩, Trail.all_eq_ok_iff.2 ⟨?_, congrArg Trail.items hrootFiles⟩,
      obeysAll_filter hway htop hc hdeep hmem hrootMem⟩
    · rw [hfiles]
      exact hends
    · rw [hrootFiles]
      exact hends
  · intro hs hlink hc hdeep
    obtain ⟨rules, rootRules, -, -, hfiles, hrootFiles⟩ := exists_files_eq hway htop hdir hs hlink hc
    have hfault := FileTree.walk_fault_of_tooDeep hway hdeep
    rw [Trail.all_eq_error_iff, Trail.all_eq_error_iff, hfiles, hrootFiles]
    exact ⟨hfault, hfault⟩

/-- What lies below the root: ignore files in it and in `a`, a link to one in `ab`, and one in `d` that is not UTF-8. -/
def ignoringTop : Entry :=
  .folder [(".gitignore".toList, .ofAscii "s.c".toList 0), ("s.c".toList, .ofAscii [] 0),
    ("a".toList, .folder [(".gitignore".toList, .ofAscii "b.c".toList 0), ("b.c".toList, .ofAscii [] 0)]),
    ("ab".toList, .folder [(".gitignore".toList, .link "../a/.gitignore".toList), ("b.c".toList, .ofAscii [] 0)]),
    ("d".toList, .folder [(".gitignore".toList, .file [255] 0 false), ("b.c".toList, .ofAscii [] 0)])]

/-- A host with ignore files in several directories below `/ws`. -/
def ignoringHost : Host :=
  .ofRoot [("ws".toList, ignoringTop)] (by cbv)

/-- The rules that leave out the file of one name below a directory. -/
def rulesAgainst (names : List Text) (s : Text) : RuleFile :=
  ⟨⟨.slash, names⟩, [⟨false, false, false, s.map .char⟩]⟩

/-- A directory whose ignore file is a link to a name that is too long. -/
def overlongTop : Entry :=
  .folder [("sub".toList, .folder [(".gitignore".toList, .link (longName ++ longName))])]

def overlongHost : Host :=
  .ofRoot [("ws".toList, overlongTop)] (by decide +kernel)

set_option maxRecDepth 4000 in
/-- The ignore file of `a` leaves out `b.c` there and not in its neighbours; a directory of which the disk does not say whether it
has an ignore file leaves nothing. -/
theorem files_nested_ignoring :
    (∃ items plain,
      (files ignoringHost (.ofHost ignoringHost) (linkedSelection.obeying true) ⟨.slash, ["ws".toList]⟩).all = .ok items ∧
      (files ignoringHost (.ofHost ignoringHost) (linkedSelection.obeying false) ⟨.slash, ["ws".toList]⟩).all = .ok plain ∧
      ObeysAll ignoringHost linkedSelection ⟨.slash, ["ws".toList]⟩ ignoringTop items plain ∧
      ⟨.slash, ["ws".toList, "a".toList, "b.c".toList]⟩ ∉ items ∧ ⟨.slash, ["ws".toList, "ab".toList, "b.c".toList]⟩ ∈ items) ∧
    (files overlongHost (.ofHost overlongHost) (linkedSelection.obeying true) ⟨.slash, ["ws".toList]⟩).all =
      .error (.disk .nameTooLong) := by
  have hroot : Path.ofText "/ws".toList = ⟨.slash, ["ws".toList]⟩ := by cbv
  constructor
  · have hstat : ignoringHost.disk.stat ignoringHost.workingDir.names (Path.text ⟨.slash, ["ws".toList]⟩) =
        .ok ignoringTop := by cbv
    have hrules : filesFor ignoringHost true ⟨.slash, ["ws".toList]⟩ =
        .ok [rulesAgainst ["ws".toList] "s.c".toList, rulesAgainst ["ws".toList, "a".toList] "b.c".toList] := by cbv
    have hread : ∀ file ∈ [rulesAgainst ["ws".toList] "s.c".toList, rulesAgainst ["ws".toList, "a".toList] "b.c".toList],
        ∀ rule ∈ file.rules, (Expression.read? rule.expressionText).isSome = true := by decide +kernel
    have hlink : ignoringHost.isLink (Path.text ⟨.slash, ["ws".toList, ".gitignore".toList]⟩) = .ok false := by cbv
    have hdir : ignoringHost.isDir (Path.text ⟨.slash, ["ws".toList]⟩) = .ok true := by cbv
    have hdeep : ¬ignoringTop.TooDeep ignoringHost.depths.walk ⟨.slash, ["ws".toList]⟩ :=
      Entry.not_tooDeep_of_height (by decide) _
    have hwritten : Path.IsWritten ⟨.slash, ["ws".toList]⟩ := by
      rw [← hroot]
      exact Path.isWritten_ofText _
    obtain ⟨way, hway, hend⟩ := Disk.exists_isAt (Disk.isProper_of_stat rfl hwritten hstat) hstat
    have hsearched := obeyable_of_filesFor hway (by rw [hend]; rfl) hdir hrules hread linkedSelection.suffixes
    rw [hend] at hsearched
    have hlinked : ignoringHost.isLink (Path.text ⟨.slash, ["ws".toList, ".gitignore".toList]⟩) ≠ .ok true := by
      rw [hlink]
      decide
    obtain ⟨items, plain, hitems, hplain, hobeys⟩ :=
      (files_nested hroot rfl hstat rfl).obeys hsearched.2 hlinked hsearched.1 hdeep
    refine ⟨items, plain, hitems, hplain, hobeys, ?_, (hobeys.mem_iff _).2 ?_⟩
    · intro hmem
      obtain ⟨names, hpath, -, -, -, hkept, -⟩ := (hobeys.mem_iff _).1 hmem
      obtain rfl : ["a".toList, "b.c".toList] = names := congrArg (fun p => p.names.tail) hpath
      have hout : (rulesAgainst ["ws".toList, "a".toList] "b.c".toList).ignores ignoringHost
          ⟨.slash, ["ws".toList, "a".toList, "b.c".toList]⟩ = .ok true := by decide +kernel
      exact hkept ⟨["a".toList], ["b.c".toList], _, rfl, List.cons_ne_nil _ _, ⟨⟨by cbv, by cbv⟩, by cbv⟩, hout⟩
    · refine ⟨["ab".toList, "b.c".toList], rfl, ⟨_, ⟨rfl, _, rfl, rfl, _, rfl, rfl⟩, rfl, by decide⟩, by decide, by decide, ?_,
        Or.inr ⟨_, List.mem_cons_self, by decide +kernel⟩, ?_⟩
      · rintro ⟨front, back, file, hsplit, hback, hgoverns, hout⟩
        rcases front with - | ⟨first, - | ⟨second, rest⟩⟩
        · have hload : RuleFile.load? ignoringHost ⟨.slash, ["ws".toList, ".gitignore".toList]⟩ =
              .ok (some (rulesAgainst ["ws".toList] "s.c".toList)) := by cbv
          have hfile := hload.symm.trans hgoverns.loaded
          cases hfile
          have hkept : (rulesAgainst ["ws".toList] "s.c".toList).ignores ignoringHost
              ⟨.slash, ["ws".toList, "ab".toList, "b.c".toList]⟩ = .ok false := by decide +kernel
          cases hkept.symm.trans hout
        · obtain rfl := (List.cons.inj hsplit).1
          have hlinked : ignoringHost.isLink (Path.text ⟨.slash, ["ws".toList, "ab".toList, ".gitignore".toList]⟩) =
              .ok true := by cbv
          cases hlinked.symm.trans hgoverns.own.2
        · have hnil := (List.cons.inj (List.cons.inj hsplit).2).2
          exact hback (List.append_eq_nil_iff.1 hnil.symm).2
      · intro pattern hpattern
        rw [List.mem_singleton.1 hpattern]
        decide +kernel
  · have hstat : overlongHost.disk.stat overlongHost.workingDir.names (Path.text ⟨.slash, ["ws".toList]⟩) =
        .ok overlongTop := by cbv
    have hrefused : overlongHost.isFile (Path.text ⟨.slash, ["ws".toList, "sub".toList, ".gitignore".toList]⟩) =
        .error .nameTooLong := by cbv
    have hshallow : ¬overlongTop.Stacks overlongHost.depths.ignores ⟨.slash, ["ws".toList]⟩ :=
      Entry.not_stacks_of_height (by decide) _
    exact (files_nested hroot rfl hstat rfl).overlong ⟨["sub".toList], ⟨rfl, Or.inl rfl, _, rfl, rfl⟩, hrefused⟩ hshallow

end Source

end SymbolSearch
