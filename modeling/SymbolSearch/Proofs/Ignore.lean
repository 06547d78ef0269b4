import SymbolSearch.Proofs.Answer
import SymbolSearch.Ignore.File

/-!
# Where ignore files cannot be obeyed

The rules of ignore files are read before any path is looked at, and a line that ends where a character is needed stops that
(`filesFor_error_iff`). Whether a rule can be matched shows only when it is tried, so a rule that cannot be read matters for the
paths that no rule before it decides (`ignores_error_iff`).
-/

namespace SymbolSearch.Ignore

variable {host : Host} {nested : Bool} {path root : Path} {fault : Fault} {s : Text}

/-! ## Reading rules -/

/-- A text that is needed is refused only because it is empty. -/
theorem needed_error (h : needed s = .error fault) : fault = .ruleTooShort := by
  unfold needed at h
  split at h <;> cases h
  rfl

/-- An escape is refused only because nothing follows it. -/
theorem dropEscape_error (h : dropEscape s = .error fault) : fault = .ruleTooShort := by
  unfold dropEscape at h
  split at h <;> cases h
  rfl

/-- The parts of a rule are refused only because a set is empty. -/
theorem globsFrom_error {skip : Nat} (h : globsFrom skip s = .error fault) : fault = .ruleTooShort := by
  induction s generalizing skip with
  | nil => cases h
  | cons c rest ih =>
    unfold globsFrom at h
    split at h
    · exact ih h
    · split at h
      · split at h
        · exact ih (map_eq_error_iff.1 h)
        · split at h <;> exact ih (map_eq_error_iff.1 h)
      · split at h
        · exact ih (map_eq_error_iff.1 h)
        · split at h
          · exact ih (map_eq_error_iff.1 h)
          · split at h
            · split at h
              · exact ih (map_eq_error_iff.1 h)
              · split at h
                · cases h
                  rfl
                · exact ih (map_eq_error_iff.1 h)
                · exact ih (map_eq_error_iff.1 h)
            · exact ih (map_eq_error_iff.1 h)

/-- A body is no rule only because it ends too early. -/
theorem Rule.ofBody_error {negated : Bool} (h : Rule.ofBody negated s = .error fault) : fault = .ruleTooShort := by
  simp only [Rule.ofBody, bind_eq_error_iff] at h
  rcases h with h | ⟨_, -, h | ⟨_, -, h | ⟨_, -, h | ⟨_, -, h | ⟨_, -, h | ⟨_, -, h | ⟨_, -, h⟩⟩⟩⟩⟩⟩⟩
  · exact needed_error h
  · exact needed_error h
  · exact needed_error h
  · exact needed_error h
  · exact needed_error h
  · exact dropEscape_error h
  · exact globsFrom_error h
  · cases h

/-- A line is no rule only because it ends too early. -/
theorem Rule.ofLine_error {line : Text} (h : Rule.ofLine line = .error fault) : fault = .ruleTooShort := by
  simp only [Rule.ofLine] at h
  generalize joinStars none 0 _ = body at h
  split at h
  · cases h
  · split at h
    · cases h
    · exact Rule.ofBody_error (map_eq_error_iff.1 h)

/-- The rules of lines are refused exactly if some line ends too early. -/
theorem rulesOf_error_iff {lines : List Text} :
    rulesOf lines = .error fault ↔ fault = .ruleTooShort ∧ ∃ line ∈ lines, Rule.ofLine line = .error .ruleTooShort := by
  induction lines with
  | nil => simp [rulesOf]
  | cons line rest ih =>
    simp only [rulesOf, bind_eq_error_iff, List.mem_cons, exists_eq_or_imp]
    cases h : Rule.ofLine line with
    | error e =>
      obtain rfl := Rule.ofLine_error h
      simp [eq_comm]
    | ok rule => simp [ih]

/-! ## Ignore files -/

/-- The lines of the ignore file at a path whose rules are read: all of them, and if it is not UTF-8 those in front of the
failure. -/
def linesRead (host : Host) (path : Path) : List Text :=
  match host.read path.text with
  | .error _ => []
  | .ok content =>
    match Utf8.decode? content with
    | some text => (Text.normalizeNewlines text).splitOn '\n'
    | none => linesBeforeFailure content

/-- Some line of the ignore file at a path ends where a character is needed. -/
def HasShortRule (host : Host) (path : Path) : Prop :=
  ∃ line ∈ linesRead host path, Rule.ofLine line = .error .ruleTooShort

/-- An ignore file is refused exactly if a rule in it is too short. -/
theorem RuleFile.load?_error_iff :
    RuleFile.load? host path = .error fault ↔ fault = .ruleTooShort ∧ HasShortRule host path := by
  unfold RuleFile.load? HasShortRule linesRead
  cases host.read path.text with
  | error e => simp
  | ok content =>
    cases hd : Utf8.decode? content with
    | some text =>
      simp only [map_eq_error_iff, RuleFile.parse, bind_eq_error_iff, rulesOf_error_iff, hd]
      simp
    | none => simp only [map_eq_error_iff, rulesOf_error_iff, hd]

/-- Ignore files are refused exactly if a rule in one of them is too short. -/
theorem loadAll_error_iff {paths : List Path} :
    loadAll host paths = .error fault ↔ fault = .ruleTooShort ∧ ∃ path ∈ paths, HasShortRule host path := by
  induction paths with
  | nil => simp [loadAll]
  | cons path rest ih =>
    simp only [loadAll, bind_eq_error_iff, List.mem_cons, exists_eq_or_imp, RuleFile.load?_error_iff]
    cases h : RuleFile.load? host path with
    | error e =>
      obtain ⟨rfl, hshort⟩ := RuleFile.load?_error_iff.1 h
      simp [hshort]
    | ok file =>
      have hlong : ¬HasShortRule host path := by
        intro hshort
        rw [RuleFile.load?_error_iff.2 ⟨rfl, hshort⟩] at h
        cases h
      simp [ih, hlong]

/-- The ignore files that are loaded are those at the paths that can be read. -/
theorem mem_loadAll {paths : List Path} {rules : List RuleFile} {file : RuleFile} (h : loadAll host paths = .ok rules) :
    file ∈ rules ↔ ∃ path ∈ paths, RuleFile.load? host path = .ok (some file) := by
  induction paths generalizing rules with
  | nil =>
    cases h
    simp
  | cons path rest ih =>
    obtain ⟨loaded, hloaded, h⟩ := bind_eq_ok_iff.1 h
    obtain ⟨others, hothers, h⟩ := bind_eq_ok_iff.1 h
    cases h
    simp [ih hothers, hloaded]

/-- Where the disk says whether the root has an ignore file, that one is obeyed or, if all of them are, those that are found. -/
theorem pathsFor_eq_ok_iff {paths : List Path} :
    pathsFor host nested root = .ok paths ↔ ∃ found, host.isFile (root.child fileName).text = .ok found ∧
      (nested = true ∧ pathsUnder host root = .ok paths ∨
        nested = false ∧ paths = if found then [root.child fileName] else []) := by
  rw [pathsFor, bind_eq_ok_iff]
  simp only [bind_eq_ok_iff, mapError_eq_ok_iff]
  cases nested with
  | false => simp [eq_comm]
  | true =>
    constructor
    · rintro ⟨found, hfound, isThere, hisThere, hpaths⟩
      cases hpaths
      exact ⟨isThere, hisThere, Or.inl ⟨rfl, hfound⟩⟩
    · rintro ⟨isThere, hisThere, ⟨-, hfound⟩ | ⟨hnested, -⟩⟩
      · exact ⟨paths, hfound, isThere, hisThere, rfl⟩
      · cases hnested

/-- The paths of the ignore files that a search below `root` obeys; none if they cannot be looked for. -/
def obeyed (host : Host) (nested : Bool) (root : Path) : List Path :=
  (pathsFor host nested root).toOption.getD []

/-- The ignore files of a tree are refused where they cannot be looked for, and else exactly if a rule in one of them is too
short. -/
theorem filesFor_error_iff :
    filesFor host nested root = .error fault ↔ pathsFor host nested root = .error fault ∨
      fault = .ruleTooShort ∧ ∃ path ∈ obeyed host nested root, HasShortRule host path := by
  unfold filesFor obeyed
  rw [bind_eq_error_iff]
  cases pathsFor host nested root with
  | error e => simp [Except.toOption]
  | ok paths => simp [Except.toOption, loadAll_error_iff]

/-! ## Trying rules -/

/-- A rule fails to say whether it names a path exactly if it cannot be read. -/
theorem Rule.matchesPath_error_iff {rule : Rule} :
    rule.matchesPath s = .error fault ↔ fault = .badSet ∧ Expression.read? rule.expressionText = none := by
  unfold Rule.matchesPath
  cases Expression.read? rule.expressionText <;> simp [eq_comm]

/-- One of the rules cannot be read, and no rule in front of it names the path. -/
def MeetsUnreadable (s : Text) : List Rule → Prop :=
  Until (fun rule => rule.matchesPath s = .ok false) (fun rule => Expression.read? rule.expressionText = none)

/-- Trying rules one after the other fails exactly if one that cannot be read is met. -/
theorem firstMatch_error_iff {rules : List Rule} :
    firstMatch s rules = .error fault ↔ fault = .badSet ∧ MeetsUnreadable s rules := by
  induction rules with
  | nil => simp [firstMatch, MeetsUnreadable, not_until_nil]
  | cons rule rest ih =>
    simp only [firstMatch, bind_eq_error_iff, Rule.matchesPath_error_iff, MeetsUnreadable, until_cons_iff] at ih ⊢
    cases h : rule.matchesPath s with
    | error e =>
      obtain ⟨rfl, hread⟩ := Rule.matchesPath_error_iff.1 h
      simp [hread]
    | ok named =>
      have hread : Expression.read? rule.expressionText ≠ none := by
        intro hread
        rw [Rule.matchesPath_error_iff.2 ⟨rfl, hread⟩] at h
        cases h
      cases named <;> simp [hread, ih]

/-- The file meets a rule that cannot be read when it is asked about a path below its directory. -/
def RuleFile.Breaks (file : RuleFile) (host : Host) (path : Path) : Prop :=
  ∃ names, (Path.ofText (host.absolute path.text)).below? file.base = some names ∧
    MeetsUnreadable (Path.namesText names) file.order

/-- A file of rules fails to speak of a path only because it is not below its directory, or because of an unreadable rule. -/
theorem RuleFile.ignores_error {file : RuleFile} (h : file.ignores host path = .error fault) :
    fault = .outsideBase ∨ fault = .badSet := by
  unfold RuleFile.ignores at h
  split at h
  · cases h
  · split at h
    · cases h
      exact Or.inl rfl
    · rcases bind_eq_error_iff.1 h with h | ⟨found, -, h⟩
      · exact Or.inr (firstMatch_error_iff.1 h).1
      · cases h

/-- The unreadable rules that fail are those that are met. -/
theorem RuleFile.ignores_badSet_iff {file : RuleFile} :
    file.ignores host path = .error .badSet ↔ file.Breaks host path := by
  unfold RuleFile.ignores RuleFile.Breaks
  split
  · rename_i hrules
    have horder : file.order = [] := by
      have hnil : file.rules = [] := by simpa using hrules
      simp [RuleFile.order, hnil]
    simp [horder, MeetsUnreadable, not_until_nil]
  · cases (Path.ofText (host.absolute path.text)).below? file.base with
    | none => simp
    | some names => simp [bind_eq_error_iff, firstMatch_error_iff]

/-- A file of rules speaks of the paths below its directory. -/
theorem RuleFile.ignores_ne_outsideBase {file : RuleFile} {names : List Text}
    (h : (Path.ofText (host.absolute path.text)).below? file.base = some names) :
    file.ignores host path ≠ .error .outsideBase := by
  intro hout
  unfold RuleFile.ignores at hout
  rw [h] at hout
  split at hout
  · cases hout
  · rcases bind_eq_error_iff.1 hout with hout | ⟨found, -, hout⟩
    · cases (firstMatch_error_iff.1 hout).1
    · cases hout

/-- A file of rules leaves out only paths below its directory. -/
theorem RuleFile.below_of_ignores {file : RuleFile} (h : file.ignores host path = .ok true) :
    ∃ names, (Path.ofText (host.absolute path.text)).below? file.base = some names := by
  unfold RuleFile.ignores at h
  split at h
  · cases h
  · split at h
    · cases h
    · exact ⟨_, ‹_›⟩

/-- Files that all speak of a path, or of which several are obeyed, keep it exactly if none of them leaves it out. -/
theorem ignores_eq_false_iff {files : List RuleFile} (hb : ∀ file ∈ files, file.ignores host path ≠ .error .badSet)
    (ho : nested = true ∨ ∀ file ∈ files, file.ignores host path ≠ .error .outsideBase) :
    ignores host nested path files = .ok false ↔ ∀ file ∈ files, file.ignores host path ≠ .ok true := by
  induction files with
  | nil => simp [ignores]
  | cons file rest ih =>
    have hrest := ih (fun other hother => hb other (List.mem_cons_of_mem _ hother))
      (ho.imp_right fun ho other hother => ho other (List.mem_cons_of_mem _ hother))
    unfold ignores
    cases h : file.ignores host path with
    | ok out => cases out <;> simp [h, hrest]
    | error e =>
      rcases RuleFile.ignores_error h with rfl | rfl
      · rcases ho with rfl | ho
        · simp [h, hrest]
        · exact absurd h (ho file List.mem_cons_self)
      · exact absurd h (hb file List.mem_cons_self)

/-- The file lets the next one speak of a path: it does not leave it out, or, of several files, it is about other paths. -/
def RuleFile.Passes (file : RuleFile) (host : Host) (nested : Bool) (path : Path) : Prop :=
  file.ignores host path = .ok false ∨ nested = true ∧ file.ignores host path = .error .outsideBase

/-- The files fail to say whether they leave a path out where a single one does not speak of it, and else exactly if a rule that
cannot be read is met in some file and all files before it have passed the path on. -/
theorem ignores_error_iff {files : List RuleFile} :
    ignores host nested path files = .error fault ↔
      fault = .badSet ∧ Until (fun file => file.Passes host nested path) (fun file => file.Breaks host path) files ∨
      fault = .outsideBase ∧ nested = false ∧
        Until (fun file => file.Passes host nested path) (fun file => file.ignores host path = .error .outsideBase) files := by
  induction files with
  | nil => simp [ignores, not_until_nil]
  | cons file rest ih =>
    simp only [until_cons_iff, ← RuleFile.ignores_badSet_iff, RuleFile.Passes] at ih ⊢
    unfold ignores
    cases h : file.ignores host path with
    | ok out => cases out <;> simp [ih]
    | error e =>
      rcases RuleFile.ignores_error h with rfl | rfl
      · cases nested <;> simp [ih, eq_comm]
      · simp [eq_comm]

/-- The files fail in a way that a scan does not contain exactly if a rule that cannot be read is met. -/
theorem ignores_uncontained_iff {files : List RuleFile} :
    (∃ fault, ignores host nested path files = .error fault ∧ fault.isContained = false) ↔
      Until (fun file => file.Passes host nested path) (fun file => file.Breaks host path) files := by
  simp only [ignores_error_iff]
  constructor
  · rintro ⟨fault, ⟨-, h⟩ | ⟨rfl, -⟩, hc⟩
    · exact h
    · cases hc
  · exact fun h => ⟨.badSet, Or.inl ⟨rfl, h⟩, rfl⟩

end SymbolSearch.Ignore
