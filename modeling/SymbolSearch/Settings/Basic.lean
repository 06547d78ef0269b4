import SymbolSearch.Data.Coerce
import SymbolSearch.Fault
import SymbolSearch.Query.Matching
import SymbolSearch.Source.Files
import SymbolSearch.Workspace

/-!
# Settings

What a workspace may set, and what holds where it sets nothing. Keys that are not known are issues.
-/

namespace SymbolSearch

/-- Settings of the workspace symbol provider. -/
structure ProviderSettings where
  /-- A dump of workspace symbols. -/
  symbolsFile : Option Text
  /-- The seconds that each question may take. -/
  timeout : Double
  /-- The most questions that are asked at the same time. -/
  mostWorkers : Int

/-- Settings of a workspace. -/
structure Settings where
  tagsFile : Text
  matchMode : MatchMode
  resolvePatterns : Bool
  suffixes : List Text
  included : List Text
  excluded : List Text
  nestedIgnores : Bool
  provider : ProviderSettings

namespace ProviderSettings

/-- The most workers unless a workspace says otherwise. -/
def defaultWorkers : Int := 4

/-- Settings of a workspace that says nothing about its provider. -/
def unset : ProviderSettings :=
  ⟨none, Double.ofDecimal false 5 0, defaultWorkers⟩

/-- The keys of a table of provider settings. -/
def keys : List Text :=
  ["symbols_file", "timeout", "max_workers"].map String.toList

/-- Checks a table of provider settings. -/
def ofValue (v : Value) : Checked ProviderSettings := do
  let pairs ← v.toRecord
  let ((symbolsFile, timeout), (mostWorkers, _)) ← Checked.both
    (Checked.both
      (pairs.optional "symbols_file".toList unset.symbolsFile (Value.toOptional Value.toText))
      (pairs.optional "timeout".toList unset.timeout Value.toPositive))
    (Checked.both
      (pairs.optional "max_workers".toList unset.mostWorkers (Value.toIntegerFrom 1))
      (pairs.onlyKeys keys))
  .ok ⟨symbolsFile, timeout, mostWorkers⟩

end ProviderSettings

namespace Settings

/-- Settings of a workspace that says nothing. -/
def unset : Settings where
  tagsFile := Workspace.placeholder ++ "/.tags".toList
  matchMode := .exact
  resolvePatterns := false
  suffixes := Source.defaultSuffixes
  included := []
  excluded := []
  nestedIgnores := false
  provider := .unset

/-- The keys of a settings file. -/
def keys : List Text :=
  ["tags_file", "match_mode", "resolve_patterns", "extensions", "include", "exclude", "nested_gitignore", "bridge"].map
    String.toList

/-- A match mode by its word. -/
def modeOfValue : Value → Checked MatchMode
  | .text s =>
    match MatchMode.ofText? s with
    | some mode => .ok mode
    | none => .fail .notAChoice
  | _ => .fail .notAChoice

/-- A suffix starts with a dot and has something behind it. -/
def isSuffix (s : Text) : Bool :=
  s.head? = some '.' && 2 ≤ s.length

/-- What is said of a value with an integer that has too many digits to be written. -/
def tooLongToShow : Text :=
  ("Exceeds the limit (4300 digits) for integer string conversion; " ++
    "use sys.set_int_max_str_digits() to increase the limit").toList

/-- Why a value is no suffix. -/
def suffixRefusal (v : Value) : IssueKind :=
  .refused (if v.isTooLongToShow then tooLongToShow
    else "Invalid extension ".toList ++ v.show ++ ": expected a suffix like '.c'".toList)

/-- Suffixes up to the first value that is none. -/
def suffixesOfItems : List Value → Checked (List Text)
  | [] => .ok []
  | .text s :: rest =>
    if isSuffix s then do .ok (s :: (← suffixesOfItems rest)) else .fail (suffixRefusal (.text s))
  | v :: _ => .fail (suffixRefusal v)

/-- A list of suffixes. -/
def suffixesOfValue : Value → Checked (List Text)
  | .list items => suffixesOfItems items
  | _ => .fail .notList

/-- A value that is no list stands where suffixes are expected. -/
def lacksSuffixList (pairs : Pairs) : Bool :=
  match pairs.get? "extensions".toList with
  | none | some (.list _) => false
  | some _ => true

/-- Checks the pairs of a settings file, with all their issues. -/
def ofPairs (pairs : Pairs) : Checked Settings := do
  let (((tagsFile, matchMode), (resolvePatterns, suffixes)), (((included, excluded), (nestedIgnores, provider)), _)) ←
    Checked.both
      (Checked.both
        (Checked.both
          (pairs.optional "tags_file".toList unset.tagsFile Value.toText)
          (pairs.optional "match_mode".toList unset.matchMode modeOfValue))
        (Checked.both
          (pairs.optional "resolve_patterns".toList unset.resolvePatterns Value.toBoolean)
          (pairs.optional "extensions".toList unset.suffixes suffixesOfValue)))
      (Checked.both
        (Checked.both
          (Checked.both
            (pairs.optional "include".toList unset.included (Value.toList Value.toText))
            (pairs.optional "exclude".toList unset.excluded (Value.toList Value.toText)))
          (Checked.both
            (pairs.optional "nested_gitignore".toList unset.nestedIgnores Value.toBoolean)
            (pairs.optional "bridge".toList unset.provider ProviderSettings.ofValue)))
        (pairs.onlyKeys keys))
  .ok ⟨tagsFile, matchMode, resolvePatterns, suffixes, included, excluded, nestedIgnores, provider⟩

/-- Checks the pairs of the settings file at a path. -/
def check (path : Text) (pairs : Pairs) : Except SettingsError Settings :=
  if lacksSuffixList pairs then .error (.suffixesNotAList path)
  else (ofPairs pairs).mapError (SettingsError.invalid path)

/-- The path of the tags file of a workspace. -/
def tagsPath (settings : Settings) (home : Text) (root : Path) : Except Fault Path :=
  Workspace.expand home settings.tagsFile root

/-- The path of the symbol dump of a workspace, if it has one. -/
def symbolsPath (settings : Settings) (home : Text) (root : Path) : Except Fault (Option Path) :=
  match settings.provider.symbolsFile with
  | none => .ok none
  | some file => (Workspace.expand home file root).map some

/-- The source files that the settings select. -/
def selection (settings : Settings) : Source.Selection :=
  ⟨settings.suffixes, settings.included, settings.excluded, settings.nestedIgnores⟩

end Settings

end SymbolSearch
