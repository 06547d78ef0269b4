import Mathlib
import SymbolSearch.Command.Run
import SymbolSearch.Proofs.Disk
import SymbolSearch.Proofs.Symbol.Record
import SymbolSearch.Proofs.Toml.Documents
import SymbolSearch.Proofs.Utf8

/-!
# Settings files

The settings of a document are what its fields are read as, within their bounds and under known keys
(`Settings.check_eq_ok_iff`). A file that gives no settings is a complaint of the command, unless its content breaks one of three
limits of reading (`Settings.Escapes`): such a fault ends the command as it is.
-/

namespace SymbolSearch

/-! ## Fields -/

namespace Pairs

variable {α : Type} {pairs : Pairs} {key : Text} {whenAbsent a : α}

/-- A field is what the value of its key is read as, or what holds where the key is absent. -/
def Gives (pairs : Pairs) (key : Text) (whenAbsent : α) (read : Value → Checked α) (a : α) : Prop :=
  pairs.get? key = none ∧ a = whenAbsent ∨ ∃ v, pairs.get? key = some v ∧ read v = .ok a

/-- A field with bounds, where what holds in its absence is in bounds. -/
theorem gives_bounded_iff {read bounded : Value → Checked α} {inBounds : α → Prop}
    (hread : ∀ {v a}, bounded v = .ok a ↔ read v = .ok a ∧ inBounds a) (habsent : inBounds whenAbsent) :
    pairs.Gives key whenAbsent bounded a ↔ pairs.Gives key whenAbsent read a ∧ inBounds a := by
  constructor
  · rintro (⟨hnone, rfl⟩ | ⟨v, hv, ha⟩)
    · exact ⟨.inl ⟨hnone, rfl⟩, habsent⟩
    · obtain ⟨hra, hb⟩ := hread.1 ha
      exact ⟨.inr ⟨v, hv, hra⟩, hb⟩
  · rintro ⟨⟨hnone, rfl⟩ | ⟨v, hv, ha⟩, hb⟩
    · exact .inl ⟨hnone, rfl⟩
    · exact .inr ⟨v, hv, hread.2 ⟨ha, hb⟩⟩

theorem onlyKeys_eq_ok_iff {known : List Text} : pairs.onlyKeys known = .ok () ↔ ∀ p ∈ pairs, p.1 ∈ known := by
  have hnil : pairs.filter (fun p => !known.contains p.1) = [] ↔ ∀ p ∈ pairs, p.1 ∈ known := by
    simp [List.filter_eq_nil_iff]
  rw [← hnil]
  unfold onlyKeys
  split
  · rename_i h
    exact ⟨fun _ => h, fun _ => rfl⟩
  · rename_i h
    refine ⟨?_, fun hempty => absurd hempty h⟩
    rintro ⟨⟩

end Pairs

/-- A number field whose values lie above zero is valid exactly if it denotes such a number. -/
theorem Value.toPositive_eq_ok_iff {v : Value} {x : Double} :
    v.toPositive = .ok x ↔ v.toDouble = .ok x ∧ x.isPositive = true := by
  rw [Value.toPositive, bind_eq_ok_iff]
  constructor
  · rintro ⟨y, hy, h⟩
    split at h
    · cases h
      exact ⟨hy, ‹_›⟩
    · cases h
  · rintro ⟨hx, hpositive⟩
    exact ⟨x, hx, if_pos hpositive⟩

namespace ProviderSettings

/-- What the fields of a table of provider settings are read as. -/
structure Fields (pairs : Pairs) (settings : ProviderSettings) : Prop where
  symbolsFile : pairs.Gives "symbols_file".toList none (Value.toOptional Value.toText) settings.symbolsFile
  timeout : pairs.Gives "timeout".toList unset.timeout Value.toDouble settings.timeout
  mostWorkers : pairs.Gives "max_workers".toList defaultWorkers Value.toInteger settings.mostWorkers

/-- A question may take some time, and one can be asked. -/
structure InBounds (settings : ProviderSettings) : Prop where
  timeout : settings.timeout.isPositive = true
  mostWorkers : 1 ≤ settings.mostWorkers

theorem inBounds_unset : unset.InBounds :=
  ⟨by decide +kernel, by decide⟩

/-- A value gives provider settings exactly if it is a table with known keys whose fields are read as these and in bounds. -/
theorem ofValue_eq_ok_iff {v : Value} {settings : ProviderSettings} :
    ofValue v = .ok settings ↔
      ∃ pairs, v = .table pairs ∧ Fields pairs settings ∧ settings.InBounds ∧ ∀ p ∈ pairs, p.1 ∈ keys := by
  have htimeout : ∀ {pairs : Pairs} {x : Double}, pairs.Gives "timeout".toList unset.timeout Value.toPositive x ↔
      pairs.Gives "timeout".toList unset.timeout Value.toDouble x ∧ x.isPositive = true :=
    Pairs.gives_bounded_iff Value.toPositive_eq_ok_iff inBounds_unset.timeout
  have hworkers : ∀ {pairs : Pairs} {n : Int}, pairs.Gives "max_workers".toList unset.mostWorkers (Value.toIntegerFrom 1) n ↔
      pairs.Gives "max_workers".toList unset.mostWorkers Value.toInteger n ∧ 1 ≤ n :=
    Pairs.gives_bounded_iff Value.toIntegerFrom_eq_ok_iff inBounds_unset.mostWorkers
  constructor
  · intro h
    obtain ⟨pairs, hpairs, h⟩ := bind_eq_ok_iff.1 h
    obtain ⟨⟨⟨symbolsFile, timeout⟩, mostWorkers, _⟩, hall, h⟩ := bind_eq_ok_iff.1 h
    cases h
    obtain ⟨hfirst, hrest⟩ := Checked.both_eq_ok_iff.1 hall
    obtain ⟨hfile, htime⟩ := Checked.both_eq_ok_iff.1 hfirst
    obtain ⟨hmost, hkeys⟩ := Checked.both_eq_ok_iff.1 hrest
    obtain ⟨htime, hpositive⟩ := htimeout.1 (Pairs.optional_eq_ok_iff.1 htime)
    obtain ⟨hmost, hone⟩ := hworkers.1 (Pairs.optional_eq_ok_iff.1 hmost)
    exact ⟨pairs, Value.toRecord_eq_ok_iff.1 hpairs, ⟨Pairs.optional_eq_ok_iff.1 hfile, htime, hmost⟩, ⟨hpositive, hone⟩,
      Pairs.onlyKeys_eq_ok_iff.1 hkeys⟩
  · rintro ⟨pairs, rfl, hfields, hbounds, hkeys⟩
    have hfirst := Checked.both_eq_ok_iff.2 ⟨Pairs.optional_eq_ok_iff.2 hfields.symbolsFile,
      Pairs.optional_eq_ok_iff.2 (htimeout.2 ⟨hfields.timeout, hbounds.timeout⟩)⟩
    have hrest := Checked.both_eq_ok_iff.2 ⟨Pairs.optional_eq_ok_iff.2 (hworkers.2 ⟨hfields.mostWorkers, hbounds.mostWorkers⟩),
      Pairs.onlyKeys_eq_ok_iff.2 hkeys⟩
    exact bind_eq_ok_iff.2 ⟨pairs, rfl, bind_eq_ok_iff.2 ⟨_, Checked.both_eq_ok_iff.2 ⟨hfirst, hrest⟩, rfl⟩⟩

end ProviderSettings

namespace Settings

/-! ## Settings of a document -/

theorem isSuffix_iff {s : Text} : isSuffix s = true ↔ s.head? = some '.' ∧ 2 ≤ s.length := by
  simp [isSuffix]

/-- Items are suffixes exactly if all of them are texts of that form. -/
theorem suffixesOfItems_eq_ok_iff {items : List Value} {suffixes : List Text} :
    suffixesOfItems items = .ok suffixes ↔ items = suffixes.map .text ∧ ∀ s ∈ suffixes, isSuffix s = true := by
  induction items generalizing suffixes with
  | nil =>
    rw [suffixesOfItems]
    constructor
    · rintro ⟨⟩
      exact ⟨rfl, by simp⟩
    · rintro ⟨h, -⟩
      rw [List.map_eq_nil_iff.1 h.symm]
  | cons v items ih =>
    cases v with
    | text s =>
      rw [suffixesOfItems]
      split
      case isTrue hs =>
        rw [bind_eq_ok_iff]
        constructor
        · rintro ⟨rest, hrest, h⟩
          cases h
          obtain ⟨rfl, hall⟩ := ih.1 hrest
          exact ⟨rfl, List.forall_mem_cons.2 ⟨hs, hall⟩⟩
        · rintro ⟨hitems, hall⟩
          cases suffixes with
          | nil => cases hitems
          | cons t rest =>
            cases hitems
            exact ⟨rest, ih.2 ⟨rfl, (List.forall_mem_cons.1 hall).2⟩, rfl⟩
      case isFalse hs =>
        constructor
        · rintro ⟨⟩
        · rintro ⟨hitems, hall⟩
          cases suffixes with
          | nil => cases hitems
          | cons t rest =>
            cases hitems
            exact absurd (List.forall_mem_cons.1 hall).1 hs
    | _ =>
      constructor
      · rintro ⟨⟩
      · rintro ⟨hitems, -⟩
        cases suffixes <;> cases hitems

theorem suffixesOfValue_eq_ok_iff {v : Value} {suffixes : List Text} :
    suffixesOfValue v = .ok suffixes ↔ v = .list (suffixes.map .text) ∧ ∀ s ∈ suffixes, isSuffix s = true := by
  cases v with
  | list items => simp [suffixesOfValue, suffixesOfItems_eq_ok_iff]
  | _ => simp [suffixesOfValue, Checked.fail]

/-- What the fields of a settings file are read as. -/
structure Fields (pairs : Pairs) (settings : Settings) : Prop where
  tagsFile : pairs.Gives "tags_file".toList unset.tagsFile Value.toText settings.tagsFile
  matchMode : pairs.Gives "match_mode".toList unset.matchMode modeOfValue settings.matchMode
  resolvePatterns : pairs.Gives "resolve_patterns".toList unset.resolvePatterns Value.toBoolean settings.resolvePatterns
  suffixes : pairs.get? "extensions".toList = none ∧ settings.suffixes = unset.suffixes ∨
    pairs.get? "extensions".toList = some (.list (settings.suffixes.map .text))
  included : pairs.Gives "include".toList unset.included (Value.toList Value.toText) settings.included
  excluded : pairs.Gives "exclude".toList unset.excluded (Value.toList Value.toText) settings.excluded
  nestedIgnores : pairs.Gives "nested_gitignore".toList unset.nestedIgnores Value.toBoolean settings.nestedIgnores
  provider : pairs.get? "bridge".toList = none ∧ settings.provider = .unset ∨
    ∃ inner, pairs.get? "bridge".toList = some (.table inner) ∧ ProviderSettings.Fields inner settings.provider

/-- Every suffix starts with a dot and has something behind it, and the settings of the provider are in bounds. -/
structure InBounds (settings : Settings) : Prop where
  suffixes : ∀ suffix ∈ settings.suffixes, suffix.head? = some '.' ∧ 2 ≤ suffix.length
  provider : settings.provider.InBounds

/-- A settings file has no keys but its own, and neither has the table of its provider. -/
structure KeysKnown (pairs : Pairs) : Prop where
  top : ∀ p ∈ pairs, p.1 ∈ keys
  provider : ∀ inner, pairs.get? "bridge".toList = some (.table inner) → ∀ p ∈ inner, p.1 ∈ ProviderSettings.keys

theorem inBounds_unset : unset.InBounds :=
  ⟨by decide, ProviderSettings.inBounds_unset⟩

variable {pairs : Pairs} {settings : Settings}

/-- The suffixes of a document in the form of its fields. -/
theorem gives_suffixes_iff {suffixes : List Text} :
    pairs.Gives "extensions".toList unset.suffixes suffixesOfValue suffixes ↔
      (pairs.get? "extensions".toList = none ∧ suffixes = unset.suffixes ∨
        pairs.get? "extensions".toList = some (.list (suffixes.map .text))) ∧
      ∀ suffix ∈ suffixes, suffix.head? = some '.' ∧ 2 ≤ suffix.length := by
  constructor
  · rintro (⟨hnone, rfl⟩ | ⟨v, hv, hread⟩)
    · exact ⟨.inl ⟨hnone, rfl⟩, inBounds_unset.suffixes⟩
    · obtain ⟨rfl, hall⟩ := suffixesOfValue_eq_ok_iff.1 hread
      exact ⟨.inr hv, fun suffix hmem => isSuffix_iff.1 (hall suffix hmem)⟩
  · rintro ⟨⟨hnone, rfl⟩ | hv, hall⟩
    · exact .inl ⟨hnone, rfl⟩
    · exact .inr ⟨_, hv, suffixesOfValue_eq_ok_iff.2 ⟨rfl, fun suffix hmem => isSuffix_iff.2 (hall suffix hmem)⟩⟩

/-- The provider of a document in the form of its fields. -/
theorem gives_provider_iff {provider : ProviderSettings} :
    pairs.Gives "bridge".toList unset.provider ProviderSettings.ofValue provider ↔
      (pairs.get? "bridge".toList = none ∧ provider = .unset ∨
        ∃ inner, pairs.get? "bridge".toList = some (.table inner) ∧ ProviderSettings.Fields inner provider) ∧
      provider.InBounds ∧
      ∀ inner, pairs.get? "bridge".toList = some (.table inner) → ∀ p ∈ inner, p.1 ∈ ProviderSettings.keys := by
  constructor
  · rintro (⟨hnone, rfl⟩ | ⟨v, hv, hread⟩)
    · refine ⟨.inl ⟨hnone, rfl⟩, ProviderSettings.inBounds_unset, fun inner hinner => ?_⟩
      rw [hnone] at hinner
      cases hinner
    · obtain ⟨inner, rfl, hfields, hbounds, hkeys⟩ := ProviderSettings.ofValue_eq_ok_iff.1 hread
      refine ⟨.inr ⟨inner, hv, hfields⟩, hbounds, fun inner' hinner' => ?_⟩
      rw [hv] at hinner'
      cases hinner'
      exact hkeys
  · rintro ⟨⟨hnone, rfl⟩ | ⟨inner, hinner, hfields⟩, hbounds, hkeys⟩
    · exact .inl ⟨hnone, rfl⟩
    · exact .inr ⟨_, hinner, ProviderSettings.ofValue_eq_ok_iff.2 ⟨inner, rfl, hfields, hbounds, hkeys inner hinner⟩⟩

/-- Pairs give settings exactly if their fields are read as these, all values are in bounds and all keys are known. -/
theorem ofPairs_eq_ok_iff : ofPairs pairs = .ok settings ↔ Fields pairs settings ∧ settings.InBounds ∧ KeysKnown pairs := by
  constructor
  · intro h
    obtain ⟨⟨⟨⟨tagsFile, matchMode⟩, resolvePatterns, suffixes⟩, ⟨⟨included, excluded⟩, nestedIgnores, provider⟩, _⟩, hall, h⟩ :=
      bind_eq_ok_iff.1 h
    cases h
    obtain ⟨hfirst, hrest⟩ := Checked.both_eq_ok_iff.1 hall
    obtain ⟨hsearch, hscan⟩ := Checked.both_eq_ok_iff.1 hfirst
    obtain ⟨htags, hmode⟩ := Checked.both_eq_ok_iff.1 hsearch
    obtain ⟨hresolve, hsuffixes⟩ := Checked.both_eq_ok_iff.1 hscan
    obtain ⟨hfiles, hkeys⟩ := Checked.both_eq_ok_iff.1 hrest
    obtain ⟨hglobs, hlast⟩ := Checked.both_eq_ok_iff.1 hfiles
    obtain ⟨hincluded, hexcluded⟩ := Checked.both_eq_ok_iff.1 hglobs
    obtain ⟨hnested, hprovider⟩ := Checked.both_eq_ok_iff.1 hlast
    obtain ⟨hsuffixes, hdotted⟩ := gives_suffixes_iff.1 (Pairs.optional_eq_ok_iff.1 hsuffixes)
    obtain ⟨hprovider, hbounds, hinner⟩ := gives_provider_iff.1 (Pairs.optional_eq_ok_iff.1 hprovider)
    exact ⟨⟨Pairs.optional_eq_ok_iff.1 htags, Pairs.optional_eq_ok_iff.1 hmode, Pairs.optional_eq_ok_iff.1 hresolve, hsuffixes,
        Pairs.optional_eq_ok_iff.1 hincluded, Pairs.optional_eq_ok_iff.1 hexcluded, Pairs.optional_eq_ok_iff.1 hnested, hprovider⟩,
      ⟨hdotted, hbounds⟩, ⟨Pairs.onlyKeys_eq_ok_iff.1 hkeys, hinner⟩⟩
  · rintro ⟨hfields, hbounds, hknown⟩
    have hsuffixes := Pairs.optional_eq_ok_iff.2 (gives_suffixes_iff.2 ⟨hfields.suffixes, hbounds.suffixes⟩)
    have hprovider := Pairs.optional_eq_ok_iff.2 (gives_provider_iff.2 ⟨hfields.provider, hbounds.provider, hknown.provider⟩)
    have hsearch := Checked.both_eq_ok_iff.2 ⟨Pairs.optional_eq_ok_iff.2 hfields.tagsFile,
      Pairs.optional_eq_ok_iff.2 hfields.matchMode⟩
    have hscan := Checked.both_eq_ok_iff.2 ⟨Pairs.optional_eq_ok_iff.2 hfields.resolvePatterns, hsuffixes⟩
    have hglobs := Checked.both_eq_ok_iff.2 ⟨Pairs.optional_eq_ok_iff.2 hfields.included,
      Pairs.optional_eq_ok_iff.2 hfields.excluded⟩
    have hlast := Checked.both_eq_ok_iff.2 ⟨Pairs.optional_eq_ok_iff.2 hfields.nestedIgnores, hprovider⟩
    have hfirst := Checked.both_eq_ok_iff.2 ⟨hsearch, hscan⟩
    have hrest := Checked.both_eq_ok_iff.2 ⟨Checked.both_eq_ok_iff.2 ⟨hglobs, hlast⟩, Pairs.onlyKeys_eq_ok_iff.2 hknown.top⟩
    exact bind_eq_ok_iff.2 ⟨_, Checked.both_eq_ok_iff.2 ⟨hfirst, hrest⟩, rfl⟩

/-- The early end of a check without a list of suffixes refuses no settings that the full check would give. -/
theorem check_eq_ok_iff {path : Text} :
    check path pairs = .ok settings ↔ Fields pairs settings ∧ settings.InBounds ∧ KeysKnown pairs := by
  rw [check]
  split
  case isTrue hlacks =>
    constructor
    · rintro ⟨⟩
    · rintro ⟨hfields, -, -⟩
      unfold lacksSuffixList at hlacks
      rcases hfields.suffixes with ⟨hnone, -⟩ | hlist
      · rw [hnone] at hlacks
        cases hlacks
      · rw [hlist] at hlacks
        cases hlacks
  case isFalse => rw [mapError_eq_ok_iff, ofPairs_eq_ok_iff]

/-! ## What a file comes to -/

/-- What a settings file may hold that ends a command without a complaint: octets that are no text, a number with too many digits,
or lists and tables inside each other for which there is not enough room. -/
inductive Escapes (room : Nat) (content : Bytes) : Fault → Prop where
  | undecodable (h : ∀ text, content ≠ Utf8.encode text) : Escapes room content .undecodable
  | tooManyDigits {text : Text} (htext : content = Utf8.encode text) (h : Toml.parse room text = .error .tooManyDigits) :
      Escapes room content .tooManyDigits
  | nestedTooDeep {text : Text} (htext : content = Utf8.encode text) (h : Toml.parse room text = .error .nestedTooDeep) :
      Escapes room content .nestedTooDeep

variable {room : Nat} {path : Text} {content : Bytes} {fault : Fault}

/-- Octets that are no text, or a text that shows what it breaks. -/
theorem Escapes.shown (h : Escapes room content fault) :
    (∀ text, content ≠ Utf8.encode text) ∨
      ∃ text, content = Utf8.encode text ∧ (Toml.HasLongNumber text ∨ room < Toml.nesting text) := by
  cases h with
  | undecodable h => exact .inl h
  | tooManyDigits htext h => exact .inr ⟨_, htext, .inl (Toml.parse_error h)⟩
  | nestedTooDeep htext h => exact .inr ⟨_, htext, .inr (Toml.parse_error h)⟩

/-- Octets that the strict reading refuses are those of no text. -/
theorem Escapes.of_decode? (h : Utf8.decode? content = none) : Escapes room content .undecodable := by
  refine .undecodable fun text htext => ?_
  rw [Utf8.decode?_eq_some_iff.2 htext] at h
  cases h

/-- Content gives settings exactly if it is the text of a document whose pairs do. -/
theorem parse_eq_ok_iff :
    parse room path content = .ok settings ↔
      ∃ text pairs, content = Utf8.encode text ∧ Toml.parse room text = .ok pairs ∧
        Fields pairs settings ∧ settings.InBounds ∧ KeysKnown pairs := by
  constructor
  · intro h
    unfold parse at h
    split at h
    · cases h
    · rename_i text htext
      split at h
      case h_4 pairs hpairs =>
        exact ⟨text, pairs, Utf8.decode?_eq_some_iff.1 htext, hpairs, check_eq_ok_iff.1 (mapError_eq_ok_iff.1 h)⟩
      all_goals cases h
  · rintro ⟨text, pairs, htext, hpairs, hgiven⟩
    unfold parse
    rw [Utf8.decode?_eq_some_iff.2 htext]
    simp only [hpairs]
    exact mapError_eq_ok_iff.2 (check_eq_ok_iff.2 hgiven)

/-- A fault that is none of the settings is one that escapes. -/
theorem parse_error_iff (hfault : ∀ error, fault ≠ .settings error) :
    parse room path content = .error fault ↔ Escapes room content fault := by
  constructor
  · intro h
    unfold parse at h
    split at h
    · rename_i hnone
      cases h
      exact .of_decode? hnone
    · rename_i text htext
      have hencode := Utf8.decode?_eq_some_iff.1 htext
      split at h
      · cases h
        exact absurd rfl (hfault _)
      · rename_i hdigits
        cases h
        exact .tooManyDigits hencode hdigits
      · rename_i hdeep
        cases h
        exact .nestedTooDeep hencode hdeep
      · obtain ⟨error, -, rfl⟩ := mapError_eq_error_iff.1 h
        exact absurd rfl (hfault error)
  · intro h
    unfold parse
    cases h with
    | undecodable h =>
      have hnone : Utf8.decode? content = none :=
        Option.eq_none_iff_forall_ne_some.2 fun text htext => h text (Utf8.decode?_eq_some_iff.1 htext)
      rw [hnone]
    | tooManyDigits htext h =>
      rw [Utf8.decode?_eq_some_iff.2 htext]
      simp only [h]
    | nestedTooDeep htext h =>
      rw [Utf8.decode?_eq_some_iff.2 htext]
      simp only [h]

theorem Escapes.ne_settings (h : Escapes room content fault) (error : SettingsError) : fault ≠ .settings error := by
  cases h <;> rintro ⟨⟩

variable {host : Host} {root : Path}

/-- Loading a file that can be read is reading its content. -/
theorem load_eq_parse (hfile : host.isFile (root.child fileName).text = .ok true)
    (hread : host.read (root.child fileName).text = .ok content) :
    load host root = parse host.depths.brackets (root.child fileName).text content := by
  simp only [load, hfile, hread]
  rfl

/-- Settings that cannot be used are a complaint with the exit code two. -/
theorem run_of_settings {invocation : Command.Invocation} {error : SettingsError}
    (hroot : Command.pathOf host invocation.options.root = .ok root) (h : load host root = .error (.settings error)) :
    invocation.run host = .ok ⟨[], "error: ".toList ++ error.message ++ ['\n'], 2⟩ := by
  unfold Command.Invocation.run
  rw [hroot]
  simp only [bind, Except.bind, h]

/-- Any other fault of the settings ends the command. -/
theorem run_of_fault {invocation : Command.Invocation} (hroot : Command.pathOf host invocation.options.root = .ok root)
    (hfault : ∀ error, fault ≠ .settings error) (h : load host root = .error fault) :
    invocation.run host = .error fault := by
  unfold Command.Invocation.run
  rw [hroot]
  simp only [bind, Except.bind, h]

/-- What a settings file that can be read comes to. It gives the settings that its fields are read as, within their bounds and
under known keys; or a fault of the settings, which a command answers with a complaint and the exit code two; or, for content that
escapes, another fault, which ends the command. A text escapes only if it has a long run of digits or many brackets and braces, and
a document that starts with a pair of that kind does escape. -/
theorem load_outcomes (hfile : host.isFile (root.child fileName).text = .ok true)
    (hread : host.read (root.child fileName).text = .ok content) :
    (∀ settings, load host root = .ok settings ↔
        ∃ text pairs, content = Utf8.encode text ∧ Toml.parse host.depths.brackets text = .ok pairs ∧
          Fields pairs settings ∧ settings.InBounds ∧ KeysKnown pairs) ∧
      (∀ fault, (∀ error, fault ≠ .settings error) → (load host root = .error fault ↔ Escapes host.depths.brackets content fault)) ∧
      (∀ invocation : Command.Invocation, Command.pathOf host invocation.options.root = .ok root →
        (∀ error, load host root = .error (.settings error) →
          invocation.run host = .ok ⟨[], "error: ".toList ++ error.message ++ ['\n'], 2⟩) ∧
        ∀ fault, Escapes host.depths.brackets content fault → invocation.run host = .error fault) ∧
      (∀ fault, Escapes host.depths.brackets content fault →
        (∀ text, content ≠ Utf8.encode text) ∨
          ∃ text, content = Utf8.encode text ∧ (Toml.HasLongNumber text ∨ host.depths.brackets < Toml.nesting text)) ∧
      (∀ n rest, host.depths.brackets < 2 * n → content = Utf8.encode ("x=".toList ++ (List.replicate n '[' ++ rest)) →
        Escapes host.depths.brackets content .nestedTooDeep) ∧
      ∀ digits : Text, (∀ d ∈ digits, Text.isAsciiDigit d = true) → digits.head? ≠ some '0' →
        Number.digitLimit < digits.length → content = Utf8.encode ("x=".toList ++ digits) →
          Escapes host.depths.brackets content .tooManyDigits := by
  have hload := load_eq_parse hfile hread
  refine ⟨?_, ?_, ?_, fun fault => Escapes.shown, ?_, ?_⟩
  · intro settings
    rw [hload, parse_eq_ok_iff]
  · intro fault hfault
    rw [hload, parse_error_iff hfault]
  · intro invocation hroot
    refine ⟨fun error => run_of_settings hroot, fun fault hescapes => ?_⟩
    refine run_of_fault hroot hescapes.ne_settings ?_
    rw [hload, parse_error_iff hescapes.ne_settings]
    exact hescapes
  · intro n rest hn htext
    exact .nestedTooDeep htext (Toml.parse_brackets hn rest)
  · intro digits hdigits hzero hlong htext
    exact .tooManyDigits htext (Toml.parse_digits hdigits hzero hlong)

/-- A workspace whose settings file is one octet that starts no character. -/
def oddOctetHost : Host :=
  .ofRoot [("ws".toList, .folder [(fileName, .file [0xFF] 0 false)])] (by cbv)

/-- A scan of this workspace. -/
def oddOctetScan : Command.Invocation :=
  .scan ⟨.value "/ws".toList, none, none, none, false⟩

/-- An octet that starts no character in a settings file ends the command without a complaint. -/
theorem load_outcomes_odd_octet :
    (oddOctetHost.isFile (Path.child ⟨.slash, ["ws".toList]⟩ fileName).text = .ok true ∧
        oddOctetHost.read (Path.child ⟨.slash, ["ws".toList]⟩ fileName).text = .ok [0xFF]) ∧
      load oddOctetHost ⟨.slash, ["ws".toList]⟩ = .error .undecodable ∧ oddOctetScan.run oddOctetHost = .error .undecodable := by
  have hfile : oddOctetHost.isFile (Path.child ⟨.slash, ["ws".toList]⟩ fileName).text = .ok true := by cbv
  have hread : oddOctetHost.read (Path.child ⟨.slash, ["ws".toList]⟩ fileName).text = .ok [0xFF] := by cbv
  have hroot : Command.pathOf oddOctetHost oddOctetScan.options.root = .ok ⟨.slash, ["ws".toList]⟩ := by cbv
  have hescapes : Escapes oddOctetHost.depths.brackets [0xFF] .undecodable := .of_decode? (by decide)
  obtain ⟨-, hfault, hrun, -⟩ := load_outcomes hfile hread
  exact ⟨⟨hfile, hread⟩, (hfault _ hescapes.ne_settings).2 hescapes, (hrun _ hroot).2 _ hescapes⟩

end Settings

end SymbolSearch
