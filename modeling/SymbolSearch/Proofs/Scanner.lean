import SymbolSearch.Proofs.Definition.Names
import SymbolSearch.Proofs.Trail
import SymbolSearch.Source.Scanner

/-!
# Scanning and locating

A scan lists the names that the sources define, and locating looks for one of them. Both walk the same trail of sources: where
the scan has an answer, a name is located exactly if it is listed (`sources_of_scan`, `locate_of_scan`), in the first source
that defines it (`FoundIn`).
-/

namespace SymbolSearch

namespace Scanner

/-! ## One source -/

/-- A text in which some line start defines a word holds that word, not behind the line's own start. -/
theorem lineAfter_le {text name lead line : Text} {k : Nat} (hk : name.indexOf? text = some k)
    (ht : text = lead ++ line) (hd : Definition.nameAt? line = some name) :
    Text.lineAfter (text.take k) ≤ Text.lineAfter lead := by
  obtain ⟨behind, indent, groups, rest, hindent, -, hgroups, -, -, rfl⟩ := Definition.nameAt?_eq_some_iff.1 hd
  have hplace : text = (lead ++ (indent ++ Definition.groupsText groups)) ++ name ++ rest := by
    rw [ht]
    simp
  have hfree : '\n' ∉ indent ++ Definition.groupsText groups := by
    intro hmem
    rcases List.mem_append.1 hmem with hmem | hmem
    · exact absurd (hindent _ hmem) (by decide)
    · exact Definition.ne_lineFeed ((Definition.of_mem_groupsText hgroups hmem).imp_right Or.inl) rfl
  have hle := (Text.indexOf?_eq_some hk).2 _ _ hplace
  have hsub : List.Sublist (text.take k) (lead ++ (indent ++ Definition.groupsText groups)) := by
    rw [hplace, List.append_assoc, List.take_append_of_le_length hle]
    exact List.take_sublist _ _
  have hcount := hsub.count_le '\n'
  rw [List.count_append, List.count_eq_zero_of_not_mem hfree] at hcount
  unfold Text.lineAfter
  omega

/-- A word occurs in the texts that define it. -/
theorem exists_indexOf?_of_mem_names {text name : Text} (h : name ∈ Definition.names text) :
    ∃ k, name.indexOf? text = some k := by
  obtain ⟨-, line, hline, behind, indent, groups, rest, -, -, -, -, -, rfl⟩ := Definition.mem_names_iff.1 h
  obtain ⟨lead, -, rfl⟩ := Definition.mem_lineStarts_iff.1 hline
  obtain ⟨k, hk⟩ := Text.exists_indexOf? (lead ++ (indent ++ Definition.groupsText groups)) name rest
  refine ⟨k, ?_⟩
  rw [← hk]
  simp

/-- A source shows where a name occurs exactly if it defines the name. -/
theorem occurrence?_isSome_iff (path : Path) {text name : Text} (hn : Definition.IsWord name)
    (hc : name ∉ Definition.controlWords) :
    (occurrence? name path text).isSome = true ↔ name ∈ Definition.names text := by
  have hfind : (Definition.find? name text).isSome = true ↔ name ∈ Definition.names text := by
    rw [Definition.find?_isSome_iff hn, Definition.mem_names_iff]
    exact (and_iff_right hc).symm
  unfold occurrence?
  split
  · rename_i h
    obtain ⟨k, hk⟩ := exists_indexOf?_of_mem_names (hfind.1 h)
    simp [hk, hfind.1 h]
  · rename_i h
    simp [hfind.not.1 h]

/-! ## All sources -/

/-- The location is that of the first source that defines the name, at the line of the first place that holds it. -/
def FoundIn (sources : List (Path × Text)) (name : Text) (location : Location) : Prop :=
  ∃ before path text after front back, sources = before ++ (path, text) :: after ∧
    (∀ source ∈ before, name ∉ Definition.names source.2) ∧ name ∈ Definition.names text ∧ location.path = path.text ∧
    text = front ++ name ++ back ∧ (∀ front' back', text = front' ++ name ++ back' → front.length ≤ front'.length) ∧
    location.line = front.count '\n' + 1 ∧ 1 ≤ location.line ∧
    ∀ lead line, Definition.EndsLine lead → text = lead ++ line → Definition.nameAt? line = some name →
      location.line ≤ lead.count '\n' + 1

/-- What is found by going through the sources is the location in the first one that defines the name. -/
theorem foundIn_of_findSome? {sources : List (Path × Text)} {name : Text} {location : Location}
    (hn : Definition.IsWord name) (hc : name ∉ Definition.controlWords)
    (h : sources.findSome? (fun (path, text) => occurrence? name path text) = some location) :
    FoundIn sources name location := by
  obtain ⟨before, ⟨path, text⟩, after, hsplit, hsome, hnone⟩ := List.findSome?_eq_some_iff.1 h
  have hsome : occurrence? name path text = some location := hsome
  have hdef : name ∈ Definition.names text := (occurrence?_isSome_iff path hn hc).1 (by rw [hsome]; rfl)
  have hbefore : ∀ source ∈ before, name ∉ Definition.names source.2 := by
    rintro ⟨p, t⟩ hs hmem
    have hnone : occurrence? name p t = none := hnone _ hs
    have hsome := (occurrence?_isSome_iff p hn hc).2 hmem
    rw [hnone] at hsome
    cases hsome
  unfold occurrence? at hsome
  split at hsome
  · obtain ⟨k, hk, rfl⟩ := Option.map_eq_some_iff.1 hsome
    obtain ⟨⟨back, hback⟩, hleast⟩ := Text.indexOf?_eq_some hk
    refine ⟨before, path, text, after, text.take k, back, hsplit, hbefore, hdef, rfl, hback, ?_, rfl, Nat.le_add_left 1 _, ?_⟩
    · intro front' back' he
      exact (List.length_take_le _ _).trans (hleast front' back' he)
    · intro lead line _ ht hd
      exact lineAfter_le hk ht hd
  · cases hsome

variable {scanner : Scanner} {host : Host} {root : Text} {names : List Text}

/-- A scan that has an answer has met all sources, and lists what they define. -/
theorem sources_of_scan (h : scanner.scan host root = .ok names) :
    ∃ sources, (scanner.sources host root).all = .ok sources ∧
      ∀ name, name ∈ names ↔ ∃ source ∈ sources, name ∈ Definition.names source.2 := by
  obtain ⟨sources, hs, he⟩ := bind_eq_ok_iff.1 h
  cases he
  refine ⟨sources, hs, fun name => ?_⟩
  rw [List.mem_eraseDups, List.mem_flatMap]

/-- The names that a scan lists are words and no control words. -/
theorem isWord_of_mem_scan (h : scanner.scan host root = .ok names) {name : Text} (hm : name ∈ names) :
    Definition.IsWord name ∧ name ∉ Definition.controlWords := by
  obtain ⟨sources, -, hmem⟩ := sources_of_scan h
  obtain ⟨source, -, hdef⟩ := (hmem name).1 hm
  exact ⟨Definition.isWord_of_mem_names hdef, (Definition.mem_names_iff.1 hdef).1⟩

/-- Where a scan has an answer, locating a word has one: the first source that defines it, exactly if the scan lists it. -/
theorem locate_of_scan (h : scanner.scan host root = .ok names) {name : Text} (hn : Definition.IsWord name)
    (hc : name ∉ Definition.controlWords) :
    ∃ found, scanner.locate host root name = .ok found ∧ (found.isSome = true ↔ name ∈ names) ∧
      ∀ location, found = some location → FoundIn (scanner.sources host root).items name location := by
  obtain ⟨sources, hs, hmem⟩ := sources_of_scan h
  have hitems := (Trail.all_eq_ok_iff.1 hs).2
  refine ⟨sources.findSome? (fun (path, text) => occurrence? name path text), ?_, ?_, ?_⟩
  · unfold locate
    rw [if_neg (by simpa using hn.ne_nil)]
    exact Trail.findSome?_of_all hs _
  · rw [hmem name, List.isSome_findSome?, List.any_eq_true]
    constructor
    · rintro ⟨⟨path, text⟩, hp, ho⟩
      exact ⟨(path, text), hp, (occurrence?_isSome_iff path hn hc).1 ho⟩
    · rintro ⟨⟨path, text⟩, hp, ho⟩
      exact ⟨(path, text), hp, (occurrence?_isSome_iff path hn hc).2 ho⟩
  · intro location hl
    rw [hitems]
    exact foundIn_of_findSome? hn hc hl

end Scanner

end SymbolSearch
