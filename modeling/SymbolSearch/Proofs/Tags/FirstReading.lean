import Mathlib
import SymbolSearch.Tags.LineFinder

/-!
# Each file is read once

A finder is asked again and again while the files change under it. The first search in a file reads it, and every later answer
about the file comes from that reading (`find_readsOnce`), also if the file was not there and appears later. A command that is no
search reads nothing. `firstSources` says which state of the files a search is answered from without looking at what a finder
remembers, and `recalled_after` ties the two together: by induction over what happens, what is remembered of a file is what stood
in it at the first search.
-/

namespace SymbolSearch.Tags

/-- What a command finds among the lines of a file, if these are there. -/
def answerIn (lines : Option (List Text)) (command : Text) : Option Nat :=
  (SearchPattern.ofCommand? command).bind fun pattern => lines.bind pattern.firstLine?

/-- The files that can be read, with their texts. -/
abbrev Sources := Text → Option Text

namespace Sources

/-- Reading a file; one that is not there is not found. -/
def readText (sources : Sources) : ReadText := fun path =>
  (sources path).elim (.error (.disk .notFound)) .ok

/-- The lines of a file. -/
def lines? (sources : Sources) (path : Text) : Option (List Text) :=
  (sources path).map Text.lines

/-- What a command finds in a file, without any memory of files. -/
def answer (sources : Sources) (path command : Text) : Option Nat :=
  answerIn (sources.lines? path) command

end Sources

/-- A command of at least two characters that starts and ends with the same delimiter. -/
def IsDelimited (command : Text) : Prop :=
  2 ≤ command.length ∧ (command.head? = some '/' ∨ command.head? = some '?') ∧ command.getLast? = command.head?

instance (command : Text) : Decidable (IsDelimited command) :=
  inferInstanceAs (Decidable (_ ∧ _ ∧ _))

/-- Exactly the delimited commands are read as search patterns. -/
theorem isSome_ofCommand?_iff {command : Text} : (SearchPattern.ofCommand? command).isSome = true ↔ IsDelimited command := by
  have hbody : (SearchPattern.ofCommand? command).isSome = (SearchPattern.body? command).isSome := by
    unfold SearchPattern.ofCommand?
    cases SearchPattern.body? command <;> rfl
  rw [hbody, IsDelimited]
  cases command with
  | nil => simp [SearchPattern.body?]
  | cons d rest =>
    cases rest with
    | nil => simp [SearchPattern.body?]
    | cons c rest =>
      simp only [SearchPattern.body?, List.getLast?_cons_cons, List.head?_cons, Option.some.injEq]
      by_cases hd : (d = '/' ∨ d = '?') ∧ (c :: rest).getLast? = some d
      · simp [hd]
      · simp [hd]

theorem ofCommand?_eq_none {command : Text} (h : ¬IsDelimited command) : SearchPattern.ofCommand? command = none := by
  rwa [← isSome_ofCommand?_iff, Bool.not_eq_true, Option.isSome_eq_false_iff, Option.isNone_iff_eq_none] at h

/-! ## One question -/

namespace LineFinder

/-- What is remembered of a file: nothing, that it could not be read, or its lines. -/
def recalled (finder : LineFinder) (path : Text) : Option (Option (List Text)) :=
  (finder.known.find? (fun entry => entry.1 = path)).map (fun entry => entry.2)

/-- The files that have been read, in the order of reading; those that could not be read are among them. -/
def files (finder : LineFinder) : List Text :=
  finder.known.map (fun entry => entry.1)

/-- A finder that remembers one more file. -/
def remember (finder : LineFinder) (path : Text) (lines : Option (List Text)) : LineFinder :=
  ⟨finder.known ++ [(path, lines)]⟩

variable (finder : LineFinder) (sources : Sources) (path command : Text)

/-- A file is one of those read exactly if something is remembered of it. -/
theorem mem_files_iff : path ∈ finder.files ↔ (finder.recalled path).isSome = true := by
  simp [files, recalled]

/-- A further file is the last one read. -/
theorem files_remember (lines : Option (List Text)) : (finder.remember path lines).files = finder.files ++ [path] := by
  simp [files, remember]

/-- A further file is remembered as it was read, and the others as before. -/
theorem recalled_remember (lines : Option (List Text)) (other : Text) :
    (finder.remember path lines).recalled other = (finder.recalled other).or (if path = other then some lines else none) := by
  simp only [recalled, remember, List.find?_append, List.find?_singleton]
  cases finder.known.find? (fun entry => entry.1 = other) with
  | some entry => rfl
  | none => by_cases h : path = other <;> simp [h]

/-- What a file that is remembered holds is not looked up again. -/
theorem linesOf_recalled {lines : Option (List Text)} (h : finder.recalled path = some lines) (readText : ReadText) :
    finder.linesOf readText path = .ok (lines, finder) := by
  obtain ⟨entry, hentry, rfl⟩ := Option.map_eq_some_iff.1 h
  simp only [linesOf, hentry]

/-- A file that is not remembered is read now. -/
theorem linesOf_sources (h : finder.recalled path = none) :
    finder.linesOf sources.readText path = .ok (sources.lines? path, finder.remember path (sources.lines? path)) := by
  simp only [linesOf, Option.map_eq_none_iff.1 h, Sources.readText, Sources.lines?]
  cases sources path <;> rfl

/-- No other file is looked at. -/
theorem find_congr {readText readText' : ReadText} (h : readText path = readText' path) :
    finder.find readText path command = finder.find readText' path command := by
  simp only [find, linesOf, h]

/-- A command that is no search finds nothing, and nothing is read for it. -/
theorem find_of_not_isDelimited (h : ¬IsDelimited command) (readText : ReadText) :
    finder.find readText path command = .ok (none, finder) := by
  simp only [find, ofCommand?_eq_none h]

/-- A question about a file that is remembered is answered from memory, and nothing is read for it. -/
theorem find_recalled {lines : Option (List Text)} (h : finder.recalled path = some lines) (readText : ReadText) :
    finder.find readText path command = .ok (answerIn lines command, finder) := by
  unfold find answerIn
  cases SearchPattern.ofCommand? command with
  | none => rfl
  | some pattern =>
    rw [finder.linesOf_recalled path h]
    rfl

/-- The first search in a file reads it, and is answered from what it holds now. -/
theorem find_unread (hread : finder.recalled path = none) (hcommand : IsDelimited command) :
    finder.find sources.readText path command =
      .ok (sources.answer path command, finder.remember path (sources.lines? path)) := by
  obtain ⟨pattern, hpattern⟩ := Option.isSome_iff_exists.1 (isSome_ofCommand?_iff.2 hcommand)
  simp only [find, hpattern, finder.linesOf_sources sources path hread, Sources.answer, answerIn]
  rfl

end LineFinder

/-! ## Questions while the files change -/

/-- What happens to a finder and its files: the files become others, or a question is asked. -/
inductive Event where
  | change (sources : Sources)
  | ask (path command : Text)

/-- The files and the finder at one moment. -/
structure Moment where
  sources : Sources
  finder : LineFinder

namespace Moment

/-- The moment after an event. -/
def next (moment : Moment) : Event → Moment
  | .change sources => ⟨sources, moment.finder⟩
  | .ask path command =>
    match moment.finder.find moment.sources.readText path command with
    | .ok answer => ⟨moment.sources, answer.2⟩
    | .error _ => moment

/-- The moment after several events. -/
def after (moment : Moment) (events : List Event) : Moment :=
  events.foldl next moment

/-- Nothing has been read from the files yet. -/
def start (sources : Sources) : Moment := ⟨sources, .fresh⟩

end Moment

/-- The files as they are at the first search in a file, if there is one. -/
def firstSources (path : Text) : Sources → List Event → Option Sources
  | _, [] => none
  | _, .change sources :: events => firstSources path sources events
  | sources, .ask asked command :: events =>
    if asked = path ∧ IsDelimited command then some sources else firstSources path sources events

/-- The files in which something is searched for. -/
def searched (events : List Event) : List Text :=
  events.filterMap fun event =>
    match event with
    | .change _ => none
    | .ask path command => if IsDelimited command then some path else none

/-- The first search in a file is there exactly if the file is searched at all. -/
theorem isSome_firstSources_iff {path : Text} {events : List Event} (sources : Sources) :
    (firstSources path sources events).isSome = true ↔ path ∈ searched events := by
  induction events generalizing sources with
  | nil => simp [firstSources, searched]
  | cons event events ih =>
    cases event with
    | change changed =>
      rw [firstSources, ih changed]
      simp [searched]
    | ask asked command =>
      rw [firstSources]
      by_cases hcommand : IsDelimited command
      · by_cases hasked : asked = path
        · simp [hcommand, hasked, searched]
        · rw [if_neg (fun h => hasked h.1), ih sources]
          simp [searched, hcommand, Ne.symm hasked]
      · rw [if_neg (fun h => hcommand h.2), ih sources]
        simp [searched, hcommand]

namespace Moment

variable (moment : Moment)

/-- A question changes what is remembered only if it is the first search in a file, and then only of that file. -/
theorem finder_next_ask (path command : Text) :
    (moment.next (.ask path command)).finder =
      if IsDelimited command ∧ moment.finder.recalled path = none then
        moment.finder.remember path (moment.sources.lines? path)
      else moment.finder := by
  by_cases hcommand : IsDelimited command
  · cases hread : moment.finder.recalled path with
    | none => simp only [next, moment.finder.find_unread moment.sources path command hread hcommand, hcommand, and_self, if_true]
    | some lines => simp only [next, moment.finder.find_recalled path command hread, reduceCtorEq, and_false, if_false]
  · simp only [next, moment.finder.find_of_not_isDelimited path command hcommand, hcommand, false_and, if_false]

/-- A question leaves the files as they are. -/
theorem sources_next_ask (path command : Text) : (moment.next (.ask path command)).sources = moment.sources := by
  rw [next]
  cases moment.finder.find moment.sources.readText path command <;> rfl

/-- The step: after a question, what was remembered still is, and a file that was searched for the first time is remembered with
its lines. -/
theorem recalled_next_ask (path command other : Text) :
    (moment.next (.ask path command)).finder.recalled other =
      (moment.finder.recalled other).or
        (if path = other ∧ IsDelimited command then some (moment.sources.lines? other) else none) := by
  rw [finder_next_ask]
  by_cases hcommand : IsDelimited command
  · by_cases hpath : path = other
    · subst hpath
      cases hread : moment.finder.recalled path with
      | none => simp [hcommand, LineFinder.recalled_remember, hread]
      | some lines => simp [hcommand, hread]
    · split
      · simp [LineFinder.recalled_remember, hpath]
      · simp [hpath]
  · simp [hcommand]

/-- The run: after any events, what was remembered still is, and every file that was searched since is remembered with the lines it
had at the first search. -/
theorem recalled_after (events : List Event) (path : Text) :
    (moment.after events).finder.recalled path =
      (moment.finder.recalled path).or
        ((firstSources path moment.sources events).map (fun sources => sources.lines? path)) := by
  induction events generalizing moment with
  | nil => simp [after, firstSources]
  | cons event events ih =>
    rw [after, List.foldl_cons, ← after, ih]
    cases event with
    | change sources => rfl
    | ask asked command =>
      rw [recalled_next_ask, sources_next_ask, firstSources, Option.or_assoc]
      by_cases h : asked = path ∧ IsDelimited command
      · simp [h]
      · simp [h]

/-- No event makes a finder read a file again. -/
theorem nodup_files_next (event : Event) (h : moment.finder.files.Nodup) : (moment.next event).finder.files.Nodup := by
  cases event with
  | change sources => exact h
  | ask path command =>
    rw [finder_next_ask]
    split
    · rename_i hunread
      have hnew : path ∉ moment.finder.files := by
        rw [LineFinder.mem_files_iff, hunread.2]
        exact Bool.false_ne_true
      rw [LineFinder.files_remember, List.nodup_append]
      refine ⟨h, List.nodup_singleton path, ?_⟩
      rintro file hfile _ hpath rfl
      exact hnew (List.mem_singleton.1 hpath ▸ hfile)
    · exact h

/-- No sequence of events makes a finder read a file again. -/
theorem nodup_files_after (events : List Event) (h : moment.finder.files.Nodup) : (moment.after events).finder.files.Nodup := by
  induction events generalizing moment with
  | nil => exact h
  | cons event events ih => exact ih (moment.next event) (moment.nodup_files_next event h)

end Moment

/-- Whatever happens to a finder and its files, the next question is answered as without any memory from the files as they were at
the first search in its file, or as they are now if this is the first one. Only the first search in a file reads, and it reads this
file only, whether it is there or not; for every other question the answer is the same whatever can be read now. So no file is read
twice, and those that have been read are those that have been searched. -/
theorem find_readsOnce (sources : Sources) (events : List Event) (path command : Text) :
    let now := (Moment.start sources).after events
    ∃ next, now.finder.find now.sources.readText path command =
        .ok (((firstSources path sources events).getD now.sources).answer path command, next) ∧
      (if IsDelimited command ∧ path ∉ searched events then
        next.files = now.finder.files ++ [path] ∧ next.readings = now.finder.readings + 1 ∧
          ∀ readText : ReadText, readText path = now.sources.readText path →
            now.finder.find readText path command = now.finder.find now.sources.readText path command
      else next = now.finder ∧
          ∀ readText : ReadText, now.finder.find readText path command = now.finder.find now.sources.readText path command) ∧
      now.finder.files.Nodup ∧ ∀ file, file ∈ now.finder.files ↔ file ∈ searched events := by
  intro now
  have hrecalled : ∀ file, now.finder.recalled file =
      (firstSources file sources events).map (fun read => read.lines? file) :=
    (Moment.start sources).recalled_after events
  have hfiles : ∀ file, file ∈ now.finder.files ↔ file ∈ searched events := by
    intro file
    rw [LineFinder.mem_files_iff, hrecalled, Option.isSome_map, isSome_firstSources_iff]
  have hnodup : now.finder.files.Nodup := (Moment.start sources).nodup_files_after events List.nodup_nil
  by_cases hcommand : IsDelimited command
  · cases hfirst : firstSources path sources events with
    | none =>
      have hunread : path ∉ searched events := by
        rw [← isSome_firstSources_iff sources, hfirst]
        exact Bool.false_ne_true
      have hfind := now.finder.find_unread now.sources path command (by rw [hrecalled, hfirst]; rfl) hcommand
      refine ⟨_, hfind, ?_, hnodup, hfiles⟩
      rw [if_pos ⟨hcommand, hunread⟩]
      refine ⟨now.finder.files_remember path _, ?_, fun readText h => now.finder.find_congr path command h⟩
      simp [LineFinder.readings, LineFinder.remember]
    | some read =>
      have hread : path ∈ searched events := by
        rw [← isSome_firstSources_iff sources, hfirst]
        rfl
      have hfind := now.finder.find_recalled path command (by rw [hrecalled, hfirst]; rfl : _ = some (read.lines? path))
      refine ⟨_, hfind _, ?_, hnodup, hfiles⟩
      rw [if_neg (fun h => h.2 hread)]
      exact ⟨rfl, fun readText => by rw [hfind, hfind]⟩
  · have hfind := now.finder.find_of_not_isDelimited path command hcommand
    have hanswer : ∀ read : Sources, read.answer path command = none := by
      intro read
      rw [Sources.answer, answerIn, ofCommand?_eq_none hcommand]
      rfl
    refine ⟨_, by rw [hanswer]; exact hfind _, ?_, hnodup, hfiles⟩
    rw [if_neg (fun h => hcommand h.1)]
    exact ⟨rfl, fun readText => by rw [hfind, hfind]⟩

end SymbolSearch.Tags
