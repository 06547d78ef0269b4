import Mathlib
import SymbolSearch.Proofs.Disk
import SymbolSearch.Proofs.Provider.RecordShapes

/-!
# Dumps line by line

Each line of a dump is read by itself: what two dumps hold, with a line feed between them, is what the first one holds and then
what the second one holds, whatever octets they are made of (`symbols_append`). A carriage return in front of that line feed
belongs to the same break, and the lines that come or go at the seam are blank.
-/

namespace SymbolSearch

namespace Text

variable {α β : Type} {isBreak isReturn isFeed : α → Bool} {feed : α}

/-- The lines of two sequences with a feed between them are the lines of both, up to blank ones. -/
theorem filterMap_cutLines_append {f : List α → Option β} (hblank : f [] = none) (hfeed : isFeed feed = true)
    (hbreak : isBreak feed = true) (hreturn : isReturn feed = false) (front back line : List α) (afterReturn : Bool)
    (hline : afterReturn = true → line = []) :
    (cutLines isBreak isReturn isFeed line afterReturn (front ++ feed :: back)).filterMap f =
      (cutLines isBreak isReturn isFeed line afterReturn front).filterMap f ++
        (cutLines isBreak isReturn isFeed [] false back).filterMap f := by
  -- the line is empty behind a return, since nothing has been read since
  induction front generalizing line afterReturn with
  | nil =>
    rw [List.nil_append, cutLines, cutLines, hfeed, hbreak, hreturn, Bool.and_true, if_pos rfl]
    cases afterReturn with
    | true =>
      rw [hline rfl]
      simp
    | false =>
      cases line with
      | nil => simp [hblank]
      | cons c line =>
        -- the line that the first sequence leaves open ends at the feed
        simp only [Bool.false_eq_true, if_false, List.isEmpty_cons, List.filterMap_cons, List.filterMap_nil]
        cases f (c :: line).reverse <;> rfl
  | cons c front ih =>
    rw [List.cons_append, cutLines, cutLines]
    split
    · exact ih line false (by simp)
    · split
      · rw [List.filterMap_cons, List.filterMap_cons, ih [] _ (fun _ => rfl)]
        cases f line.reverse <;> rfl
      · exact ih (c :: line) false (by simp)

/-- A sequence without breaks is one line, unless it is empty. -/
theorem cutLines_of_no_break {s : List α} (h : ∀ c ∈ s, isBreak c = false) (line : List α) :
    cutLines isBreak isReturn isFeed line false s = if (line.reverse ++ s).isEmpty then [] else [line.reverse ++ s] := by
  induction s generalizing line with
  | nil => simp [cutLines]
  | cons c rest ih =>
    have hc : isBreak c = false := h c List.mem_cons_self
    have hrest : ∀ c ∈ rest, isBreak c = false := fun c hmem => h c (List.mem_cons_of_mem _ hmem)
    rw [cutLines, hc, ih hrest (c :: line)]
    simp

end Text

namespace Dump

/-- There is no symbol on a blank line. -/
theorem symbolOfLine?_nil : symbolOfLine? [] = none := by
  rfl

/-- What two dumps with a line feed between them hold is what each of them holds. -/
theorem symbols_append (front back : Bytes) : symbols (front ++ 0x0A :: back) = symbols front ++ symbols back :=
  Text.filterMap_cutLines_append symbolOfLine?_nil rfl rfl rfl front back [] false (fun _ => rfl)

/-- Nothing that a dump holds keeps it from being loaded. -/
theorem load_of_read {host : Host} {path : Text} {content : Bytes} (h : host.read path = .ok content) :
    load host path = .ok (symbols content) := by
  rw [load, h]

/-- A dump of one line holds the symbol on that line, if there is one. -/
theorem symbols_of_one_line {content : Bytes} (hfeed : 0x0A ∉ content) (hreturn : 0x0D ∉ content) :
    symbols content = (symbolOfLine? content).toList := by
  have hbreak : ∀ b ∈ content, (decide (b = 0x0A) || decide (b = 0x0D)) = false := by
    intro b hb
    have hne : b ≠ 0x0A := fun h => hfeed (h ▸ hb)
    have hne' : b ≠ 0x0D := fun h => hreturn (h ▸ hb)
    simp [hne, hne']
  rw [symbols, lines, Text.cutLines_of_no_break hbreak]
  cases content with
  | nil => rfl
  | cons b rest =>
    simp only [List.reverse_nil, List.nil_append, List.isEmpty_cons, Bool.false_eq_true, if_false, List.filterMap_cons,
      List.filterMap_nil]
    cases symbolOfLine? (b :: rest) <;> rfl

/-- A line is the JSON text of a record. -/
def IsRecord (line : Bytes) (record : Pairs) : Prop :=
  (Utf8.decode? line).bind (Json.parse? .dump) = some (.table record)

/-- A symbol is on a line exactly if a record of it is. -/
theorem symbolOfLine?_eq_some_iff {line : Bytes} {symbol : Located} :
    symbolOfLine? line = some symbol ↔ ∃ record, IsRecord line record ∧ symbolOfRecord record = .ok symbol := by
  unfold symbolOfLine? IsRecord
  split
  · rename_i record hrecord
    rw [hrecord]
    cases h : symbolOfRecord record <;> simp [h, Except.toOption]
  · rename_i hnot
    constructor
    · intro h
      cases h
    · rintro ⟨record, hrecord, -⟩
      exact absurd hrecord (hnot record)

/-- The numbers in the range of a symbol are the integers that its record gives, none of which is negative. -/
theorem exists_range_given {record : Pairs} {symbol : Located} (h : symbolOfRecord record = .ok symbol) :
    ∃ v, (flatten record).get? "range".toList = some v ∧ ∃ a b c d : Int, Range.Given v a b c d ∧
      (0 ≤ a ∧ 0 ≤ b ∧ 0 ≤ c ∧ 0 ≤ d) ∧ symbol.range = ⟨⟨a.toNat, b.toNat⟩, ⟨c.toNat, d.toNat⟩⟩ := by
  obtain ⟨v, hv, hrange⟩ := (symbolOfRecord_eq_ok_iff.1 h).range
  refine ⟨v, hv, _, _, _, _, Range.ofValue_eq_ok_iff.1 hrange, ?_, ?_⟩
  · omega
  · simp only [Int.toNat_natCast]

/-- A dump that can be read is loaded, whatever it holds, and each of its symbols has a range of integers that stand in its record
and are not negative. A dump of one line gives the symbol whose record that line is, or none; and two dumps with a line feed between
them give what the first one gives, and then what the second one gives. -/
theorem load_lineWise (path : Text) :
    (∀ (host : Host) (content : Bytes), host.read path = .ok content → ∃ found, load host path = .ok found ∧
      (∀ symbol ∈ found, ∃ line ∈ lines content, ∃ record, IsRecord line record ∧ symbolOfRecord record = .ok symbol ∧
        ∃ v, (flatten record).get? "range".toList = some v ∧ ∃ a b c d : Int, Range.Given v a b c d ∧
          (0 ≤ a ∧ 0 ≤ b ∧ 0 ≤ c ∧ 0 ≤ d) ∧ symbol.range = ⟨⟨a.toNat, b.toNat⟩, ⟨c.toNat, d.toNat⟩⟩) ∧
      (0x0A ∉ content → 0x0D ∉ content → ∀ symbol, found = [symbol] ↔
        ∃ record, IsRecord content record ∧ symbolOfRecord record = .ok symbol)) ∧
    ∀ (above below both : Host) (front back : Bytes), above.read path = .ok front → below.read path = .ok back →
      both.read path = .ok (front ++ 0x0A :: back) → ∃ first second, load above path = .ok first ∧
        load below path = .ok second ∧ load both path = .ok (first ++ second) := by
  constructor
  · intro host content hread
    refine ⟨symbols content, load_of_read hread, ?_, ?_⟩
    · intro symbol hsymbol
      obtain ⟨line, hline, hfound⟩ := List.mem_filterMap.1 hsymbol
      obtain ⟨record, hrecord, hvalid⟩ := symbolOfLine?_eq_some_iff.1 hfound
      exact ⟨line, hline, record, hrecord, hvalid, exists_range_given hvalid⟩
    · intro hfeed hreturn symbol
      rw [symbols_of_one_line hfeed hreturn, ← symbolOfLine?_eq_some_iff]
      exact Option.toList_eq_singleton_iff
  · intro above below both front back habove hbelow hboth
    refine ⟨symbols front, symbols back, load_of_read habove, load_of_read hbelow, ?_⟩
    rw [load_of_read hboth, symbols_append]

/-- A host that has a file with these octets and nothing else. -/
def fileHost (content : Bytes) : Host :=
  .ofRoot [("d".toList, .file content 1 false)] rfl

/-- A record on one line and the carriage return that ends it. -/
def oneRecord : Bytes :=
  "\x7b\"name\":\"f\",\"uri\":\"a\",\"range\":\x7b\"start\":\x7b\"line\":2\x7d,\"end\":\x7b\"line\":\"3\"\x7d\x7d\x7d\r".toList.map
    (fun c => c.toNat.toUInt8)

/-- A record with a negative line, octets that are no text, a record that breaks off, and a valid one. -/
def brokenRecords : Bytes :=
  "\x7b\"name\":\"g\",\"uri\":\"a\",\"range\":\x7b\"start\":\x7b\"line\":-2\x7d,\"end\":\x7b\"line\":3\x7d\x7d\x7d\n".toList.map
      (fun c => c.toNat.toUInt8) ++
    [0x7B, 0xFF, 0x0D, 0x0A] ++ "\x7b\"name\":[\r".toList.map (fun c => c.toNat.toUInt8) ++ oneRecord

set_option maxRecDepth 8000 in
/-- The broken records are passed over, and the carriage return in front of the seam makes no difference. -/
theorem load_lineWise_broken :
    (fileHost (oneRecord ++ 0x0A :: brokenRecords)).read ['/', 'd'] = .ok (oneRecord ++ 0x0A :: brokenRecords) ∧
      load (fileHost (oneRecord ++ 0x0A :: brokenRecords)) ['/', 'd'] =
        .ok [⟨"f".toList, none, "a".toList, ⟨⟨2, 0⟩, ⟨3, 0⟩⟩, none⟩, ⟨"f".toList, none, "a".toList, ⟨⟨2, 0⟩, ⟨3, 0⟩⟩, none⟩] := by
  have hread : ∀ content : Bytes, (fileHost content).read ['/', 'd'] = .ok content := by
    intro content
    cbv
  have hfirst : load (fileHost oneRecord) ['/', 'd'] = .ok [⟨"f".toList, none, "a".toList, ⟨⟨2, 0⟩, ⟨3, 0⟩⟩, none⟩] := by cbv
  have hsecond : load (fileHost brokenRecords) ['/', 'd'] = .ok [⟨"f".toList, none, "a".toList, ⟨⟨2, 0⟩, ⟨3, 0⟩⟩, none⟩] := by cbv
  obtain ⟨first, second, hload, hload', hboth⟩ := (load_lineWise ['/', 'd']).2 _ _ _ _ _ (hread oneRecord) (hread brokenRecords)
    (hread (oneRecord ++ 0x0A :: brokenRecords))
  rw [hfirst] at hload
  rw [hsecond] at hload'
  cases hload
  cases hload'
  exact ⟨hread _, hboth⟩

end Dump

end SymbolSearch
