import SymbolSearch.Proofs.Answer
import SymbolSearch.Symbol.Record

/-!
# When records are valid

A record is valid exactly if each of its fields is, and what it stands for is what its fields are read as: positions
(`Position.ofValue_eq_ok_iff`), ranges (`Range.ofValue_eq_ok_iff`) and located symbols (`Located.ofValue_eq_ok_iff`). The numbers of a
valid position are the integers that stand in the record, so that none of them is negative.
-/

namespace SymbolSearch

/-! ## Checks and fields -/

namespace Checked

variable {α β : Type}

/-- Moving issues to a step changes no value. -/
theorem under_eq_ok_iff {step : Step} {check : Checked α} {a : α} : check.under step = .ok a ↔ check = .ok a := by
  cases check <;> simp [under]

/-- Two checks together have values exactly if both have. -/
theorem both_eq_ok_iff {check : Checked α} {other : Checked β} {a : α} {b : β} :
    both check other = .ok (a, b) ↔ check = .ok a ∧ other = .ok b := by
  cases check <;> cases other <;> simp [both]

/-- Checks that pass with the same values are the same up to their issues. -/
theorem toOption_eq_of_ok_iff {check other : Checked α} (h : ∀ a, check = .ok a ↔ other = .ok a) :
    check.toOption = other.toOption := by
  cases check with
  | ok a =>
    rw [(h a).1 rfl]
  | error found =>
    cases other with
    | ok a =>
      have hfound := (h a).2 rfl
      cases hfound
    | error found' => rfl

end Checked

namespace Pairs

variable {α : Type} {pairs : Pairs} {key : Text} {read : Value → Checked α} {a : α}

/-- A field that has to be there is valid exactly if it is there and its value is. -/
theorem required_eq_ok_iff : pairs.required key read = .ok a ↔ ∃ v, pairs.get? key = some v ∧ read v = .ok a := by
  rw [required, Checked.under_eq_ok_iff]
  cases pairs.get? key <;> simp [Checked.fail]

/-- A field that may be absent is valid exactly if it is, or if its value is. -/
theorem optional_eq_ok_iff {whenAbsent : α} :
    pairs.optional key whenAbsent read = .ok a ↔
      pairs.get? key = none ∧ a = whenAbsent ∨ ∃ v, pairs.get? key = some v ∧ read v = .ok a := by
  unfold optional
  cases pairs.get? key with
  | none => simp [eq_comm]
  | some v => simp [Checked.under_eq_ok_iff]

end Pairs

/-- An integer field with a least value is valid exactly if it denotes an integer that is not below it. -/
theorem Value.toIntegerFrom_eq_ok_iff {least n : Int} {v : Value} :
    v.toIntegerFrom least = .ok n ↔ v.toInteger = .ok n ∧ least ≤ n := by
  rw [Value.toIntegerFrom, bind_eq_ok_iff]
  constructor
  · rintro ⟨m, hm, h⟩
    split at h
    · cases h
      exact ⟨hm, ‹_›⟩
    · cases h
  · rintro ⟨hn, hle⟩
    exact ⟨n, hn, if_pos hle⟩

/-! ## Positions and ranges -/

/-- The integers that a value gives as line and character: they stand in a table, and the character is zero unless it is given. -/
def Position.Given (v : Value) (line character : Int) : Prop :=
  ∃ pairs : Pairs, v = .table pairs ∧ (∃ l, pairs.get? "line".toList = some l ∧ l.toInteger = .ok line) ∧
    (pairs.get? "character".toList = none ∧ character = 0 ∨
      ∃ c, pairs.get? "character".toList = some c ∧ c.toInteger = .ok character)

/-- A record takes tables only. -/
theorem Value.toRecord_eq_ok_iff {v : Value} {pairs : Pairs} : v.toRecord = .ok pairs ↔ v = .table pairs := by
  cases v <;> simp [Value.toRecord, Checked.fail]

/-- The numbers of a valid position are the integers given, which are not negative then. -/
theorem Position.ofValue_eq_ok_iff {v : Value} {position : Position} :
    Position.ofValue v = .ok position ↔ Position.Given v position.line position.character := by
  unfold Position.ofValue Position.Given
  constructor
  · intro h
    obtain ⟨pairs, hpairs, h⟩ := bind_eq_ok_iff.1 h
    obtain ⟨⟨line, character⟩, hboth, h⟩ := bind_eq_ok_iff.1 h
    cases h
    obtain ⟨hline, hcharacter⟩ := Checked.both_eq_ok_iff.1 hboth
    obtain ⟨l, hl, hread⟩ := Pairs.required_eq_ok_iff.1 hline
    obtain ⟨hread, hle⟩ := Value.toIntegerFrom_eq_ok_iff.1 hread
    refine ⟨pairs, Value.toRecord_eq_ok_iff.1 hpairs, ⟨l, hl, ?_⟩, ?_⟩
    · rw [hread, Int.toNat_of_nonneg hle]
    · rcases Pairs.optional_eq_ok_iff.1 hcharacter with ⟨hnone, rfl⟩ | ⟨c, hc, hread⟩
      · exact Or.inl ⟨hnone, rfl⟩
      · obtain ⟨hread, hle⟩ := Value.toIntegerFrom_eq_ok_iff.1 hread
        exact Or.inr ⟨c, hc, by rw [hread, Int.toNat_of_nonneg hle]⟩
  · rintro ⟨pairs, rfl, ⟨l, hl, hread⟩, hcharacter⟩
    have hline : pairs.required "line".toList (Value.toIntegerFrom 0) = .ok (position.line : Int) :=
      Pairs.required_eq_ok_iff.2 ⟨l, hl, Value.toIntegerFrom_eq_ok_iff.2 ⟨hread, Int.natCast_nonneg _⟩⟩
    have hcharacter : pairs.optional "character".toList 0 (Value.toIntegerFrom 0) = .ok (position.character : Int) := by
      rw [Pairs.optional_eq_ok_iff]
      rcases hcharacter with hnone | ⟨c, hc, hread⟩
      · exact Or.inl hnone
      · exact Or.inr ⟨c, hc, Value.toIntegerFrom_eq_ok_iff.2 ⟨hread, Int.natCast_nonneg _⟩⟩
    refine bind_eq_ok_iff.2 ⟨pairs, rfl, bind_eq_ok_iff.2 ⟨_, Checked.both_eq_ok_iff.2 ⟨hline, hcharacter⟩, ?_⟩⟩
    simp only [Int.toNat_natCast]

/-- The integers that a value gives as a range: line and character of its start, and those of its end. -/
def Range.Given (v : Value) (startLine startCharacter stopLine stopCharacter : Int) : Prop :=
  ∃ pairs : Pairs, v = .table pairs ∧
    (∃ start, pairs.get? "start".toList = some start ∧ Position.Given start startLine startCharacter) ∧
    ∃ stop, pairs.get? "end".toList = some stop ∧ Position.Given stop stopLine stopCharacter

/-- The numbers of a valid range are the integers given, which are not negative then. -/
theorem Range.ofValue_eq_ok_iff {v : Value} {range : Range} :
    Range.ofValue v = .ok range ↔
      Range.Given v range.start.line range.start.character range.stop.line range.stop.character := by
  unfold Range.ofValue Range.Given
  simp only [← Position.ofValue_eq_ok_iff]
  constructor
  · intro h
    obtain ⟨pairs, hpairs, h⟩ := bind_eq_ok_iff.1 h
    obtain ⟨⟨start, stop⟩, hboth, h⟩ := bind_eq_ok_iff.1 h
    cases h
    obtain ⟨hstart, hstop⟩ := Checked.both_eq_ok_iff.1 hboth
    exact ⟨pairs, Value.toRecord_eq_ok_iff.1 hpairs, Pairs.required_eq_ok_iff.1 hstart, Pairs.required_eq_ok_iff.1 hstop⟩
  · rintro ⟨pairs, rfl, hstart, hstop⟩
    exact bind_eq_ok_iff.2 ⟨pairs, rfl, bind_eq_ok_iff.2 ⟨(range.start, range.stop),
      Checked.both_eq_ok_iff.2 ⟨Pairs.required_eq_ok_iff.2 hstart, Pairs.required_eq_ok_iff.2 hstop⟩, rfl⟩⟩

/-! ## Located symbols -/

namespace Located

/-- The keys that a record of a located symbol knows. -/
def keys : List Text :=
  ["name", "kind", "uri", "range", "container_name"].map String.toList

/-- What the fields of a valid record are read as. -/
structure Fields (pairs : Pairs) (symbol : Located) : Prop where
  name : ∃ v, pairs.get? "name".toList = some v ∧ v.toText = .ok symbol.name
  kind : pairs.get? "kind".toList = none ∧ symbol.kind = none ∨
    ∃ v, pairs.get? "kind".toList = some v ∧ v.toOptional Kind.ofValue = .ok symbol.kind
  uri : ∃ v, pairs.get? "uri".toList = some v ∧ v.toText = .ok symbol.uri
  range : ∃ v, pairs.get? "range".toList = some v ∧ Range.ofValue v = .ok symbol.range
  container : pairs.get? "container_name".toList = none ∧ symbol.container = none ∨
    ∃ v, pairs.get? "container_name".toList = some v ∧ v.toOptional Value.toText = .ok symbol.container

/-- A record stands for the symbol that its fields are read as, and for none if one of them is not valid. -/
theorem ofValue_eq_ok_iff {pairs : Pairs} {symbol : Located} :
    Located.ofValue (.table pairs) = .ok symbol ↔ Fields pairs symbol := by
  constructor
  · intro h
    obtain ⟨pairs', hpairs, h⟩ := bind_eq_ok_iff.1 h
    cases hpairs
    obtain ⟨⟨⟨name, kind⟩, ⟨uri, range⟩, container⟩, hall, h⟩ := bind_eq_ok_iff.1 h
    cases h
    obtain ⟨hfirst, hrest⟩ := Checked.both_eq_ok_iff.1 hall
    obtain ⟨hname, hkind⟩ := Checked.both_eq_ok_iff.1 hfirst
    obtain ⟨hplace, hcontainer⟩ := Checked.both_eq_ok_iff.1 hrest
    obtain ⟨huri, hrange⟩ := Checked.both_eq_ok_iff.1 hplace
    exact ⟨Pairs.required_eq_ok_iff.1 hname, Pairs.optional_eq_ok_iff.1 hkind, Pairs.required_eq_ok_iff.1 huri,
      Pairs.required_eq_ok_iff.1 hrange, Pairs.optional_eq_ok_iff.1 hcontainer⟩
  · intro h
    have hfirst := Checked.both_eq_ok_iff.2 ⟨Pairs.required_eq_ok_iff.2 h.name, Pairs.optional_eq_ok_iff.2 h.kind⟩
    have hplace := Checked.both_eq_ok_iff.2 ⟨Pairs.required_eq_ok_iff.2 h.uri, Pairs.required_eq_ok_iff.2 h.range⟩
    have hrest := Checked.both_eq_ok_iff.2 ⟨hplace, Pairs.optional_eq_ok_iff.2 h.container⟩
    exact bind_eq_ok_iff.2 ⟨pairs, rfl, bind_eq_ok_iff.2 ⟨_, Checked.both_eq_ok_iff.2 ⟨hfirst, hrest⟩, rfl⟩⟩

/-- Only the values of the known keys decide what a record stands for. -/
theorem ofValue_congr {pairs others : Pairs} (h : ∀ key ∈ keys, others.get? key = pairs.get? key) :
    Located.ofValue (.table others) = Located.ofValue (.table pairs) := by
  have hname := h "name".toList (by decide)
  have hkind := h "kind".toList (by decide)
  have huri := h "uri".toList (by decide)
  have hrange := h "range".toList (by decide)
  have hcontainer := h "container_name".toList (by decide)
  simp only [Located.ofValue, Value.toRecord, bind, Except.bind, Pairs.required, Pairs.optional, hname, hkind, huri, hrange,
    hcontainer]

end Located

end SymbolSearch
