import SymbolSearch.Proofs.Symbol.Record
import SymbolSearch.Proofs.Value
import SymbolSearch.Provider.Dump

/-!
# The two shapes of a record

A record of a dump may give its document and its range itself or under `location`, and the name of its container in either case.
`nest` turns the first shape into the second. Both stand for the same symbol, or both for none, whatever the members are; and where
a record has a member in both places, the one that stands in the record itself counts (`symbolOfRecord_shapes`).
-/

namespace SymbolSearch.Dump

/-- The keys that the second shape has under `location`. -/
def placeKeys : List Text :=
  ["uri", "range"].map String.toList

/-- A record in the second shape: its document and its range, as far as they are there, stand under `location`, and its container has
its name in camel case. -/
def nest (record : Pairs) : Pairs :=
  (record.filter fun pair => !placeKeys.contains pair.1).map
      (fun pair => if pair.1 = "container_name".toList then ("containerName".toList, pair.2) else pair) ++
    [("location".toList, .table (record.filter fun pair => placeKeys.contains pair.1))]

/-- What a record gives under `location` for a key: null where there is no such key, and nothing where there is no table. -/
def nested? (record : Pairs) (key : Text) : Option Value :=
  match record.get? "location".toList with
  | some (.table location) => some ((Pairs.get? location key).getD .null)
  | _ => none

variable {record : Pairs} {key : Text}

theorem uri_mem_placeKeys : "uri".toList ∈ placeKeys := by decide

theorem range_mem_placeKeys : "range".toList ∈ placeKeys := by decide

/-! ## The flat shape -/

/-- A document or a range that is not there is taken from under `location`. -/
theorem get?_liftPlace (h : key ≠ "location".toList) :
    (liftPlace record).get? key = (record.get? key).or (if key ∈ placeKeys then nested? record key else none) := by
  unfold liftPlace
  split
  · rename_i location hlocation
    have hnested : ∀ key, nested? record key = some ((Pairs.get? location key).getD .null) := by
      intro key
      unfold nested?
      rw [hlocation]
    rw [hnested]
    by_cases hrange : key = "range".toList
    · subst hrange
      rw [if_pos (by decide), Pairs.get?_setDefault, if_pos rfl, Pairs.get?_setDefault, if_neg (by decide), Pairs.get?_without,
        if_neg h]
      cases record.get? "range".toList <;> rfl
    · rw [Pairs.get?_setDefault, if_neg hrange]
      by_cases huri : key = "uri".toList
      · subst huri
        rw [if_pos (by decide), Pairs.get?_setDefault, if_pos rfl, Pairs.get?_without, if_neg h]
        cases record.get? "uri".toList <;> rfl
      · have hplace : key ∉ placeKeys := by
          intro hmem
          rcases List.mem_cons.1 hmem with hkey | hmem
          · exact huri hkey
          · exact hrange (List.mem_singleton.1 hmem)
        rw [Pairs.get?_setDefault, if_neg huri, Pairs.get?_without, if_neg h, if_neg hplace, Option.or_none]
  · rename_i hnot
    have hnested : nested? record key = none := by
      unfold nested?
      split
      · rename_i location hlocation
        exact absurd hlocation (hnot location)
      · rfl
    rw [hnested, ite_self, Option.or_none]

/-- A container that is not there is the one that has its name in camel case. -/
theorem get?_liftContainer (h : key ≠ "containerName".toList) :
    (liftContainer record).get? key =
      (record.get? key).or (if key = "container_name".toList then record.get? "containerName".toList else none) := by
  unfold liftContainer
  split
  · rename_i container hcamel
    rw [hcamel, Pairs.get?_setDefault]
    by_cases hkey : key = "container_name".toList
    · subst hkey
      rw [if_pos rfl, if_pos rfl, Pairs.get?_without, if_neg h]
      cases record.get? "container_name".toList <;> rfl
    · rw [if_neg hkey, if_neg hkey, Pairs.get?_without, if_neg h, Option.or_none]
  · rename_i hcamel
    rw [hcamel, ite_self, Option.or_none]

/-- The value that counts for a key where the record itself has none. -/
def counterpart? (record : Pairs) (key : Text) : Option Value :=
  if key ∈ placeKeys then nested? record key
  else if key = "container_name".toList then record.get? "containerName".toList else none

/-- A known key is none of those that only the second shape has. -/
theorem of_mem_keys (h : key ∈ Located.keys) : key ≠ "location".toList ∧ key ≠ "containerName".toList := by
  have hall : ∀ key ∈ Located.keys, key ≠ "location".toList ∧ key ≠ "containerName".toList := by decide
  exact hall key h

/-- In the flat shape every known key has the value that the record itself gives, and only without one that of its counterpart. -/
theorem get?_flatten (h : key ∈ Located.keys) :
    (flatten record).get? key = (record.get? key).or (counterpart? record key) := by
  obtain ⟨hlocation, hcamel⟩ := of_mem_keys h
  have hplace : "containerName".toList ∉ placeKeys := by decide
  have hother : ∀ key ∈ placeKeys, key ≠ "container_name".toList := by decide
  unfold flatten counterpart?
  rw [get?_liftContainer hcamel, get?_liftPlace hlocation, get?_liftPlace (by decide), if_neg hplace, Option.or_none,
    Option.or_assoc]
  by_cases hmem : key ∈ placeKeys
  · rw [if_pos hmem, if_pos hmem, if_neg (hother key hmem), Option.or_none]
  · rw [if_neg hmem, if_neg hmem, Option.none_or]

/-- What the record itself gives for a known key is what is read. -/
theorem read_eq_ok_of_get? {α : Type} {read : Value → Checked α} {a : α} {v : Value} (hkey : key ∈ Located.keys)
    (hv : record.get? key = some v) (h : ∃ w, (flatten record).get? key = some w ∧ read w = .ok a) : read v = .ok a := by
  obtain ⟨w, hw, hread⟩ := h
  rw [get?_flatten hkey, hv, Option.some_or] at hw
  cases hw
  exact hread

/-- A record stands for what its fields are read as in the flat shape. -/
theorem symbolOfRecord_eq_ok_iff {symbol : Located} :
    symbolOfRecord record = .ok symbol ↔ Located.Fields (flatten record) symbol :=
  Located.ofValue_eq_ok_iff

/-! ## From one shape to the other -/

section Nest

variable (hlocation : record.get? "location".toList = none) (hcamel : record.get? "containerName".toList = none)

include hcamel in
/-- What a record has in the second shape, except under `location`. -/
theorem get?_nest (h : key ≠ "location".toList) :
    (nest record).get? key =
      if key = "containerName".toList then record.get? "container_name".toList
      else if key = "container_name".toList ∨ key ∈ placeKeys then none else record.get? key := by
  have hfiltered : ∀ key, key ∉ placeKeys →
      Pairs.get? (record.filter fun pair => !placeKeys.contains pair.1) key = record.get? key := by
    intro key hkey
    rw [Pairs.get?_filter (fun key => !placeKeys.contains key), if_pos (by simpa using hkey)]
  have hnew : Pairs.get? (record.filter fun pair => !placeKeys.contains pair.1) "containerName".toList = none := by
    rw [hfiltered _ (by decide), hcamel]
  unfold nest
  rw [Pairs.get?_append, Pairs.get?_singleton, if_neg h, Option.or_none, Pairs.get?_rename hnew (by decide)]
  by_cases hkey : key = "containerName".toList
  · rw [if_pos hkey, if_pos hkey, hfiltered _ (by decide)]
  · rw [if_neg hkey, if_neg hkey]
    by_cases hsnake : key = "container_name".toList
    · rw [if_pos hsnake, if_pos (Or.inl hsnake)]
    · rw [if_neg hsnake]
      by_cases hmem : key ∈ placeKeys
      · rw [if_pos (Or.inr hmem), Pairs.get?_filter (fun key => !placeKeys.contains key), if_neg (by simpa using hmem)]
      · rw [if_neg (by simp only [hsnake, hmem, or_self, not_false_eq_true]), hfiltered key hmem]

include hlocation hcamel in
/-- What a record has under `location` in the second shape: its own document and range, and null for one that is not there. -/
theorem nested?_nest (h : key ∈ placeKeys) : nested? (nest record) key = some ((record.get? key).getD .null) := by
  have hrest : Pairs.get? (record.filter fun pair => !placeKeys.contains pair.1) "location".toList = none := by
    rw [Pairs.get?_filter (fun key => !placeKeys.contains key), hlocation, ite_self]
  have hnew : Pairs.get? (record.filter fun pair => !placeKeys.contains pair.1) "containerName".toList = none := by
    rw [Pairs.get?_filter (fun key => !placeKeys.contains key), hcamel, ite_self]
  have htable : (nest record).get? "location".toList =
      some (.table (record.filter fun pair => placeKeys.contains pair.1)) := by
    unfold nest
    rw [Pairs.get?_append, Pairs.get?_rename hnew (by decide), if_neg (by decide), if_neg (by decide), hrest, Option.none_or,
      Pairs.get?_singleton, if_pos rfl]
  unfold nested?
  rw [htable]
  simp only
  rw [Pairs.get?_filter placeKeys.contains, if_pos (by simpa using h)]

include hlocation hcamel in
/-- A record in the first shape is flat. -/
theorem get?_flatten_self (h : key ∈ Located.keys) : (flatten record).get? key = record.get? key := by
  have hnested : nested? record key = none := by
    unfold nested?
    rw [hlocation]
  rw [get?_flatten h, counterpart?, hnested, hcamel, ite_self, ite_self, Option.or_none]

include hlocation hcamel in
/-- In the second shape a record gives the same, except that a document or a range that was not there is null. -/
theorem get?_flatten_nest (h : key ∈ Located.keys) :
    (flatten (nest record)).get? key =
      if key ∈ placeKeys then some ((record.get? key).getD .null) else record.get? key := by
  obtain ⟨hkey, hkey'⟩ := of_mem_keys h
  rw [get?_flatten h, get?_nest hcamel hkey, if_neg hkey', counterpart?]
  by_cases hmem : key ∈ placeKeys
  · rw [if_pos (Or.inr hmem), if_pos hmem, if_pos hmem, nested?_nest hlocation hcamel hmem, Option.none_or]
  · rw [if_neg hmem, if_neg hmem]
    by_cases hsnake : key = "container_name".toList
    · rw [if_pos (Or.inl hsnake), if_pos hsnake, get?_nest hcamel (by decide), if_pos rfl, Option.none_or, hsnake]
    · have hneither : ¬(key = "container_name".toList ∨ key ∈ placeKeys) := by
        rintro (hkey | hkey)
        · exact hsnake hkey
        · exact hmem hkey
      rw [if_neg hneither, if_neg hsnake, Option.or_none]

include hlocation hcamel in
/-- A document or a range that is refused where it is null is read alike in both shapes. -/
theorem read_nest_iff {α : Type} (read : Value → Checked α) (hnull : ∀ a, read .null ≠ .ok a) (hmem : key ∈ placeKeys) (a : α) :
    (∃ v, (flatten (nest record)).get? key = some v ∧ read v = .ok a) ↔
      ∃ v, (flatten record).get? key = some v ∧ read v = .ok a := by
  have hkey : key ∈ Located.keys := by
    have hall : ∀ key ∈ placeKeys, key ∈ Located.keys := by decide
    exact hall key hmem
  rw [get?_flatten_nest hlocation hcamel hkey, get?_flatten_self hlocation hcamel hkey, if_pos hmem]
  cases record.get? key with
  | none => simp [hnull]
  | some v => simp

include hlocation hcamel in
/-- Both shapes have the same fields. -/
theorem fields_nest_iff {symbol : Located} :
    Located.Fields (flatten (nest record)) symbol ↔ Located.Fields (flatten record) symbol := by
  have hsame : ∀ key ∈ Located.keys, key ∉ placeKeys → (flatten (nest record)).get? key = (flatten record).get? key := by
    intro key hkey hmem
    rw [get?_flatten_nest hlocation hcamel hkey, get?_flatten_self hlocation hcamel hkey, if_neg hmem]
  have hname := hsame "name".toList (by decide) (by decide)
  have hkind := hsame "kind".toList (by decide) (by decide)
  have hcontainer := hsame "container_name".toList (by decide) (by decide)
  have huri := read_nest_iff hlocation hcamel Value.toText (by intro a h; cases h) uri_mem_placeKeys
  have hrange := read_nest_iff hlocation hcamel Range.ofValue (by intro a h; cases h) range_mem_placeKeys
  constructor
  · intro h
    exact ⟨hname ▸ h.name, hkind ▸ h.kind, (huri _).1 h.uri, (hrange _).1 h.range, hcontainer ▸ h.container⟩
  · intro h
    exact ⟨hname ▸ h.name, hkind ▸ h.kind, (huri _).2 h.uri, (hrange _).2 h.range, hcontainer ▸ h.container⟩

end Nest

/-- A record without members of the second shape, and the same record in the second shape, stand for the same symbol, or neither
stands for one. Any record stands for what its members are read as, where a counterpart counts only if the record itself has no such
member: what a symbol has is read from the members that its record itself has. -/
theorem symbolOfRecord_shapes (record : Pairs) :
    (record.get? "location".toList = none → record.get? "containerName".toList = none →
      (symbolOfRecord (nest record)).toOption = (symbolOfRecord record).toOption) ∧
    (∀ pairs : Pairs, (∀ key ∈ Located.keys, pairs.get? key = (record.get? key).or (counterpart? record key)) →
      ∀ symbol, symbolOfRecord record = .ok symbol ↔ Located.Fields pairs symbol) ∧
    ∀ symbol, symbolOfRecord record = .ok symbol →
      (∀ v, record.get? "uri".toList = some v → v.toText = .ok symbol.uri) ∧
      (∀ v, record.get? "range".toList = some v → Range.ofValue v = .ok symbol.range) ∧
      ∀ v, record.get? "container_name".toList = some v → v.toOptional Value.toText = .ok symbol.container := by
  refine ⟨?_, ?_, ?_⟩
  · intro hlocation hcamel
    refine Checked.toOption_eq_of_ok_iff fun symbol => ?_
    rw [symbolOfRecord_eq_ok_iff, symbolOfRecord_eq_ok_iff, fields_nest_iff hlocation hcamel]
  · intro pairs hpairs symbol
    have hsame : Located.ofValue (.table (flatten record)) = Located.ofValue (.table pairs) := by
      refine Located.ofValue_congr fun key hkey => ?_
      rw [get?_flatten hkey, hpairs key hkey]
    rw [symbolOfRecord, hsame, Located.ofValue_eq_ok_iff]
  · intro symbol hsymbol
    have hfields := symbolOfRecord_eq_ok_iff.1 hsymbol
    refine ⟨fun v hv => read_eq_ok_of_get? (by decide) hv hfields.uri,
      fun v hv => read_eq_ok_of_get? (by decide) hv hfields.range, fun v hv => ?_⟩
    rcases hfields.container with ⟨hnone, -⟩ | hcontainer
    · rw [get?_flatten (by decide), hv, Option.some_or] at hnone
      cases hnone
    · exact read_eq_ok_of_get? (by decide) hv hcontainer

/-- The range of one line. -/
def lineRange (line : Int) : Value :=
  .table [("start".toList, .table [("line".toList, .int line)]), ("end".toList, .table [("line".toList, .int line)])]

/-- A record in the first shape, with a container that is null and a member that neither shape has. -/
def flatRecord : Pairs :=
  [("uri".toList, .text "a.c".toList), ("name".toList, .text "f".toList), ("container_name".toList, .null),
    ("range".toList, lineRange 3), ("tags".toList, .list [])]

/-- A record that has its document and its container twice, and its range under `location` only. -/
def doubleRecord : Pairs :=
  [("name".toList, .text "f".toList), ("containerName".toList, .bool true), ("container_name".toList, .text "top".toList),
    ("uri".toList, .text "a.c".toList), ("location".toList, .table [("uri".toList, .text "b.c".toList), ("range".toList, lineRange 7)])]

/-- The first record stands for its symbol in both shapes, and the second one for a symbol with its own document and container. -/
theorem symbolOfRecord_shapes_both :
    (flatRecord.get? "location".toList = none ∧ flatRecord.get? "containerName".toList = none) ∧
      (symbolOfRecord (nest flatRecord)).toOption = some ⟨"f".toList, none, "a.c".toList, ⟨⟨3, 0⟩, ⟨3, 0⟩⟩, none⟩ ∧
      symbolOfRecord doubleRecord = .ok ⟨"f".toList, none, "a.c".toList, ⟨⟨7, 0⟩, ⟨7, 0⟩⟩, some "top".toList⟩ ∧
      Value.toText (.text "a.c".toList) = .ok "a.c".toList := by
  have hlocation : flatRecord.get? "location".toList = none := by rfl
  have hcamel : flatRecord.get? "containerName".toList = none := by rfl
  have hflat : (symbolOfRecord flatRecord).toOption = some ⟨"f".toList, none, "a.c".toList, ⟨⟨3, 0⟩, ⟨3, 0⟩⟩, none⟩ := by rfl
  have hdouble : symbolOfRecord doubleRecord = .ok ⟨"f".toList, none, "a.c".toList, ⟨⟨7, 0⟩, ⟨7, 0⟩⟩, some "top".toList⟩ := by rfl
  refine ⟨⟨hlocation, hcamel⟩, ?_, hdouble, ?_⟩
  · rw [(symbolOfRecord_shapes flatRecord).1 hlocation hcamel, hflat]
  · exact ((symbolOfRecord_shapes doubleRecord).2.2 _ hdouble).1 _ rfl

end SymbolSearch.Dump
