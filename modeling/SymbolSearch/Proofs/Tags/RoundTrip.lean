import SymbolSearch.Proofs.Path.Writing
import SymbolSearch.Proofs.Tags
import SymbolSearch.Proofs.Tags.Fields

/-!
# Writing tags files and reading them back

A record is what one tag line can carry. `render` writes records as a tags file, one line for each, and reading that text gives one
symbol for each record, in order and with just what was written (`parse_render`). The line of a record is read field by field
(`Record.ofText?_text`); its kind and its attributes are found in the text of all further fields (`Record.toLine_kind`,
`Record.toLine_attributes`).
-/

namespace SymbolSearch

namespace Tags

/-- What a tag line can carry: a name, the file and the line of the definition, and what is known of the symbol. -/
structure Record where
  name : Text
  file : Text
  line : Nat
  kind : Option Text
  attributes : Attributes
  name_ne_nil : name ≠ []
  /-- A line that starts with this mark is a header line. -/
  name_head : name.head? ≠ some '!'
  name_oneField : '\t' ∉ name ∧ '\n' ∉ name
  file_oneField : '\t' ∉ file ∧ '\n' ∉ file
  line_pos : 1 ≤ line
  /-- A line number with more digits is not read. -/
  line_digits : (Text.ofNat line).length ≤ 4300
  kind_token : ∀ word ∈ kind, IsToken word ∧ ':' ∉ word
  keys : ∀ pair ∈ attributes.pairs, IsKey pair.1
  values : ∀ pair ∈ attributes.pairs, IsToken pair.2
  /-- Where no kind is written, an attribute of this name would be taken for it. -/
  kind_key : kind = none → "kind".toList ∉ attributes.pairs.map Prod.fst

namespace Record

/-- The fields behind the command: the kind, if there is one, and the attributes. -/
def fields (record : Record) : List Text :=
  record.kind.toList ++ record.attributes.pairs.map written

/-- All fields of the line: the command is the line number with a terminator glued to it. -/
def columns (record : Record) : List Text :=
  record.name :: record.file :: (Text.ofNat record.line ++ terminator) :: record.fields

/-- The line of a record: its fields with tabs between them. -/
def text (record : Record) : Text :=
  Text.joinWith ['\t'] record.columns

/-- What reading the line of a record comes to. -/
def toLine (record : Record) : Line :=
  ⟨record.name, record.file, Text.ofNat record.line, true, if record.fields.isEmpty then none else some record.fields,
    record.name_ne_nil⟩

/-- The path of the file: its normal form, seen from a directory unless it is absolute. -/
def path (directory : Text) (record : Record) : Text :=
  if record.file.head? = some '/' then Path.normalize record.file
  else Path.normalize (Path.joinText directory record.file)

/-- The symbol that a record stands for in a tags file of a directory. -/
def symbol (directory : Text) (record : Record) : Symbol :=
  ⟨record.name, some ⟨record.path directory, record.line, record.line_pos⟩, record.kind, record.attributes, record.name_ne_nil⟩

end Record

/-- Records as the text of a tags file. -/
def render (records : List Record) : Text :=
  Text.joinWith ['\n'] (records.map Record.text)

variable (record : Record)

/-! ## The fields of a line -/

/-- The number of a line with its terminator is a token. -/
theorem isToken_command (n : Nat) : IsToken (Text.ofNat n ++ terminator) := by
  refine ⟨List.append_ne_nil_of_right_ne_nil _ (List.cons_ne_nil _ _), ?_⟩
  intro c hc
  rcases List.mem_append.1 hc with hc | hc
  · exact Text.isBlank_of_isWordChar (Text.digit_of_mem_ofNat hc).2.2
  · simp only [terminator, List.mem_cons, List.not_mem_nil, or_false] at hc
    rcases hc with rfl | rfl <;> decide

namespace Record

/-- The fields behind the command are tokens. -/
theorem isToken_of_mem_fields {field : Text} (h : field ∈ record.fields) : IsToken field := by
  rcases List.mem_append.1 h with h | h
  · exact (record.kind_token field (Option.mem_toList.1 h)).1
  · obtain ⟨pair, hpair, rfl⟩ := List.mem_map.1 h
    exact isToken_written (record.keys pair hpair) (record.values pair hpair)

/-- The command and the fields behind it are tokens. -/
theorem isToken_of_mem_tail {field : Text} (h : field ∈ (Text.ofNat record.line ++ terminator) :: record.fields) :
    IsToken field := by
  rcases List.mem_cons.1 h with rfl | h
  · exact isToken_command record.line
  · exact record.isToken_of_mem_fields h

/-- Neither a tab nor a line feed stands in a field of a record. -/
theorem not_mem_of_mem_columns {field : Text} (h : field ∈ record.columns) : '\t' ∉ field ∧ '\n' ∉ field := by
  rcases List.mem_cons.1 h with rfl | h
  · exact record.name_oneField
  · rcases List.mem_cons.1 h with rfl | h
    · exact record.file_oneField
    · have htoken := record.isToken_of_mem_tail h
      exact ⟨htoken.not_mem (by decide), htoken.not_mem (by decide)⟩

/-- A record is written on one line. -/
theorem lineFeed_not_mem_text : '\n' ∉ record.text := by
  intro hmem
  rcases Text.of_mem_joinWith hmem with hmem | ⟨field, hfield, hmem⟩
  · cases hmem with
    | tail _ h => cases h
  · exact (record.not_mem_of_mem_columns hfield).2 hmem

/-- The line of a record does not end with a blank. -/
theorem isBlank_of_getLast?_text {c : Char} (h : record.text.getLast? = some c) : Text.isBlank c = false := by
  have htail := Text.joinWith_ne_nil ['\t'] (isToken_command record.line).1 record.fields
  rw [text, columns, Text.joinWith_cons (List.cons_ne_nil _ _), Text.joinWith_cons (List.cons_ne_nil _ _),
    List.getLast?_append_of_ne_nil _ (List.append_ne_nil_of_right_ne_nil _ htail),
    List.getLast?_append_of_ne_nil _ htail] at h
  exact Text.of_getLast?_joinWith (fun _ hf => record.isToken_of_mem_tail hf) h

/-- The line of a record is well formed and read field by field. -/
theorem ofText?_text : Line.ofText? record.text = some record.toLine := by
  have htrim : Text.trimEnd (· = '\r') record.text = record.text := by
    refine Text.trimEnd_eq_self fun c hc => decide_eq_false ?_
    rintro rfl
    exact absurd (record.isBlank_of_getLast?_text hc) (by decide)
  have hhead : record.text.head? ≠ some '!' := by
    obtain ⟨rest, htext, -⟩ := exists_joinWith_cons record.name record.columns.tail
    rw [show record.text = record.name ++ rest from htext, List.head?_append_of_ne_nil _ record.name_ne_nil]
    exact record.name_head
  have hsplit : Text.splitOn '\t' record.text = record.columns :=
    Text.splitOn_joinWith (List.cons_ne_nil _ _) (fun _ hf => (record.not_mem_of_mem_columns hf).1)
  simp only [Line.ofText?, htrim, if_neg hhead, hsplit, columns, dif_neg record.name_ne_nil, splitTerminator_glued]
  rfl

/-! ## Kind and attributes -/

/-- Where something is written behind the command, it is found behind a terminator. -/
theorem toLine_extension (h : record.fields ≠ []) :
    record.toLine.extension = terminator ++ '\t' :: Text.joinWith ['\t'] record.fields := by
  simp only [Line.extension, toLine, List.isEmpty_eq_false_iff.2 h, Bool.false_eq_true, if_false, if_true]
  rw [Text.strip, Text.trim_joinWith (fun _ hf => record.isToken_of_mem_fields hf)]

/-- The fields behind the command give the attributes of the record: the kind has no colon. -/
theorem attributesFrom_joinWith_fields :
    attributesFrom 0 false (Text.joinWith ['\t'] record.fields) = record.attributes.pairs := by
  have hattributes := attributesFrom_fields record.keys record.values
  cases hkind : record.kind with
  | none =>
    rw [fields, hkind]
    exact hattributes
  | some word =>
    obtain ⟨rest, hjoined, hrest, htail⟩ := exists_joinWith_cons word (record.attributes.pairs.map written)
    have hword := (record.kind_token word hkind).2
    rw [fields, hkind, Option.toList_some, List.singleton_append, hjoined, attributesFrom_plain hword hrest, htail]
    exact hattributes

/-- The attributes of a record are read from its line. -/
theorem toLine_attributes : record.toLine.attributes = record.attributes := by
  have hfound : attributesFrom 0 false record.toLine.extension = record.attributes.pairs := by
    by_cases hne : record.fields = []
    · rw [← attributesFrom_joinWith_fields]
      simp [Line.extension, toLine, hne, Text.joinWith]
    · rw [toLine_extension record hne, attributesFrom_plain (by decide) (blankNext_cons (by decide) _), List.tail_cons]
      exact record.attributesFrom_joinWith_fields
  rw [Line.attributes, attributesOf, hfound]
  exact Attributes.ext (Attributes.pairs_ofPairs record.attributes.nodup)

/-- The kind of a record is read from its line. Without one, the first attribute is the marked word, and has a colon. -/
theorem toLine_kind : record.toLine.kind = record.kind := by
  rw [Line.kind, toLine_attributes]
  cases hkind : record.kind with
  | some word =>
    obtain ⟨htoken, hcolon⟩ := record.kind_token word hkind
    have hfields : record.fields = word :: record.attributes.pairs.map written := by rw [fields, hkind]; rfl
    have hmarked : markedWord? record.toLine.extension = some word := by
      rw [toLine_extension record (by rw [hfields]; exact List.cons_ne_nil _ _), hfields]
      exact markedWord?_fields htoken _
    have hplain : word.contains ':' = false := by simpa using hcolon
    simp only [hmarked, hplain, Bool.false_eq_true, if_false]
  | none =>
    have hget := Attributes.get?_eq_none (record.kind_key hkind)
    have hfields : record.fields = record.attributes.pairs.map written := by rw [fields, hkind]; rfl
    cases hattributes : record.attributes.pairs with
    | nil =>
      rw [hattributes] at hfields
      have hextension : record.toLine.extension = [] := by simp [Line.extension, toLine, hfields]
      simp only [hextension, markedWord?, hget]
    | cons pair pairs =>
      rw [hattributes] at hfields
      have hmarked : markedWord? record.toLine.extension = some (written pair) := by
        rw [toLine_extension record (by rw [hfields]; exact List.cons_ne_nil _ _), hfields]
        exact markedWord?_fields (record.isToken_of_mem_fields (by rw [hfields]; exact List.mem_cons_self)) _
      have hcolon : (written pair).contains ':' = true := by simp [written]
      simp only [hmarked, hcolon, if_true, hget]

/-! ## Symbols -/

/-- The line number of a record is read from its digits. -/
theorem lineNumber_ofNat : lineNumber (Text.ofNat record.line) = record.line := by
  have hlimit : ¬Number.digitLimit < (Text.ofNat record.line).length := Nat.not_lt.2 record.line_digits
  rw [lineNumber, if_neg hlimit, Text.digitsValue_ofNat, Nat.max_eq_right record.line_pos]

/-- The file of a record is seen from the directory of the tags file. -/
theorem pathOf_file (directory : Text) : pathOf directory record.file = record.path directory := by
  simp only [pathOf, path, Path.isAbsolute_ofText_iff]
  split <;> rfl

/-- The line of a record gives its symbol, and nothing is looked up for it. -/
theorem symbolOf_toLine (resolving : Resolving) (directory : Text) (finder : LineFinder) :
    symbolOf resolving directory finder record.toLine = .ok (record.symbol directory, finder) := by
  have hdigits : (!(Text.ofNat record.line).isEmpty && (Text.ofNat record.line).all Text.isDigit) = true := by
    have hne : Text.ofNat record.line ≠ [] := Nat.toDigits_ne_nil
    have hall : (Text.ofNat record.line).all Text.isDigit = true :=
      List.all_eq_true.2 fun c hc => (Text.digit_of_mem_ofNat hc).1
    simp [hne, hall]
  have hline : lineOf resolving finder (pathOf directory record.toLine.file) record.toLine.command = .ok (record.line, finder) := by
    simp only [lineOf, toLine, hdigits, if_true, lineNumber_ofNat]
  rw [symbolOf_of_ok hline]
  simp only [Line.symbolAt, toLine_kind, toLine_attributes]
  simp only [toLine, pathOf_file, symbol]

end Record

/-- The lines of records give their symbols in order. -/
theorem symbolsOf_toLine (resolving : Resolving) (directory : Text) (finder : LineFinder) (records : List Record) :
    symbolsOf resolving directory finder (records.map Record.toLine) =
      .ok (records.map (Record.symbol directory), finder) := by
  induction records with
  | nil => rfl
  | cons record records ih =>
    rw [List.map_cons, symbolsOf, record.symbolOf_toLine]
    simp only [bind, Except.bind, ih, List.map_cons]

/-- A tags file that was written from records has one well-formed line for each of them. -/
theorem linesOf_render (records : List Record) : linesOf (render records) = records.map Record.toLine := by
  by_cases hne : records = []
  · subst hne
    rfl
  · have hsplit : Text.splitOn '\n' (render records) = records.map Record.text := by
      refine Text.splitOn_joinWith (by simpa using hne) fun line hline => ?_
      obtain ⟨record, -, rfl⟩ := List.mem_map.1 hline
      exact record.lineFeed_not_mem_text
    have hread : Line.ofText? ∘ Record.text = some ∘ Record.toLine := funext Record.ofText?_text
    rw [linesOf, hsplit, List.filterMap_map, hread, List.filterMap_eq_map]

/-- Reading a tags file that was written from records gives one symbol for each record, in order, with its name, the path of its
file seen from the directory of the tags file, its line, its kind and its attributes. -/
theorem parse_render (workingDir : Text) (resolving : Resolving) (records : List Record) (path : Text) :
    parse workingDir resolving (render records) path =
      .ok (records.map (Record.symbol (Path.directoryOf (Path.absolute workingDir path)))) := by
  rw [parse, linesOf_render, symbolsOf_toLine]
  rfl

/-- A record that is full of what divides fields elsewhere: its name and its kind hold a terminator, and the values hold colons,
one of them a terminator. -/
def crowdedRecord : Record where
  name := "operator ;\" x:y".toList
  file := "a b/../c.h".toList
  line := 42
  kind := some ";\"".toList
  attributes := .ofPairs [("class".toList, "A::B".toList), ("kind".toList, "k:f;\"".toList), ("λ".toList, ":".toList)]
  name_ne_nil := by decide
  name_head := by decide
  name_oneField := by decide
  file_oneField := by decide
  line_pos := by decide
  line_digits := by decide
  kind_token := by decide
  keys := by decide +kernel
  values := by decide
  kind_key := by decide

/-- A record without a kind, of a file with an absolute path. -/
def kindlessRecord : Record where
  name := "f".toList
  file := "/usr//d.c".toList
  line := 1
  kind := none
  attributes := .ofPairs [("signature".toList, "(int:3)".toList)]
  name_ne_nil := by decide
  name_head := by decide
  name_oneField := by decide
  file_oneField := by decide
  line_pos := by decide
  line_digits := by decide
  kind_token := by decide
  keys := by decide +kernel
  values := by decide
  kind_key := by decide

/-- Both records come back, each with its path as it is seen from the tags file. -/
theorem parse_render_crowded :
    parse "/home".toList .off (render [crowdedRecord, kindlessRecord]) "/ws/tags".toList =
      .ok [⟨"operator ;\" x:y".toList, some ⟨"/ws/c.h".toList, 42, by decide⟩, some ";\"".toList,
          .ofPairs [("class".toList, "A::B".toList), ("kind".toList, "k:f;\"".toList), ("λ".toList, ":".toList)], by decide⟩,
        ⟨"f".toList, some ⟨"/usr/d.c".toList, 1, by decide⟩, none, .ofPairs [("signature".toList, "(int:3)".toList)],
          by decide⟩] := by
  rw [parse_render]
  rfl

end Tags

end SymbolSearch
