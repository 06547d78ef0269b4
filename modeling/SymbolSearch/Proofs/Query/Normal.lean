import SymbolSearch.Proofs.Disk
import SymbolSearch.Proofs.Matching
import SymbolSearch.Proofs.Provider

/-!
# Queries in normal form

The keywords of a query are the runs between the blanks of its text, in lower case (`keywords_eq`). They are in a form that no later
step changes: an index drops blank keywords and lowers the others, a provider lowers each of them and a scan takes them as they are, and
all three compare names with the same keywords. Keywords in this form are read back from a text in which a space stands between each two
of them (`ofText_joinWith`), and the text that a query keeps is read as the same query (`ofText_text`).
-/

namespace SymbolSearch.Query

variable {s keyword : Text} {keywords : List Text}

/-- A keyword in normal form: it is not empty, holds no blanks and is its own lower-case form. -/
structure IsKeyword (keyword : Text) : Prop where
  ne_nil : keyword ≠ []
  notBlank : ∀ c ∈ keyword, Text.isBlank c = false
  lowered : Text.lower keyword = keyword

/-! ## Reading a query -/

/-- The keywords of a query are the pieces into which the blanks cut its text, the empty ones left out, in lower case. -/
theorem keywords_eq (s : Text) :
    (ofText s).keywords = ((s.splitOnP Text.isBlank).filter (fun run => !run.isEmpty)).map Text.lower := by
  have hfields : (ofText s).keywords = s.fields.map Text.lower := by simp only [ofText, Text.fields_strip]
  rw [hfields, Text.fields, Text.words_eq]

/-- The keywords of a query are in normal form. -/
theorem isKeyword_of_mem (h : keyword ∈ (ofText s).keywords) : IsKeyword keyword := by
  obtain ⟨hne, hblank, -⟩ := keyword_spec h
  exact ⟨hne, hblank, lower_keyword h⟩

/-- The text that a query keeps is read as the same query. -/
theorem ofText_text (s : Text) : ofText (ofText s).text = ofText s := by
  simp only [ofText, Text.strip_strip]

/-- Keywords in normal form are read back from the text in which a space stands between each two of them. -/
theorem ofText_joinWith (h : ∀ keyword ∈ keywords, IsKeyword keyword) :
    ofText (Text.joinWith [' '] keywords) = ⟨Text.joinWith [' '] keywords, keywords⟩ := by
  have hruns : ∀ keyword ∈ keywords, keyword ≠ [] ∧ ∀ c ∈ keyword, Text.isBlank c = false := by
    intro keyword hk
    exact ⟨(h keyword hk).ne_nil, (h keyword hk).notBlank⟩
  have hstrip : (Text.joinWith [' '] keywords).strip = Text.joinWith [' '] keywords := Text.trim_joinWith hruns
  have hfields : (Text.joinWith [' '] keywords).fields = keywords := Text.words_joinWith (by decide) hruns
  have hlower : keywords.map Text.lower = keywords := by
    rw [List.map_congr_left fun keyword hk => (h keyword hk).lowered, List.map_id']
  simp only [ofText, hstrip, hfields, hlower]

/-! ## The keywords that names are compared with -/

/-- An index compares names with the keywords of a query as they are. -/
theorem filter_keywords (s : Text) (index : Index) (mode : MatchMode) :
    index.filter (ofText s).keywords mode =
      index.symbols.filter (fun symbol => nameMatches mode (ofText s).keywords symbol.name) := by
  rw [Index.filter, normalizeKeywords_keywords]

/-- A provider with symbols of its own compares their lower-case names with the keywords of a query as they are. -/
theorem queryKeywords_keywords (s : Text) {provider : Provider} (h : provider.hasOwnSymbols = true) (host : Host)
    (memory : DumpMemory) (most : Int) :
    (provider.queryKeywords host memory (ofText s).keywords most).1 =
      (ofText s).keywords.map fun keyword =>
        (provider.stock host memory).filter (fun symbol => keyword.occursIn (Text.lower symbol.name)) := by
  rw [Provider.queryKeywords_of_hasOwnSymbols h]
  refine List.map_congr_left fun keyword hk => ?_
  rw [Provider.named, lower_keyword hk]

/-- Reading a query brings its keywords into a normal form that all sources share. They are the runs between the blanks of the text in
lower case; each is not empty, holds no blanks and is its own lower-case form, and dropping blank keywords and lowering the others
changes nothing. So an index, a provider with symbols of its own and a scan compare names with the same keywords. The keywords written
down with a space between each two are read as a query with these keywords, and the text that a query keeps as the query itself. -/
theorem ofText_normal (s : Text) :
    (ofText s).keywords = ((s.splitOnP Text.isBlank).filter (fun run => !run.isEmpty)).map Text.lower ∧
      (∀ keyword ∈ (ofText s).keywords, IsKeyword keyword) ∧
      normalizeKeywords (ofText s).keywords = (ofText s).keywords ∧
      (∀ (index : Index) (mode : MatchMode), index.filter (ofText s).keywords mode =
        index.symbols.filter (fun symbol => nameMatches mode (ofText s).keywords symbol.name)) ∧
      (∀ provider : Provider, provider.hasOwnSymbols = true → ∀ (host : Host) (memory : DumpMemory) (most : Int),
        (provider.queryKeywords host memory (ofText s).keywords most).1 =
          (ofText s).keywords.map fun keyword =>
            (provider.stock host memory).filter (fun symbol => keyword.occursIn (Text.lower symbol.name))) ∧
      (∀ names : List Text, Definition.filterNames names (ofText s).keywords =
        names.filter (fun name => (ofText s).keywords.all (fun keyword => keyword.occursIn name))) ∧
      ofText (Text.joinWith [' '] (ofText s).keywords) =
        ⟨Text.joinWith [' '] (ofText s).keywords, (ofText s).keywords⟩ ∧
      ofText (ofText s).text = ofText s := by
  have hnormal : ∀ keyword ∈ (ofText s).keywords, IsKeyword keyword := fun keyword hk => isKeyword_of_mem hk
  refine ⟨keywords_eq s, hnormal, normalizeKeywords_keywords s, filter_keywords s, ?_, ?_, ofText_joinWith hnormal, ofText_text s⟩
  · intro provider hown host memory most
    exact queryKeywords_keywords s hown host memory most
  · intro names
    rfl

/-- A text with an information separator in front, a sigma at the end of a word, a no-break space and a capital I with a dot above. -/
def streetText : Text := "\x1cΟΔΟΣ\u00a0İ_x ".toList

/-- A symbol whose name holds both words of that text, in small letters. -/
def streetPlace : Located := ⟨"οδος_i\u0307_x".toList, none, "file:///a.c".toList, ⟨⟨0, 0⟩, ⟨0, 9⟩⟩, none⟩

/-- The sigma becomes a final one and the dotted I two characters; lowered once more, and read from a text with a plain space, the two
keywords stay as they are, and a provider finds the symbol for each of them. -/
theorem ofText_normal_street :
    (ofText streetText).keywords = ["οδος".toList, "i\u0307_x".toList] ∧ IsKeyword "οδος".toList ∧
      ofText "οδος i\u0307_x".toList = ⟨"οδος i\u0307_x".toList, ["οδος".toList, "i\u0307_x".toList]⟩ ∧
      (Provider.held [streetPlace]).hasOwnSymbols = true ∧
      ((Provider.held [streetPlace]).queryKeywords .empty .fresh ["οδος".toList, "i\u0307_x".toList] 4).1 =
        [[streetPlace], [streetPlace]] := by
  obtain ⟨-, hnormal, -, -, hprovider, -, hjoined, -⟩ := ofText_normal streetText
  have hkeywords : (ofText streetText).keywords = ["οδος".toList, "i\u0307_x".toList] := by decide +kernel
  have hspace : Text.joinWith [' '] ["οδος".toList, "i\u0307_x".toList] = "οδος i\u0307_x".toList := by decide +kernel
  rw [hkeywords] at hnormal hprovider hjoined
  rw [hspace] at hjoined
  refine ⟨hkeywords, hnormal _ List.mem_cons_self, hjoined, rfl, ?_⟩
  rw [hprovider _ rfl]
  decide +kernel

end SymbolSearch.Query
