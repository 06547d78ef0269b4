import SymbolSearch.Proofs.Provider
import SymbolSearch.Proofs.Search.Session

/-!
# Several keywords as one question

A provider is asked for one keyword at a time. Where it answers from one list of symbols, what its answers share is what a single
question for all keywords at once would give: the symbols that hold every keyword, of each identity the first
(`shared_queryKeywords_eq`). Neither the order of the keywords nor the number of workers shows.
-/

namespace SymbolSearch

/-! ## The first symbol of each identity -/

namespace Located

/-- The two are the same symbol, whatever else is known of them. -/
def isSame (symbol other : Located) : Bool :=
  symbol.identity = other.identity

variable {seen : List Identity} {symbols : List Located} {symbol : Located}

/-- Nothing that was seen before comes again. -/
theorem identity_not_mem_of_mem_firstsAfter (h : symbol ∈ firstsAfter seen symbols) : symbol.identity ∉ seen := by
  induction symbols generalizing seen with
  | nil => cases h
  | cons first rest ih =>
    rw [firstsAfter] at h
    split at h
    · exact ih h
    · rename_i hnew
      rcases List.mem_cons.1 h with rfl | h
      · simpa using hnew
      · have hrest := ih h
        rw [List.mem_cons, not_or] at hrest
        exact hrest.2

/-- The first symbol of a list comes first, and then the firsts of those that are not the same. -/
theorem firsts_cons (symbol : Located) (rest : List Located) :
    firsts (symbol :: rest) = symbol :: firsts (rest.filter (fun other => decide (isSame other symbol = false))) := by
  let differs : Identity → Bool := fun identity => decide (decide (identity = symbol.identity) = false)
  have hseen : ∀ identity, differs identity = true → (identity ∈ ([] : List Identity) ↔ identity ∈ [symbol.identity]) := by
    intro identity hd
    have hne : identity ≠ symbol.identity := by simpa [differs] using hd
    simp [hne]
  have hall : ∀ other ∈ firstsAfter [symbol.identity] rest, differs other.identity = true := by
    intro other hother
    have hne := identity_not_mem_of_mem_firstsAfter hother
    simpa [differs] using hne
  have hfirst : firsts (symbol :: rest) = symbol :: firstsAfter [symbol.identity] rest := rfl
  rw [hfirst]
  congr 1
  calc firstsAfter [symbol.identity] rest
      = (firstsAfter [symbol.identity] rest).filter (fun other => differs other.identity) := (List.filter_eq_self.2 hall).symm
    _ = firstsAfter [] (rest.filter (fun other => differs other.identity)) := (firstsAfter_filter differs rest hseen).symm

/-- Keeping the first symbol of each identity is what the library does when it erases repeated ones. -/
theorem firsts_eq_eraseDupsBy : ∀ symbols : List Located, firsts symbols = symbols.eraseDupsBy isSame
  | [] => rfl
  | symbol :: rest => by rw [firsts_cons, List.eraseDupsBy_cons, firsts_eq_eraseDupsBy]
termination_by symbols => symbols.length
-- the rest is filtered before the next step
decreasing_by exact Nat.lt_succ_of_le (List.length_filter_le _ _)

/-- Of each identity that has not been seen, a symbol is kept. -/
theorem exists_mem_firstsAfter (h : symbol ∈ symbols) :
    symbol.identity ∈ seen ∨ ∃ first ∈ firstsAfter seen symbols, first.identity = symbol.identity := by
  induction symbols generalizing seen with
  | nil => cases h
  | cons first rest ih =>
    rw [firstsAfter]
    split
    · rename_i hseen
      rcases List.mem_cons.1 h with rfl | h
      · exact Or.inl (by simpa using hseen)
      · exact ih h
    · rcases List.mem_cons.1 h with rfl | h
      · exact Or.inr ⟨symbol, List.mem_cons_self, rfl⟩
      · rcases @ih (first.identity :: seen) h with hmem | ⟨other, hother, heq⟩
        · rcases List.mem_cons.1 hmem with heq | hmem
          · exact Or.inr ⟨first, List.mem_cons_self, heq.symm⟩
          · exact Or.inl hmem
        · exact Or.inr ⟨other, List.mem_cons_of_mem _ hother, heq⟩

/-- Of each symbol, one with its identity is among the firsts. -/
theorem exists_mem_firsts (h : symbol ∈ symbols) : ∃ first ∈ firsts symbols, first.identity = symbol.identity :=
  (exists_mem_firstsAfter h).resolve_left List.not_mem_nil

/-- A symbol holds keywords where each of them stands in its name, both in small letters. -/
theorem holds_iff {keywords : List Text} :
    holds keywords symbol = true ↔ ∀ keyword ∈ keywords, Text.lower keyword <:+: Text.lower symbol.name := by
  simp only [holds, List.all_eq_true, Text.occursIn_iff_infix]

/-- Only which keywords there are matters, not their order nor how often each comes. -/
theorem holds_congr {keywords others : List Text} (h : ∀ keyword, keyword ∈ others ↔ keyword ∈ keywords) :
    holds others = holds keywords := by
  funext symbol
  rw [Bool.eq_iff_iff, holds_iff, holds_iff]
  simp only [h]

/-- Filtering by keywords and keeping the first of each identity go in either order: the identity includes the name. -/
theorem firsts_filter_holds (keywords : List Text) (symbols : List Located) :
    firsts (symbols.filter (holds keywords)) = (firsts symbols).filter (holds keywords) :=
  firsts_filter (fun identity => keywords.all (fun keyword => (Text.lower keyword).occursIn (Text.lower identity.name))) symbols

end Located

/-! ## One question for all keywords -/

namespace Provider

variable {host : Host} {provider : Provider} {memory : DumpMemory} {symbols : List Located} {path : Text}

/-- The provider answers from these symbols: it holds them, or its dump can be read and gives them, and nothing else is remembered
of the dump under the signature that it has. -/
inductive Stores (host : Host) : Provider → DumpMemory → List Located → Prop
  | held (memory : DumpMemory) (symbols : List Located) : Stores host (.held symbols) memory symbols
  | dump {path : Text} {memory : DumpMemory} {symbols : List Located} (hload : Dump.load host path = .ok symbols)
      (hmemory : memory.Current host path) : Stores host (.dump path) memory symbols

/-- A dump that can be read has a signature. -/
theorem exists_signature_of_load (h : Dump.load host path = .ok symbols) : ∃ signature, host.signature path = .ok signature := by
  unfold Dump.load at h
  split at h
  · rename_i content hread
    obtain ⟨entry, hstat, -⟩ := bind_eq_ok_iff.1 hread
    simp only [Host.signature, Disk.signature, hstat]
    cases entry with
    | file content stamp denied => exact ⟨_, rfl⟩
    | link target => exact ⟨_, rfl⟩
    | directory children => exact ⟨_, rfl⟩
  · cases h

/-- A provider that stores symbols has them in stock. -/
theorem Stores.stock_eq (h : Stores host provider memory symbols) :
    provider.hasOwnSymbols = true ∧ provider.stock host memory = symbols := by
  cases h with
  | held => exact ⟨rfl, named_nil symbols⟩
  | @dump path _ _ hload hmemory =>
    obtain ⟨signature, hsignature⟩ := exists_signature_of_load hload
    have hfresh : DumpMemory.fresh.refresh host path = .ok ⟨some signature, symbols⟩ := by
      simp only [DumpMemory.refresh, hsignature, DumpMemory.refreshAs, DumpMemory.fresh, reduceCtorEq, if_false, hload]
      rfl
    refine ⟨rfl, ?_⟩
    simp only [stock, query, hmemory.refresh_eq, hfresh, Response.symbols, named_nil]

/-- Where a provider answers from one list, what its answers for several keywords share is the answer to one question for all of
them: the symbols of the list that hold every keyword, in order, of each identity the first. Keywords in another order or
repeated, and any number of workers, give the same; and of each symbol that holds every keyword there is one with its identity. -/
theorem shared_queryKeywords_eq (h : Stores host provider memory symbols) {keywords : List Text} (hne : keywords ≠ [])
    (most : Int) :
    Located.shared (provider.queryKeywords host memory keywords most).1 =
        (symbols.filter (Located.holds keywords)).eraseDupsBy Located.isSame ∧
      (∀ (others : List Text) (mostOthers : Int), (∀ keyword, keyword ∈ others ↔ keyword ∈ keywords) →
        Located.shared (provider.queryKeywords host memory others mostOthers).1 =
          Located.shared (provider.queryKeywords host memory keywords most).1) ∧
      ∀ symbol ∈ symbols, (∀ keyword ∈ keywords, Text.lower keyword <:+: Text.lower symbol.name) →
        ∃ found ∈ Located.shared (provider.queryKeywords host memory keywords most).1, found.identity = symbol.identity := by
  obtain ⟨hown, hstock⟩ := h.stock_eq
  have hshared : ∀ (others : List Text), others ≠ [] → ∀ mostOthers,
      Located.shared (provider.queryKeywords host memory others mostOthers).1 =
        Located.firsts (symbols.filter (Located.holds others)) := by
    intro others hothers mostOthers
    rw [shared_queryKeywords hown hothers, hstock, Located.firsts_filter_holds]
  refine ⟨?_, ?_, ?_⟩
  · rw [hshared keywords hne, Located.firsts_eq_eraseDupsBy]
  · intro others mostOthers hmem
    have hothers : others ≠ [] := by
      obtain ⟨keyword, hk⟩ := List.exists_mem_of_ne_nil keywords hne
      exact List.ne_nil_of_mem ((hmem keyword).2 hk)
    rw [hshared others hothers, hshared keywords hne, Located.holds_congr hmem]
  · intro symbol hs hholds
    rw [hshared keywords hne]
    exact Located.exists_mem_firsts (List.mem_filter.2 ⟨hs, Located.holds_iff.2 hholds⟩)

/-- A list in which one symbol comes twice, with another classification and another spelling of a name between the two. -/
def overloads : List Located :=
  [⟨"open_FILE".toList, some (.code 12), "file:///a.c".toList, ⟨⟨3, 4⟩, ⟨3, 13⟩⟩, none⟩,
    ⟨"openFile".toList, some (.code 12), "file:///a.c".toList, ⟨⟨9, 4⟩, ⟨9, 12⟩⟩, none⟩,
    ⟨"open_FILE".toList, some (.word "f".toList), "file:///a.c".toList, ⟨⟨3, 4⟩, ⟨3, 13⟩⟩, some "io".toList⟩,
    ⟨"close_file".toList, none, "file:///b.c".toList, ⟨⟨0, 0⟩, ⟨0, 10⟩⟩, none⟩]

set_option maxRecDepth 4000 in
/-- Two keywords find both names that hold them, the repeated symbol once; and so do they in another order, one of them repeated,
with fewer workers than keywords. -/
theorem shared_queryKeywords_overloads :
    Stores .empty (.held overloads) .fresh overloads ∧ ["File".toList, "oPEN".toList] ≠ [] ∧
      Located.shared ((Provider.held overloads).queryKeywords .empty .fresh
        ["oPEN".toList, "File".toList, "oPEN".toList] (-1)).1 = overloads.take 2 := by
  have hs : Stores .empty (.held overloads) .fresh overloads := .held _ _
  have hne : ["File".toList, "oPEN".toList] ≠ [] := List.cons_ne_nil _ _
  obtain ⟨heq, hany, -⟩ := shared_queryKeywords_eq hs hne 4
  refine ⟨hs, hne, ?_⟩
  rw [hany _ (-1) (by simp [or_comm]), heq]
  cbv

end Provider

end SymbolSearch
