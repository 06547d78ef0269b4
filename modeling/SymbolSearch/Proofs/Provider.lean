import Mathlib.Data.List.Basic
import SymbolSearch.Proofs.Answer
import SymbolSearch.Proofs.Text
import SymbolSearch.Provider.Basic

/-!
# What a provider answers

On a disk that does not change, a question gets the same response whatever was asked before (`query_query`), so asking for several
keywords is asking for each of them (`queryAll_responses`). A provider with symbols of its own answers from one list, its `stock`,
and the symbols that its answers share are those of the stock that hold every keyword, each identity once (`shared_named`).
-/

namespace SymbolSearch

/-! ## One list of symbols -/

namespace Located

/-- The name of the symbol holds every keyword, in any letter case. -/
def holds (keywords : List Text) (symbol : Located) : Bool :=
  keywords.all (fun keyword => (Text.lower keyword).occursIn (Text.lower symbol.name))

/-- Filtering by a property of identities and keeping the first of each identity go in either order, as long as the identities
seen before differ only in some without the property. -/
theorem firstsAfter_filter (p : Identity → Bool) {seen seen' : List Identity} (symbols : List Located)
    (h : ∀ identity, p identity = true → (identity ∈ seen ↔ identity ∈ seen')) :
    firstsAfter seen (symbols.filter (fun symbol => p symbol.identity)) =
      (firstsAfter seen' symbols).filter (fun symbol => p symbol.identity) := by
  induction symbols generalizing seen seen' with
  | nil => rfl
  | cons symbol rest ih =>
    cases hp : p symbol.identity with
    | true =>
      rw [List.filter_cons_of_pos (by exact hp), firstsAfter, firstsAfter]
      by_cases hs : symbol.identity ∈ seen
      · rw [if_pos (by simpa using hs), if_pos (by simpa using (h _ hp).1 hs)]
        exact ih h
      · have hs' : symbol.identity ∉ seen' := fun hmem => hs ((h _ hp).2 hmem)
        rw [if_neg (by simpa using hs), if_neg (by simpa using hs'), List.filter_cons_of_pos (by exact hp)]
        congr 1
        refine ih fun identity hi => ?_
        rw [List.mem_cons, List.mem_cons, h identity hi]
    | false =>
      rw [List.filter_cons_of_neg (by simp [hp]), firstsAfter]
      split
      · exact ih h
      · rw [List.filter_cons_of_neg (by simp [hp])]
        refine ih fun identity hi => ?_
        have hne : identity ≠ symbol.identity := by
          rintro rfl
          rw [hp] at hi
          cases hi
        rw [List.mem_cons, or_iff_right hne, h identity hi]

/-- Filtering by a property of identities and keeping the first of each identity go in either order. -/
theorem firsts_filter (p : Identity → Bool) (symbols : List Located) :
    firsts (symbols.filter (fun symbol => p symbol.identity)) = (firsts symbols).filter (fun symbol => p symbol.identity) :=
  firstsAfter_filter p symbols (fun _ _ => Iff.rfl)

/-- The first symbols of each identity are among the symbols. -/
theorem mem_of_mem_firstsAfter {seen : List Identity} {symbols : List Located} {symbol : Located}
    (h : symbol ∈ firstsAfter seen symbols) : symbol ∈ symbols := by
  induction symbols generalizing seen with
  | nil => cases h
  | cons first rest ih =>
    rw [firstsAfter] at h
    split at h
    · exact List.mem_cons_of_mem _ (ih h)
    · rcases List.mem_cons.1 h with rfl | h
      · exact List.mem_cons_self
      · exact List.mem_cons_of_mem _ (ih h)

/-- What is shared with one answer after the other is shared with all of them. -/
theorem foldl_filter_hasIdentity (kept : List Located) (others : List (List Located)) :
    others.foldl (fun kept other => kept.filter (fun s => hasIdentity other s.identity)) kept =
      kept.filter (fun s => others.all (fun other => hasIdentity other s.identity)) := by
  induction others generalizing kept with
  | nil => simp
  | cons other others ih =>
    rw [List.foldl_cons, ih, List.filter_filter]
    simp only [List.all_cons, Bool.and_comm]

/-- A symbol of a list is among those that pass a filter on identities exactly if its identity passes. -/
theorem hasIdentity_filter {symbols : List Located} {symbol : Located} (h : symbol ∈ symbols) (p : Identity → Bool) :
    hasIdentity (symbols.filter (fun s => p s.identity)) symbol.identity = p symbol.identity := by
  rw [Bool.eq_iff_iff, hasIdentity, List.any_eq_true]
  simp only [List.mem_filter, decide_eq_true_eq]
  constructor
  · rintro ⟨other, ⟨-, hp⟩, he⟩
    rw [← he]
    exact hp
  · intro hp
    exact ⟨symbol, ⟨h, hp⟩, rfl⟩

/-- The symbols that the answers for several keywords share, where each answer is taken from one list: those that hold every
keyword, each identity once, in the order of the list. -/
theorem shared_named {keywords : List Text} (hne : keywords ≠ []) (symbols : List Located) :
    shared (keywords.map (fun keyword => Provider.named keyword symbols)) = (firsts symbols).filter (holds keywords) := by
  -- holding a keyword is a property of the identity, since that includes the name
  let p : Text → Identity → Bool := fun keyword identity => (Text.lower keyword).occursIn (Text.lower identity.name)
  have hnamed : ∀ keyword, Provider.named keyword symbols = symbols.filter (fun s => p keyword s.identity) := fun _ => rfl
  cases keywords with
  | nil => exact absurd rfl hne
  | cons keyword rest =>
    rw [List.map_cons, shared, foldl_filter_hasIdentity, hnamed, firsts_filter, List.filter_filter]
    refine List.filter_congr fun symbol hs => ?_
    have hmem : symbol ∈ symbols := mem_of_mem_firstsAfter hs
    rw [holds, List.all_cons, Bool.and_comm, List.all_map]
    congr 1
    refine List.all_congr rfl fun other => ?_
    exact hasIdentity_filter hmem (p other)

end Located

/-! ## One question after the other -/

/-- A memory that has been refreshed is not changed by refreshing it again. -/
theorem DumpMemory.refresh_refresh {memory memory' : DumpMemory} {host : Host} {path : Text}
    (h : memory.refresh host path = .ok memory') : memory'.refresh host path = .ok memory' := by
  unfold refresh at h ⊢
  split at h
  · cases h
  · rename_i signature hs
    have hsignature : memory'.signature = some signature := by
      unfold refreshAs at h
      split at h
      · rename_i hm
        cases h
        exact hm
      · obtain ⟨symbols, -, rfl⟩ := map_eq_ok_iff.1 h
        rfl
    simp only [refreshAs, if_pos hsignature]

namespace Provider

variable {provider : Provider} {host : Host} {memory : DumpMemory}

/-- With either memory the provider gives the same responses. -/
def AnswersAlike (provider : Provider) (host : Host) (memory memory' : DumpMemory) : Prop :=
  ∀ text, (provider.query host memory text).1 = (provider.query host memory' text).1

/-- A question changes no response to later ones. -/
theorem query_query (provider : Provider) (host : Host) (memory : DumpMemory) (text : Text) :
    provider.AnswersAlike host (provider.query host memory text).2 memory := by
  intro later
  cases provider with
  | held symbols => rfl
  | asked respond => rfl
  | dump path =>
    cases hr : memory.refresh host path with
    | error fault => simp only [query, hr]
    | ok memory' => simp only [query, hr, DumpMemory.refresh_refresh hr]

/-- The responses to several questions are those to each of them, and change no later one. -/
theorem queryAll_responses (provider : Provider) (host : Host) (memory : DumpMemory) (texts : List Text) :
    (provider.queryAll host memory texts).1 = texts.map (fun text => (provider.query host memory text).1) ∧
      provider.AnswersAlike host (provider.queryAll host memory texts).2 memory := by
  induction texts generalizing memory with
  | nil => exact ⟨rfl, fun _ => rfl⟩
  | cons text rest ih =>
    obtain ⟨hrest, hafter⟩ := ih (provider.query host memory text).2
    have hfirst := query_query provider host memory text
    refine ⟨?_, fun later => (hafter later).trans (hfirst later)⟩
    simp only [queryAll, List.map_cons]
    rw [hrest, List.map_congr_left (fun later _ => hfirst later)]

/-! ## The pool of workers -/

/-- A provider is available exactly if the empty question brings a symbol. -/
theorem isAvailable_iff : (provider.isAvailable host memory).1 = .ok true ↔ (provider.query host memory []).1.symbols ≠ [] := by
  unfold isAvailable
  rcases provider.query host memory [] with ⟨response, after⟩
  cases response <;> simp [Response.symbols]

/-- There is always a worker. -/
theorem workers_pos (most : Int) (questions : Nat) : 0 < workers most questions := by
  unfold workers
  omega

/-- A question that does not hang gives its worker back. -/
theorem served_cons {response : Response} (h : response ≠ .hanging) (free : Nat) (rest : List Response) :
    served (free + 1) (response :: rest) = response.symbols :: served (free + 1) rest := by
  cases response with
  | hanging => exact absurd rfl h
  | answer symbols => rfl
  | failure fault => rfl

/-- Where no question hangs, each gets its answer. -/
theorem served_of_not_hanging {responses : List Response} (h : ∀ response ∈ responses, response ≠ .hanging) (free : Nat) :
    served (free + 1) responses = responses.map Response.symbols := by
  induction responses with
  | nil => rfl
  | cons response rest ih =>
    have hrest := ih (fun r hr => h r (List.mem_cons_of_mem _ hr))
    rw [served_cons (h response List.mem_cons_self), hrest, List.map_cons]

/-- No question brings a symbol: each fails, hangs or has an empty answer, or waits behind as many hanging ones as there are
workers. -/
def NoneServed (free : Nat) (responses : List Response) : Prop :=
  ∀ before response after, responses = before ++ response :: after →
    response.symbols = [] ∨ free ≤ before.count .hanging

/-- Whether any question brings a symbol is decided by the first one, and by the others with the workers that it leaves. -/
theorem noneServed_cons {free : Nat} {response : Response} {rest : List Response} :
    NoneServed free (response :: rest) ↔
      (response.symbols = [] ∨ free = 0) ∧ NoneServed (free - if response = .hanging then 1 else 0) rest := by
  have hcount : ∀ before : List Response, free ≤ (response :: before).count .hanging ↔
      free - (if response = .hanging then 1 else 0) ≤ before.count .hanging := by
    intro before
    simp only [List.count_cons, beq_iff_eq]
    omega
  constructor
  · intro h
    refine ⟨(h [] response rest rfl).imp_right Nat.eq_zero_of_le_zero, ?_⟩
    rintro before later after rfl
    exact (h (response :: before) later after rfl).imp_right (hcount before).1
  · rintro ⟨hfirst, hrest⟩ before later after heq
    cases before with
    | nil =>
      cases heq
      exact hfirst.imp_right Nat.le_of_eq
    | cons first before =>
      cases heq
      exact (hrest before later after rfl).imp_right (hcount before).2

/-- The pool gives empty answers only, exactly if no question brings a symbol. -/
theorem served_eq_nil_iff (free : Nat) (responses : List Response) :
    (∀ set ∈ served free responses, set = []) ↔ NoneServed free responses := by
  induction responses generalizing free with
  | nil => simp [served, NoneServed]
  | cons response rest ih =>
    rw [noneServed_cons, ← ih]
    cases free with
    | zero => simp [served]
    | succ free =>
      cases response with
      | hanging => simp [served, Response.symbols]
      | answer symbols => simp [served, Response.symbols]
      | failure fault => simp [served, Response.symbols]

/-! ## Providers with symbols of their own -/

/-- The provider holds its symbols or reads them from a dump. -/
def hasOwnSymbols : Provider → Bool
  | held _ | dump _ => true
  | asked _ => false

/-- What a provider answers the empty question with. -/
def stock (host : Host) (provider : Provider) (memory : DumpMemory) : List Located :=
  (provider.query host memory []).1.symbols

/-- The empty text stands in every name. -/
theorem named_nil (symbols : List Located) : named [] symbols = symbols := by
  refine List.filter_eq_self.2 fun symbol _ => ?_
  exact Text.occursIn_iff_infix.2 List.nil_infix

/-- A provider with symbols of its own lets no question hang, and answers it from its stock. -/
theorem query_of_hasOwnSymbols (h : provider.hasOwnSymbols = true) (text : Text) :
    (provider.query host memory text).1 ≠ .hanging ∧
      (provider.query host memory text).1.symbols = named text (provider.stock host memory) := by
  cases provider with
  | asked respond => cases h
  | held symbols => exact ⟨nofun, by simp only [stock, query, Response.symbols, named_nil]⟩
  | dump path =>
    simp only [stock, query]
    cases memory.refresh host path with
    | error fault => exact ⟨nofun, rfl⟩
    | ok memory' => exact ⟨nofun, by simp only [Response.symbols, named_nil]⟩

/-- Asking a provider with symbols of its own for keywords is filtering its stock by each of them. -/
theorem queryKeywords_of_hasOwnSymbols (h : provider.hasOwnSymbols = true) (keywords : List Text) (most : Int) :
    (provider.queryKeywords host memory keywords most).1 =
      keywords.map (fun keyword => named keyword (provider.stock host memory)) := by
  obtain ⟨free, hfree⟩ := Nat.exists_eq_add_one.2 (workers_pos most keywords.length)
  have hhangs : ∀ response ∈ keywords.map (fun keyword => (provider.query host memory keyword).1), response ≠ .hanging := by
    intro response hr
    obtain ⟨keyword, -, rfl⟩ := List.mem_map.1 hr
    exact (query_of_hasOwnSymbols h keyword).1
  simp only [queryKeywords, (queryAll_responses provider host memory keywords).1]
  rw [hfree, served_of_not_hanging hhangs, List.map_map]
  exact List.map_congr_left fun keyword _ => (query_of_hasOwnSymbols h keyword).2

/-- The symbols that the answers of a provider with symbols of its own share. -/
theorem shared_queryKeywords (h : provider.hasOwnSymbols = true) {keywords : List Text} (hne : keywords ≠ []) (most : Int) :
    Located.shared (provider.queryKeywords host memory keywords most).1 =
      (Located.firsts (provider.stock host memory)).filter (Located.holds keywords) := by
  rw [queryKeywords_of_hasOwnSymbols h, Located.shared_named hne]

end Provider

end SymbolSearch
