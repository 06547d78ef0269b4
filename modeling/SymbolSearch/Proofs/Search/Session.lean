import Mathlib
import SymbolSearch.Proofs.Disk
import SymbolSearch.Proofs.Symbol
import SymbolSearch.Search.Searcher

/-!
# Searches one after the other

A searcher keeps what it loaded from a dump from one search to the next. As long as the signature of the dump tells its contents
apart, nobody can see that: every answer is the one that a searcher without a memory gives (`replies_eq_freshReplies`). The
invariant is that the memory was loaded from the dump as it stood at some moment of the session (`Recalls`).
-/

namespace SymbolSearch

namespace DumpMemory

variable {memory memory' : DumpMemory} {host : Host} {path : Text}

/-- If the dump has the signature in memory, it holds what is in memory. -/
def Current (memory : DumpMemory) (host : Host) (path : Text) : Prop :=
  ∀ signature, memory.signature = some signature → host.signature path = .ok signature →
    Dump.load host path = .ok memory.symbols

/-- Nothing in memory cannot be out of date. -/
theorem current_fresh (host : Host) (path : Text) : fresh.Current host path := by
  intro signature h
  cases h

/-- What a memory was loaded from: one of the hosts, where the dump had the signature in memory. -/
def Recalls (memory : DumpMemory) (hosts : List Host) (path : Text) : Prop :=
  ∀ signature, memory.signature = some signature →
    ∃ host ∈ hosts, host.signature path = .ok signature ∧ Dump.load host path = .ok memory.symbols

/-- A memory that has been refreshed is the old one, or was loaded from the dump as it is now. -/
theorem refresh_ok (h : memory.refresh host path = .ok memory') :
    memory' = memory ∨ ∃ signature, memory'.signature = some signature ∧ host.signature path = .ok signature ∧
      Dump.load host path = .ok memory'.symbols := by
  unfold refresh at h
  split at h
  · cases h
  · rename_i signature hs
    unfold refreshAs at h
    split at h
    · cases h
      exact Or.inl rfl
    · obtain ⟨symbols, hload, rfl⟩ := map_eq_ok_iff.1 h
      exact Or.inr ⟨signature, rfl, hs, hload⟩

/-- A current memory is refreshed to what a fresh one is. -/
theorem Current.refresh_eq (h : memory.Current host path) : memory.refresh host path = fresh.refresh host path := by
  unfold refresh
  split
  · rfl
  · rename_i signature hs
    unfold refreshAs
    split
    · rename_i hm
      rw [if_neg (by exact nofun), h signature hm hs]
      cases memory
      cases hm
      rfl
    · rw [if_neg (by exact nofun)]

/-- A current memory stays current when it is refreshed. -/
theorem current_refresh (memory memory' : DumpMemory) (h : memory.Current host path)
    (hr : memory.refresh host path = .ok memory') : memory'.Current host path := by
  rcases refresh_ok hr with rfl | ⟨signature, hsignature, -, hload⟩
  · exact h
  · exact fun _ _ _ => hload

/-- A refreshed memory was loaded from one of the hosts so far or from the present one. -/
theorem recalls_refresh {hosts : List Host} (hm : host ∈ hosts) (memory memory' : DumpMemory)
    (h : memory.Recalls hosts path) (hr : memory.refresh host path = .ok memory') : memory'.Recalls hosts path := by
  rcases refresh_ok hr with rfl | ⟨signature, hsignature, hnow, hload⟩
  · exact h
  · intro signature' h'
    rw [hsignature] at h'
    cases h'
    exact ⟨host, hm, hnow, hload⟩

end DumpMemory

/-! ## What a search does to the memory -/

namespace Provider

variable {host : Host} {path : Text} {memory memory' : DumpMemory} {P : DumpMemory → Prop}

/-- What refreshing keeps, a question keeps. -/
theorem query_keeps (hP : ∀ m m', P m → m.refresh host path = .ok m' → P m') (hm : P memory) (text : Text) :
    P ((dump path).query host memory text).2 := by
  simp only [query]
  split
  · rename_i m' hr
    exact hP memory m' hm hr
  · exact hm

/-- What refreshing keeps, any number of questions keep. -/
theorem queryAll_keeps (hP : ∀ m m', P m → m.refresh host path = .ok m' → P m') (hm : P memory) (texts : List Text) :
    P ((dump path).queryAll host memory texts).2 := by
  induction texts generalizing memory with
  | nil => exact hm
  | cons text rest ih => exact ih (query_keeps hP hm text)

/-- Two current memories give one answer. -/
theorem query_eq (h : memory.Current host path) (h' : memory'.Current host path) (text : Text) :
    ((dump path).query host memory text).1 = ((dump path).query host memory' text).1 := by
  simp only [query]
  rw [h.refresh_eq, h'.refresh_eq]
  cases DumpMemory.fresh.refresh host path <;> rfl

/-- What refreshing keeps, a probe keeps. -/
theorem isAvailable_keeps (hP : ∀ m m', P m → m.refresh host path = .ok m' → P m') (hm : P memory) :
    P ((dump path).isAvailable host memory).2 := by
  have hasked := query_keeps hP hm []
  unfold isAvailable
  split
  · rename_i hquery
    rw [hquery] at hasked
    exact hasked
  · rename_i hquery
    rw [hquery] at hasked
    exact hasked

/-- Two current memories bring one answer to a probe. -/
theorem isAvailable_eq (h : memory.Current host path) (h' : memory'.Current host path) :
    ((dump path).isAvailable host memory).1 = ((dump path).isAvailable host memory').1 := by
  have hanswer := query_eq h h' []
  unfold isAvailable
  rcases hquery : (dump path).query host memory [] with ⟨response, after⟩
  rcases hquery' : (dump path).query host memory' [] with ⟨response', after'⟩
  rw [hquery, hquery'] at hanswer
  simp only at hanswer
  subst hanswer
  cases response <;> rfl

/-- Two current memories give the same answers to any number of questions. -/
theorem queryAll_eq (h : memory.Current host path) (h' : memory'.Current host path) (texts : List Text) :
    ((dump path).queryAll host memory texts).1 = ((dump path).queryAll host memory' texts).1 := by
  induction texts generalizing memory memory' with
  | nil => rfl
  | cons text rest ih =>
    have hnext := query_keeps DumpMemory.current_refresh h text
    have hnext' := query_keeps DumpMemory.current_refresh h' text
    simp only [queryAll]
    rw [query_eq h h' text, ih hnext hnext']

end Provider

namespace Searcher

variable {searcher : Searcher} {host : Host} {path : Text} {memory memory' : DumpMemory} {P : DumpMemory → Prop}

/-- What refreshing keeps, asking the provider keeps. -/
theorem askProvider_keeps (hp : searcher.provider = some (.dump path))
    (hP : ∀ m m', P m → m.refresh host path = .ok m' → P m') (hm : P memory) (query : Query) :
    P (searcher.askProvider host memory query).2 := by
  rw [askProvider, hp]
  exact Provider.queryAll_keeps hP hm query.keywords

/-- What refreshing keeps, probing the provider keeps. -/
theorem providerAnswers_keeps (hp : searcher.provider = some (.dump path))
    (hP : ∀ m m', P m → m.refresh host path = .ok m' → P m') (hm : P memory) :
    P (searcher.providerAnswers host memory).2 := by
  rw [providerAnswers, hp]
  exact Provider.isAvailable_keeps hP hm

/-- What refreshing keeps, a search keeps. -/
theorem search_keeps (hp : searcher.provider = some (.dump path))
    (hP : ∀ m m', P m → m.refresh host path = .ok m' → P m') (hm : P memory) (text : Text) (mode : MatchMode) :
    P (searcher.search host memory text mode).2 := by
  have hasked := askProvider_keeps hp hP hm (.ofText text)
  have hprobed := providerAnswers_keeps hp hP hasked
  unfold search run
  split
  · exact hm
  · split
    · exact hm
    · split
      · exact hm
      · rcases hask : searcher.askProvider host memory (.ofText text) with ⟨asked, after⟩
        rw [hask] at hasked hprobed
        cases asked with
        | error fault => exact hasked
        | ok provided =>
          simp only
          split
          · exact hasked
          · split
            · exact hasked
            · exact hasked
            · split
              · exact hasked
              · -- whatever the probe answers, the memory is what it leaves
                split
                all_goals
                  rename_i hprobe
                  simp only [hprobe] at hprobed
                  exact hprobed

/-- Two current memories bring one attempt at the provider. -/
theorem askProvider_eq (hp : searcher.provider = some (.dump path)) (h : memory.Current host path)
    (h' : memory'.Current host path) (query : Query) :
    (searcher.askProvider host memory query).1 = (searcher.askProvider host memory' query).1 := by
  simp only [askProvider, hp, Provider.queryKeywords]
  rw [Provider.queryAll_eq h h']

/-- Two current memories bring one answer to the probe. -/
theorem providerAnswers_eq (hp : searcher.provider = some (.dump path)) (h : memory.Current host path)
    (h' : memory'.Current host path) :
    (searcher.providerAnswers host memory).1 = (searcher.providerAnswers host memory').1 := by
  simp only [providerAnswers, hp]
  exact Provider.isAvailable_eq h h'

/-- Two current memories bring one answer to a search. -/
theorem search_eq (hp : searcher.provider = some (.dump path)) (h : memory.Current host path)
    (h' : memory'.Current host path) (text : Text) (mode : MatchMode) :
    (searcher.search host memory text mode).1 = (searcher.search host memory' text mode).1 := by
  have hasked := askProvider_eq hp h h' (.ofText text)
  have hprobed := providerAnswers_eq hp (askProvider_keeps hp DumpMemory.current_refresh h (.ofText text))
    (askProvider_keeps hp DumpMemory.current_refresh h' (.ofText text))
  unfold search run
  rcases hask : searcher.askProvider host memory (.ofText text) with ⟨asked, after⟩
  rcases hask' : searcher.askProvider host memory' (.ofText text) with ⟨asked', after'⟩
  rw [hask, hask'] at hasked hprobed
  simp only at hasked hprobed
  subst hasked
  -- up to the provider both searches are the same, and behind it only the probe looks at the memory
  by_cases hq : (Query.ofText text).isEmpty = true
  · rw [if_pos hq, if_pos hq]
  · rw [if_neg hq, if_neg hq]
    cases searcher.askTags host (.ofText text) mode with
    | error fault => rfl
    | ok tags =>
      simp only
      by_cases hr : (!tags.results.isEmpty) = true
      · rw [if_pos hr, if_pos hr]
      · rw [if_neg hr, if_neg hr]
        cases asked with
        | error fault => rfl
        | ok provided =>
          simp only
          by_cases hr' : (!provided.results.isEmpty) = true
          · rw [if_pos hr', if_pos hr']
          · rw [if_neg hr', if_neg hr']
            cases searcher.askSources host (.ofText text) with
            | error fault => rfl
            | ok found =>
              cases found with
              | some scanned => rfl
              | none =>
                simp only
                by_cases ha : (tags.alive || provided.alive) = true
                · rw [if_pos ha, if_pos ha]
                · rw [if_neg ha, if_neg ha]
                  rcases hprobe : searcher.providerAnswers host after with ⟨answers, last⟩
                  rcases hprobe' : searcher.providerAnswers host after' with ⟨answers', last'⟩
                  rw [hprobe, hprobe'] at hprobed
                  simp only at hprobed
                  subst hprobed
                  cases answers with
                  | error fault => rfl
                  | ok found => cases found <;> rfl

end Searcher

/-! ## Sessions -/

/-- What may happen in a session: a search, a question where a symbol is defined, and changes of the disk. -/
inductive Act where
  | search (text : Text) (mode : MatchMode)
  | resolve (symbol : Symbol)
  | write (path : Text) (entry : Entry)
  | erase (path : Text)

/-- What comes back. -/
inductive Reply where
  | outcome (answer : Except Fault Outcome)
  | location (answer : Except Fault (Option Location))
  | done

/-- The host after an act. -/
def Act.after (host : Host) : Act → Host
  | .search .. | .resolve _ => host
  | .write path entry => { host with disk := host.disk.write path entry }
  | .erase path => { host with disk := host.disk.erase path }

/-- A search leaves the disk as it is. -/
theorem Act.after_search (host : Host) (text : Text) (mode : MatchMode) : (Act.search text mode).after host = host := rfl

/-- The hosts of a session, one before each act and one after the last. -/
def Act.hosts (host : Host) : List Act → List Host
  | [] => [host]
  | act :: rest => host :: Act.hosts (act.after host) rest

namespace Searcher

/-- The reply to an act, and the memory after it. -/
def reply (searcher : Searcher) (host : Host) (memory : DumpMemory) : Act → Reply × DumpMemory
  | .search text mode =>
    let (answer, memory) := searcher.search host memory text mode
    (.outcome answer, memory)
  | .resolve symbol => (.location (searcher.resolve host symbol), memory)
  | .write .. | .erase _ => (.done, memory)

/-- The replies in a session of one searcher, whose memory is handed from act to act. -/
def replies (searcher : Searcher) (host : Host) (memory : DumpMemory) : List Act → List Reply
  | [] => []
  | act :: rest =>
    let (reply, memory) := searcher.reply host memory act
    reply :: replies searcher (act.after host) memory rest

/-- The replies in a session where a new searcher is made for each act. -/
def freshReplies (searcher : Searcher) (host : Host) : List Act → List Reply
  | [] => []
  | act :: rest => (searcher.reply host .fresh act).1 :: freshReplies searcher (act.after host) rest

end Searcher

/-- The signature of a dump tells its contents apart: at moments where it has one signature, reading it comes to the same. -/
def TellsApart (path : Text) (hosts : List Host) : Prop :=
  ∀ a ∈ hosts, ∀ b ∈ hosts, ∀ signature, a.signature path = .ok signature → b.signature path = .ok signature →
    a.read path = b.read path

/-- Where signatures tell the contents apart, a memory loaded in the session is current at every moment of it. -/
theorem DumpMemory.Recalls.current {memory : DumpMemory} {hosts : List Host} {path : Text} {host : Host}
    (h : memory.Recalls hosts path) (hd : TellsApart path hosts) (hm : host ∈ hosts) : memory.Current host path := by
  intro signature hs hnow
  obtain ⟨past, hpast, hthen, hload⟩ := h signature hs
  have hread : past.read path = host.read path := hd past hpast host hm signature hthen hnow
  rw [← hload, Dump.load, Dump.load, hread]

namespace Searcher

variable {searcher : Searcher} {path : Text} {memory : DumpMemory}

/-- A reply from a memory loaded in the session is the reply of a fresh searcher, and leaves such a memory. -/
theorem reply_step (hp : searcher.provider = some (.dump path)) {hosts : List Host} (hd : TellsApart path hosts)
    {host : Host} (hm : host ∈ hosts) (h : memory.Recalls hosts path) (act : Act) :
    (searcher.reply host memory act).1 = (searcher.reply host .fresh act).1 ∧
      (searcher.reply host memory act).2.Recalls hosts path := by
  cases act with
  | search text mode =>
    have heq := search_eq hp (h.current hd hm) (DumpMemory.current_fresh host path) text mode
    have hkeeps : (searcher.search host memory text mode).2.Recalls hosts path :=
      search_keeps hp (DumpMemory.recalls_refresh hm) h text mode
    exact ⟨congrArg Reply.outcome heq, hkeeps⟩
  | resolve symbol => exact ⟨rfl, h⟩
  | write path entry => exact ⟨rfl, h⟩
  | erase path => exact ⟨rfl, h⟩

/-- Along a session the replies are those of fresh searchers. -/
theorem replies_eq_of_recalls (hp : searcher.provider = some (.dump path)) {hosts : List Host} (hd : TellsApart path hosts)
    (host : Host) (acts : List Act) (hsub : ∀ h ∈ Act.hosts host acts, h ∈ hosts) (h : memory.Recalls hosts path) :
    searcher.replies host memory acts = searcher.freshReplies host acts := by
  induction acts generalizing host memory with
  | nil => rfl
  | cons act rest ih =>
    have hm : host ∈ hosts := hsub host List.mem_cons_self
    obtain ⟨heq, hkeeps⟩ := reply_step hp hd hm h act
    simp only [replies, freshReplies]
    rw [heq, ih (act.after host) (fun a ha => hsub a (List.mem_cons_of_mem _ ha)) hkeeps]

/-- No answer shows what was remembered: where the signature of the dump tells its contents apart throughout a session of any
searches, questions, writes and deletions, every reply is the one that a new searcher gives on the disk as it stands. -/
theorem replies_eq_freshReplies (searcher : Searcher) (path : Text) (hp : searcher.provider = some (.dump path)) (host : Host)
    (acts : List Act) (hd : TellsApart path (Act.hosts host acts)) :
    searcher.replies host .fresh acts = searcher.freshReplies host acts :=
  replies_eq_of_recalls hp hd host acts (fun _ h => h) (fun _ h => nomatch h)

/-! ## A dump that is touched -/

/-- The start of a record, up to its document. -/
def recordFront : Text := "\x7b\"name\":\"foo\",\"uri\":\"".toList

/-- The rest of a record, behind its document. -/
def recordBack : Text := "\",\"range\":\x7b\"start\":\x7b\"line\":0\x7d,\"end\":\x7b\"line\":0\x7d\x7d\x7d".toList

/-- A dump of one symbol in a given document. -/
def dumpEntry (uri : Text) (stamp : Int) : Entry :=
  .ofAscii (recordFront ++ uri ++ recordBack) stamp

/-- A host with such a dump and nothing else. -/
def dumpHost (uri : Text) (stamp : Int) : Host :=
  .ofRoot [("d".toList, dumpEntry uri stamp)] rfl

/-- The path of the dump. -/
def dumpPath : Text := ['/', 'd']

/-- The symbol in the dump. -/
def dumpSymbol (uri : Text) : Located :=
  ⟨"foo".toList, none, uri, ⟨⟨0, 0⟩, ⟨0, 0⟩⟩, none⟩

/-- A searcher that only asks the dump. -/
def dumpSearcher : Searcher :=
  ⟨none, some (.dump dumpPath), none, none, false, 1⟩

/-- The outcome of a search that finds the symbol. -/
def dumpOutcome (uri : Text) : Outcome where
  results := [.ofLetters 'f' "oo".toList (some (.after uri 0)) none (.ofPairs [("uri".toList, uri)])]
  echo := "foo".toList
  stage := .providerMatched
  tier := some .provider
  trace := [.idle, .queryingProvider, .providerMatched, .done]
  error := none

/-- A search finds the symbol that its refreshed memory holds. -/
theorem search_dump {host : Host} {memory memory' : DumpMemory} {uri : Text}
    (hr : memory.refresh host dumpPath = .ok memory') (hm : memory'.symbols = [dumpSymbol uri])
    (hs : [dumpSymbol uri].mapM Located.toSymbol = .ok (dumpOutcome uri).results) :
    dumpSearcher.search host memory "foo".toList .exact = (.ok (dumpOutcome uri), memory') := by
  have hquery : Query.ofText "foo".toList = ⟨"foo".toList, ["foo".toList]⟩ := by cbv
  have hnamed : Provider.named "foo".toList [dumpSymbol uri] = [dumpSymbol uri] := rfl
  have hshared : Located.shared (Provider.served (Provider.workers 1 ["foo".toList].length) [.answer [dumpSymbol uri]]) =
      [dumpSymbol uri] := rfl
  rw [search, hquery]
  simp only [run, askTags, dumpSearcher, askProvider, Provider.queryKeywords, Provider.queryAll, Provider.query, hr, hm,
    hnamed, hshared, hs]
  rfl

set_option maxRecDepth 4000 in
/-- Both dumps have one size, so that only the stamp tells them apart. -/
theorem dumpHost_signature : (dumpHost ['a'] 1).signature dumpPath = .ok (1, 70) ∧
    (dumpHost ['b'] 2).signature dumpPath = .ok (2, 70) ∧ (dumpHost ['b'] 1).signature dumpPath = .ok (1, 70) := by
  refine ⟨?_, ?_, ?_⟩ <;> cbv

set_option maxRecDepth 4000 in
/-- Writing the dump anew changes its document and its stamp. -/
theorem dumpHost_write : (Act.write dumpPath (dumpEntry ['b'] 2)).after (dumpHost ['a'] 1) = dumpHost ['b'] 2 ∧
    (Act.write dumpPath (dumpEntry ['b'] 1)).after (dumpHost ['b'] 2) = dumpHost ['b'] 1 := by
  refine ⟨?_, ?_⟩ <;> cbv

set_option maxRecDepth 4000 in
/-- What is loaded from the dumps with the earlier stamp. -/
theorem dumpHost_refresh :
    DumpMemory.fresh.refresh (dumpHost ['a'] 1) dumpPath = .ok ⟨some (1, 70), [dumpSymbol ['a']]⟩ ∧
      DumpMemory.fresh.refresh (dumpHost ['b'] 1) dumpPath = .ok ⟨some (1, 70), [dumpSymbol ['b']]⟩ := by
  have hload : Dump.load (dumpHost ['a'] 1) dumpPath = .ok [dumpSymbol ['a']] := by cbv
  have hload' : Dump.load (dumpHost ['b'] 1) dumpPath = .ok [dumpSymbol ['b']] := by cbv
  obtain ⟨hs, -, hs'⟩ := dumpHost_signature
  simp only [DumpMemory.refresh, hs, hs', DumpMemory.refreshAs, hload, hload']
  exact ⟨rfl, rfl⟩

/-- A dump is written anew between two searches. -/
def rewrittenSession : List Act :=
  [.search "foo".toList .exact, .write dumpPath (dumpEntry ['b'] 2), .search "foo".toList .exact]

/-- The dump of a session that is written anew gets another signature, so the second search shows what was written. -/
theorem replies_eq_rewritten :
    TellsApart dumpPath (Act.hosts (dumpHost ['a'] 1) rewrittenSession) ∧
      dumpSearcher.replies (dumpHost ['a'] 1) .fresh rewrittenSession =
        dumpSearcher.freshReplies (dumpHost ['a'] 1) rewrittenSession := by
  have hhosts : Act.hosts (dumpHost ['a'] 1) rewrittenSession =
      [dumpHost ['a'] 1, dumpHost ['a'] 1, dumpHost ['b'] 2, dumpHost ['b'] 2] := by
    simp only [rewrittenSession, Act.hosts, dumpHost_write.1, Act.after_search]
  have hd : TellsApart dumpPath (Act.hosts (dumpHost ['a'] 1) rewrittenSession) := by
    obtain ⟨hs, hs', -⟩ := dumpHost_signature
    rw [hhosts]
    have hmem : ∀ h ∈ [dumpHost ['a'] 1, dumpHost ['a'] 1, dumpHost ['b'] 2, dumpHost ['b'] 2],
        h = dumpHost ['a'] 1 ∨ h = dumpHost ['b'] 2 := by simp
    intro a ha b hb signature hsa hsb
    rcases hmem a ha with rfl | rfl <;> rcases hmem b hb with rfl | rfl
    · rfl
    · rw [← hsb, hs, hs'] at hsa
      cases hsa
    · rw [← hsb, hs, hs'] at hsa
      cases hsa
    · rfl
  exact ⟨hd, replies_eq_freshReplies dumpSearcher dumpPath rfl (dumpHost ['a'] 1) rewrittenSession hd⟩

/-- A dump is written anew between two searches, and then once more as it is but with its first stamp. -/
def touchedSession : List Act :=
  [.search "foo".toList .exact, .write dumpPath (dumpEntry ['b'] 2), .write dumpPath (dumpEntry ['b'] 1),
    .search "foo".toList .exact]

/-- Wherever reading the dump comes to something else than at the moment before, its signature is one that it has not had at any
moment so far; `past` holds the moments before the first of the list. -/
def ChangesAreNew (path : Text) (past : List Host) : List Host → Prop
  | a :: b :: rest =>
    (a.read path ≠ b.read path → ∀ h ∈ a :: past, ∀ signature, b.signature path = .ok signature →
      h.signature path ≠ .ok signature) ∧ ChangesAreNew path (a :: past) (b :: rest)
  | _ => True

set_option maxRecDepth 4000 in
/-- It is not enough that changes of the content bring new signatures: when the same content is written again with an old stamp,
the next search answers from what the dump held then. -/
theorem replies_ne_touched :
    ¬∀ (searcher : Searcher) (path : Text) (host : Host) (acts : List Act), searcher.provider = some (.dump path) →
      ChangesAreNew path [] (Act.hosts host acts) → searcher.replies host .fresh acts = searcher.freshReplies host acts := by
  intro hall
  have hhosts : Act.hosts (dumpHost ['a'] 1) touchedSession =
      [dumpHost ['a'] 1, dumpHost ['a'] 1, dumpHost ['b'] 2, dumpHost ['b'] 1, dumpHost ['b'] 1] := by
    simp only [touchedSession, Act.hosts, dumpHost_write.1, dumpHost_write.2, Act.after_search]
  have hnew : ChangesAreNew dumpPath [] (Act.hosts (dumpHost ['a'] 1) touchedSession) := by
    have hread : (dumpHost ['b'] 2).read dumpPath = (dumpHost ['b'] 1).read dumpPath := by cbv
    obtain ⟨hs, hs', -⟩ := dumpHost_signature
    rw [hhosts]
    refine ⟨fun h => absurd rfl h, ?_, fun h => absurd hread h, fun h => absurd rfl h, trivial⟩
    intro _ h hm signature hnow
    have hh : h = dumpHost ['a'] 1 := by simpa using hm
    subst hh
    rw [hs, ← hnow, hs']
    intro hold
    cases hold
  have hmemory : DumpMemory.refresh ⟨some (1, 70), [dumpSymbol ['a']]⟩ (dumpHost ['b'] 1) dumpPath =
      .ok ⟨some (1, 70), [dumpSymbol ['a']]⟩ := by
    simp only [DumpMemory.refresh, dumpHost_signature.2.2, DumpMemory.refreshAs, if_true]
  have hsame := hall dumpSearcher dumpPath (dumpHost ['a'] 1) touchedSession rfl hnew
  simp only [touchedSession, replies, freshReplies, reply, Act.after_search, dumpHost_write.1, dumpHost_write.2,
    search_dump dumpHost_refresh.1 rfl rfl, search_dump dumpHost_refresh.2 rfl rfl, search_dump hmemory rfl rfl] at hsame
  simp [dumpOutcome, Symbol.ofLetters, Location.after] at hsame

end Searcher

end SymbolSearch
