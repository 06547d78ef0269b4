import Mathlib
import SymbolSearch.Proofs.Search.Session
import SymbolSearch.Provider.Basic

/-!
# Questions at the same time

Several questions may ask one dump at the same time. Each of them takes two steps: first it looks at the signature of the dump,
and later it is answered from memory if that has the signature, and else from the dump as it is then. Between its two steps the
others take theirs, and the dump may be written anew or taken away.

What a question stores may be newer than the signature it stores it under. As long as no signature comes back after a change, this
does no harm: each question is answered from what the dump held at some moment between its two steps (`linearizable`). The step
lemma is that a signature which was there before an event and is there after it has stayed all the time (`kept_of_had`); the
invariant of a run is that what memory holds under a signature was loaded after the dump had that signature (`Sound`).
-/

namespace SymbolSearch

/-! ## A question in two steps -/

/-- The second step answers from memory, or from what the dump holds now, or fails because the dump cannot be read. -/
theorem Provider.answerAs_cases (host : Host) (path : Text) (memory : DumpMemory) (signature : Int × Nat) (text : Text) :
    memory.signature = some signature ∧
        answerAs host path memory signature text = (.answer (Provider.named text memory.symbols), memory) ∨
      (∃ content, host.read path = .ok content ∧ answerAs host path memory signature text =
        (.answer (Provider.named text (Dump.symbols content)), ⟨some signature, Dump.symbols content⟩)) ∨
      ∃ e, host.read path = .error e ∧
        answerAs host path memory signature text = (.failure (Dump.faultOf path e), memory) := by
  unfold answerAs DumpMemory.refreshAs Dump.load
  by_cases hm : memory.signature = some signature
  · rw [if_pos hm]
    exact Or.inl ⟨hm, rfl⟩
  · rw [if_neg hm]
    cases host.read path with
    | ok content => exact Or.inr (Or.inl ⟨content, rfl, rfl⟩)
    | error e => exact Or.inr (Or.inr ⟨e, rfl, rfl⟩)

/-- A question that is not interrupted takes its second step right after the first one. -/
theorem Provider.query_dump_ok {host : Host} {path : Text} {signature : Int × Nat} (h : host.signature path = .ok signature)
    (memory : DumpMemory) (text : Text) :
    (Provider.dump path).query host memory text = answerAs host path memory signature text := by
  simp only [Provider.query, DumpMemory.refresh, h, answerAs]

/-- A question to a dump without a signature fails at its first step. -/
theorem Provider.query_dump_error {host : Host} {path : Text} {e : DiskError} (h : host.signature path = .error e)
    (memory : DumpMemory) (text : Text) :
    (Provider.dump path).query host memory text = (.failure (Dump.faultOf path e), memory) := by
  simp only [Provider.query, DumpMemory.refresh, h]

namespace Interleaved

/-- One step of a question, or a change of the disk. Questions are told apart by numbers. -/
inductive Event where
  | look (question : Nat)
  | answer (question : Nat) (text : Text)
  | change (disk : Disk)

/-- The machine, what is remembered of the dump, and the signatures that questions have seen. -/
structure Moment where
  host : Host
  memory : DumpMemory
  seen : Nat → Option (Int × Nat)

/-- The moment after an event. A question that saw no signature has failed already and takes no second step. -/
def Moment.after (path : Text) (moment : Moment) : Event → Moment
  | .look question =>
    { moment with
      seen := fun other => if other = question then (moment.host.signature path).toOption else moment.seen other }
  | .answer question text =>
    { moment with
      memory := (moment.seen question).elim moment.memory
        (fun signature => (Provider.answerAs moment.host path moment.memory signature text).2) }
  | .change disk => { moment with host := { moment.host with disk := disk } }

/-- What becomes of a question at an event, if it ends there. -/
def Moment.reply? (path : Text) (moment : Moment) : Event → Option Response
  | .look _ =>
    match moment.host.signature path with
    | .ok _ => none
    | .error e => some (.failure (Dump.faultOf path e))
  | .answer question text =>
    (moment.seen question).map (fun signature => (Provider.answerAs moment.host path moment.memory signature text).1)
  | .change _ => none

section Run

variable (path : Text) (host : Host) (events : List Event)

/-- The moment before an event of a run. The run starts with an empty memory. -/
def momentAt (k : Nat) : Moment :=
  (events.take k).foldl (Moment.after path) ⟨host, .fresh, fun _ => none⟩

/-- What becomes of a question at an event of a run, if it ends there. -/
def replyAt (k : Nat) : Option Response :=
  events[k]?.bind ((momentAt path host events k).reply? path)

/-- The signature of the dump before an event. -/
def signatureAt (k : Nat) : Except DiskError (Int × Nat) :=
  (momentAt path host events k).host.signature path

/-- What reading the dump gives before an event. -/
def readAt (k : Nat) : Except DiskError Bytes :=
  (momentAt path host events k).host.read path

/-- Whatever happens to the dump, either it keeps its signature and its content, or it gets a signature that it has not had before,
or it is taken away and has none. -/
def RewritesAreNew : Prop :=
  ∀ k disk, events[k]? = some (.change disk) →
    (signatureAt path host events (k + 1) = signatureAt path host events k ∧
      readAt path host events (k + 1) = readAt path host events k) ∨
    ∀ signature, signatureAt path host events (k + 1) = .ok signature →
      ∀ j ≤ k, signatureAt path host events j ≠ .ok signature

/-- A question looks at one event and is answered at a later one, and does not look again between them. -/
structure Asked (question : Nat) (text : Text) (i k : Nat) : Prop where
  looks : events[i]? = some (.look question)
  takes_answer : events[k]? = some (.answer question text)
  lt : i < k
  quiet : ∀ j, i < j → j < k → events[j]? ≠ some (.look question)

end Run

variable {path : Text} {host : Host} {events : List Event} {i j k question : Nat} {text : Text} {signature : Int × Nat}

/-! ## One event -/

/-- An event leads from the moment before it to the one after it. -/
theorem momentAt_succ {event : Event} (h : events[k]? = some event) :
    momentAt path host events (k + 1) = (momentAt path host events k).after path event := by
  rw [momentAt, List.take_add_one, h, List.foldl_append]
  rfl

/-- Behind the last event nothing happens. -/
theorem momentAt_succ_of_none (h : events[k]? = none) : momentAt path host events (k + 1) = momentAt path host events k := by
  rw [momentAt, List.take_add_one, h, Option.toList_none, List.append_nil]
  rfl

/-- Only a change of the disk changes the machine. -/
theorem host_succ (h : ∀ disk, events[k]? ≠ some (.change disk)) :
    (momentAt path host events (k + 1)).host = (momentAt path host events k).host := by
  cases hevent : events[k]? with
  | none => rw [momentAt_succ_of_none hevent]
  | some event =>
    rw [momentAt_succ hevent]
    cases event with
    | look question => rfl
    | answer question text => rfl
    | change disk => exact absurd hevent (h disk)

/-- After a look a question has seen the signature of the dump. -/
theorem seen_succ_of_look (h : events[k]? = some (.look question)) :
    (momentAt path host events (k + 1)).seen question = (signatureAt path host events k).toOption := by
  rw [momentAt_succ h]
  exact if_pos rfl

/-- Only a look of its own changes what a question has seen. -/
theorem seen_succ (h : events[k]? ≠ some (.look question)) :
    (momentAt path host events (k + 1)).seen question = (momentAt path host events k).seen question := by
  cases hevent : events[k]? with
  | none => rw [momentAt_succ_of_none hevent]
  | some event =>
    rw [momentAt_succ hevent]
    cases event with
    | look other =>
      have hne : question ≠ other := by
        rintro rfl
        exact h hevent
      exact if_neg hne
    | answer other text => rfl
    | change disk => rfl

/-- A look leaves memory as it is. -/
theorem memory_succ_of_look (h : events[k]? = some (.look question)) :
    (momentAt path host events (k + 1)).memory = (momentAt path host events k).memory := by
  rw [momentAt_succ h]
  rfl

/-- What becomes of a question at its second step. -/
theorem replyAt_of_answer (h : events[k]? = some (.answer question text)) :
    replyAt path host events k = ((momentAt path host events k).seen question).map (fun signature =>
      (Provider.answerAs (momentAt path host events k).host path (momentAt path host events k).memory signature text).1) := by
  rw [replyAt, h]
  rfl

/-- The memory after the second step of a question. -/
theorem memory_succ_of_answer (h : events[k]? = some (.answer question text)) :
    (momentAt path host events (k + 1)).memory =
      ((momentAt path host events k).seen question).elim (momentAt path host events k).memory (fun signature =>
        (Provider.answerAs (momentAt path host events k).host path (momentAt path host events k).memory signature text).2) := by
  rw [momentAt_succ h]
  rfl

/-- An event leaves memory as it is, or memory then holds what the dump held right there, under a signature that a question has
seen. -/
theorem memory_succ_cases (path : Text) (host : Host) (events : List Event) (k : Nat) :
    (momentAt path host events (k + 1)).memory = (momentAt path host events k).memory ∨
      ∃ question signature content, (momentAt path host events k).seen question = some signature ∧
        readAt path host events k = .ok content ∧
        (momentAt path host events (k + 1)).memory = ⟨some signature, Dump.symbols content⟩ := by
  cases hevent : events[k]? with
  | none => exact Or.inl (by rw [momentAt_succ_of_none hevent])
  | some event =>
    cases event with
    | look question => exact Or.inl (memory_succ_of_look hevent)
    | change disk =>
      rw [momentAt_succ hevent]
      exact Or.inl rfl
    | answer question text =>
      rw [memory_succ_of_answer hevent]
      cases hseen : (momentAt path host events k).seen question with
      | none => exact Or.inl rfl
      | some signature =>
        rw [Option.elim_some]
        rcases Provider.answerAs_cases (momentAt path host events k).host path (momentAt path host events k).memory signature
          text with ⟨-, heq⟩ | ⟨content, hread, heq⟩ | ⟨e, -, heq⟩
        · exact Or.inl (by rw [heq])
        · exact Or.inr ⟨question, signature, content, hseen, hread, by rw [heq]⟩
        · exact Or.inl (by rw [heq])

/-- An event at which a question fails leaves memory as it is. -/
theorem memory_succ_of_failure {fault : Fault} (h : replyAt path host events k = some (.failure fault)) :
    (momentAt path host events (k + 1)).memory = (momentAt path host events k).memory := by
  obtain ⟨event, hevent, hreply⟩ := Option.bind_eq_some_iff.1 h
  cases event with
  | look question => exact memory_succ_of_look hevent
  | change disk => cases hreply
  | answer question text =>
    obtain ⟨signature, hseen, hfailure⟩ := Option.map_eq_some_iff.1 hreply
    rw [memory_succ_of_answer hevent, hseen, Option.elim_some]
    rcases Provider.answerAs_cases (momentAt path host events k).host path (momentAt path host events k).memory signature
      text with ⟨-, heq⟩ | ⟨content, -, heq⟩ | ⟨e, -, heq⟩
    · rw [heq]
    · rw [heq] at hfailure
      cases hfailure
    · rw [heq]

/-! ## What comes of a signature -/

/-- If the dump has a signature after an event which it had at some moment before, it had that signature right before the event,
and its content has stayed the same. -/
theorem kept_of_had (hnew : RewritesAreNew path host events) (hik : i ≤ k)
    (hi : signatureAt path host events i = .ok signature) (hk : signatureAt path host events (k + 1) = .ok signature) :
    signatureAt path host events k = .ok signature ∧ readAt path host events k = readAt path host events (k + 1) := by
  by_cases hchange : ∃ disk, events[k]? = some (.change disk)
  · obtain ⟨disk, hdisk⟩ := hchange
    rcases hnew k disk hdisk with ⟨hsignature, hread⟩ | hnever
    · exact ⟨hsignature ▸ hk, hread.symm⟩
    · exact absurd hi (hnever signature hk i hik)
  · have hhost : (momentAt path host events (k + 1)).host = (momentAt path host events k).host :=
      host_succ (fun disk hdisk => hchange ⟨disk, hdisk⟩)
    unfold signatureAt at hk ⊢
    unfold readAt
    rw [hhost] at hk ⊢
    exact ⟨hk, rfl⟩

/-- Between two moments at which the dump has one signature its content stays the same. -/
theorem readAt_eq_of_signatureAt_eq (hnew : RewritesAreNew path host events) (hij : i ≤ j) (hjk : j ≤ k)
    (hi : signatureAt path host events i = .ok signature) (hk : signatureAt path host events k = .ok signature) :
    readAt path host events j = readAt path host events k := by
  induction hjk with
  | refl => rfl
  | step hjk ih =>
    obtain ⟨hsignature, hread⟩ := kept_of_had hnew (Nat.le_trans hij hjk) hi hk
    exact (ih hsignature).trans hread

/-! ## What memory holds -/

/-- What questions have seen was there, and what memory holds under a signature was read at or after a moment at which the dump had
that signature. It need not have been there any more when the dump was read. -/
structure Sound (path : Text) (host : Host) (events : List Event) (k : Nat) : Prop where
  seen : ∀ question signature, (momentAt path host events k).seen question = some signature →
    ∃ i < k, signatureAt path host events i = .ok signature
  memory : ∀ signature, (momentAt path host events k).memory.signature = some signature →
    ∃ i j content, i ≤ j ∧ j < k ∧ signatureAt path host events i = .ok signature ∧
      readAt path host events j = .ok content ∧ (momentAt path host events k).memory.symbols = Dump.symbols content

/-- Every event keeps that. -/
theorem Sound.succ (h : Sound path host events k) : Sound path host events (k + 1) := by
  constructor
  · intro question signature hseen
    by_cases hlook : events[k]? = some (.look question)
    · rw [seen_succ_of_look hlook] at hseen
      cases hnow : signatureAt path host events k with
      | ok now =>
        rw [hnow] at hseen
        cases hseen
        exact ⟨k, by omega, hnow⟩
      | error e =>
        rw [hnow] at hseen
        cases hseen
    · rw [seen_succ hlook] at hseen
      obtain ⟨i, hik, hi⟩ := h.seen question signature hseen
      exact ⟨i, by omega, hi⟩
  · intro signature hsignature
    rcases memory_succ_cases path host events k with hsame | ⟨question, stored, content, hseen, hread, hnow⟩
    · rw [hsame] at hsignature ⊢
      obtain ⟨i, j, content, hij, hjk, hi, hread, hsymbols⟩ := h.memory signature hsignature
      exact ⟨i, j, content, hij, by omega, hi, hread, hsymbols⟩
    · rw [hnow] at hsignature ⊢
      cases hsignature
      obtain ⟨i, hik, hi⟩ := h.seen question signature hseen
      exact ⟨i, k, content, by omega, by omega, hi, hread, rfl⟩

/-- It holds at every moment of a run. -/
theorem sound (path : Text) (host : Host) (events : List Event) (k : Nat) : Sound path host events k := by
  induction k with
  | zero =>
    constructor
    · intro question signature hseen
      cases hseen
    · intro signature hsignature
      cases hsignature
  | succ k ih => exact ih.succ

/-! ## Questions -/

/-- At its second step a question has seen what the dump had at its first one. -/
theorem Asked.seen (h : Asked events question text i k) :
    (momentAt path host events k).seen question = (signatureAt path host events i).toOption := by
  have hseen : ∀ n, i < n → n ≤ k →
      (momentAt path host events n).seen question = (signatureAt path host events i).toOption := by
    intro n hn
    induction hn with
    | refl =>
      intro _
      exact seen_succ_of_look h.looks
    | step hn ih =>
      intro hnk
      rw [seen_succ (h.quiet _ hn hnk)]
      exact ih (by omega)
  exact hseen k h.lt (by omega)

/-- What memory holds under the signature that a question saw is what the dump held at some moment since. -/
theorem exists_readAt_of_memory (hnew : RewritesAreNew path host events) (hik : i ≤ k)
    (hi : signatureAt path host events i = .ok signature)
    (hmemory : (momentAt path host events k).memory.signature = some signature) :
    ∃ j content, i ≤ j ∧ j ≤ k ∧ readAt path host events j = .ok content ∧
      (momentAt path host events k).memory.symbols = Dump.symbols content := by
  obtain ⟨first, stored, content, hfirst, hstored, hsignature, hread, hsymbols⟩ :=
    (sound path host events k).memory signature hmemory
  by_cases his : i ≤ stored
  · exact ⟨stored, content, his, by omega, hread, hsymbols⟩
  · -- stored before the question looked, but between two moments at which the dump had the signature
    have hsame := readAt_eq_of_signatureAt_eq hnew hfirst (by omega) hsignature hi
    exact ⟨i, content, by omega, hik, hsame ▸ hread, hsymbols⟩

/-- A question that has seen a signature is answered from what the dump held at some moment between its two steps, or fails because
the dump cannot be read at the second one. -/
theorem Asked.reply (hnew : RewritesAreNew path host events) (h : Asked events question text i k)
    (hi : signatureAt path host events i = .ok signature) :
    (∃ j content, i ≤ j ∧ j ≤ k ∧ readAt path host events j = .ok content ∧
        replyAt path host events k = some (.answer (Provider.named text (Dump.symbols content)))) ∨
      ∃ e, readAt path host events k = .error e ∧
        replyAt path host events k = some (.failure (Dump.faultOf path e)) := by
  have hik : i ≤ k := Nat.le_of_lt h.lt
  have hseen : (momentAt path host events k).seen question = some signature := by
    rw [h.seen, hi]
    rfl
  rw [replyAt_of_answer h.takes_answer, hseen, Option.map_some]
  rcases Provider.answerAs_cases (momentAt path host events k).host path (momentAt path host events k).memory signature
    text with ⟨hmemory, heq⟩ | ⟨content, hread, heq⟩ | ⟨e, hread, heq⟩
  · obtain ⟨j, content, hij, hjk, hread, hsymbols⟩ := exists_readAt_of_memory hnew hik hi hmemory
    exact Or.inl ⟨j, content, hij, hjk, hread, by rw [heq, hsymbols]⟩
  · exact Or.inl ⟨k, content, hik, by omega, hread, by rw [heq]⟩
  · exact Or.inr ⟨e, hread, by rw [heq]⟩

/-- A look at a dump with a signature does not end the question. -/
theorem replyAt_of_look_ok (h : events[k]? = some (.look question)) (hk : signatureAt path host events k = .ok signature) :
    replyAt path host events k = none := by
  unfold signatureAt at hk
  simp only [replyAt, h, Option.bind_some, Moment.reply?, hk]

/-- A look at a dump without a signature is where its question fails. -/
theorem replyAt_of_look_error {e : DiskError} (h : events[k]? = some (.look question))
    (hk : signatureAt path host events k = .error e) :
    replyAt path host events k = some (.failure (Dump.faultOf path e)) := by
  unfold signatureAt at hk
  simp only [replyAt, h, Option.bind_some, Moment.reply?, hk]

/-- A question whose two steps follow each other is one question of a provider. -/
theorem Asked.query (h : Asked events question text i (i + 1)) :
    (replyAt path host events i).or (replyAt path host events (i + 1)) = some ((Provider.dump path).query
        (momentAt path host events i).host (momentAt path host events i).memory text).1 ∧
      (momentAt path host events (i + 2)).memory = ((Provider.dump path).query
        (momentAt path host events i).host (momentAt path host events i).memory text).2 := by
  have hhost : (momentAt path host events (i + 1)).host = (momentAt path host events i).host := by
    refine host_succ fun disk hdisk => ?_
    rw [h.looks] at hdisk
    cases hdisk
  have hmemory : (momentAt path host events (i + 1)).memory = (momentAt path host events i).memory :=
    memory_succ_of_look h.looks
  rw [replyAt_of_answer h.takes_answer, memory_succ_of_answer h.takes_answer, h.seen, hhost, hmemory]
  cases hi : signatureAt path host events i with
  | ok signature =>
    rw [replyAt_of_look_ok h.looks hi, Provider.query_dump_ok hi]
    exact ⟨rfl, rfl⟩
  | error e =>
    rw [replyAt_of_look_error h.looks hi, Provider.query_dump_error hi]
    exact ⟨rfl, rfl⟩

/-- Where no signature comes back after a change, each question that ends with an answer has the one that the dump gave at some
moment between its two steps, and it ends so unless the dump had no signature at the first step or could not be read at the second
one. A question that fails leaves memory as it was, at both steps. Without an interruption the two steps are one question of a
provider. -/
theorem linearizable (hnew : RewritesAreNew path host events) :
    (∀ question text i k signature, Asked events question text i k → signatureAt path host events i = .ok signature →
      (∃ j content, i ≤ j ∧ j ≤ k ∧ readAt path host events j = .ok content ∧
        replyAt path host events k = some (.answer (Provider.named text (Dump.symbols content)))) ∨
      ∃ e, readAt path host events k = .error e ∧
        replyAt path host events k = some (.failure (Dump.faultOf path e))) ∧
    (∀ question k e, events[k]? = some (.look question) → signatureAt path host events k = .error e →
      replyAt path host events k = some (.failure (Dump.faultOf path e))) ∧
    (∀ k fault, replyAt path host events k = some (.failure fault) →
      (momentAt path host events (k + 1)).memory = (momentAt path host events k).memory) ∧
    (∀ question k, events[k]? = some (.look question) →
      (momentAt path host events (k + 1)).memory = (momentAt path host events k).memory) ∧
    ∀ question text i, Asked events question text i (i + 1) →
      (replyAt path host events i).or (replyAt path host events (i + 1)) = some ((Provider.dump path).query
        (momentAt path host events i).host (momentAt path host events i).memory text).1 ∧
      (momentAt path host events (i + 2)).memory = ((Provider.dump path).query
        (momentAt path host events i).host (momentAt path host events i).memory text).2 := by
  refine ⟨?_, ?_, ?_, ?_, ?_⟩
  · intro question text i k signature hasked hi
    exact hasked.reply hnew hi
  · intro question k e hlook hk
    exact replyAt_of_look_error hlook hk
  · intro k fault hfailure
    exact memory_succ_of_failure hfailure
  · intro question k hlook
    exact memory_succ_of_look hlook
  · intro question text i hasked
    exact hasked.query

/-- Two questions look at a dump before it is written anew, and a third one looks and is answered after that. Then the first one
stores what it reads under its older signature, from which the second one is answered. At last the dump is taken away, and a fourth
question looks. -/
def sharedRun : List Event :=
  [.look 0, .look 1, .change (Searcher.dumpHost ['b'] 2).disk, .look 2, .answer 2 "foo".toList, .answer 0 "foo".toList,
    .answer 1 "foo".toList, .change Host.empty.disk, .look 3]

/-- The signatures that the dump has in that run. -/
theorem sharedRun_signatureAt :
    (∀ k ≤ 2, signatureAt Searcher.dumpPath (Searcher.dumpHost ['a'] 1) sharedRun k = .ok (1, 70)) ∧
      signatureAt Searcher.dumpPath (Searcher.dumpHost ['a'] 1) sharedRun 3 = .ok (2, 70) ∧
      signatureAt Searcher.dumpPath (Searcher.dumpHost ['a'] 1) sharedRun 8 = .error .notFound := by
  obtain ⟨hfirst, hsecond, -⟩ := Searcher.dumpHost_signature
  refine ⟨?_, hsecond, ?_⟩
  · intro k hk
    interval_cases k <;> exact hfirst
  · have hhost : (momentAt Searcher.dumpPath (Searcher.dumpHost ['a'] 1) sharedRun 8).host = .empty := rfl
    rw [signatureAt, hhost]
    cbv

set_option maxRecDepth 8000 in
/-- The second question is answered from between its steps, though only from what the first one stored over a newer signature; the
fourth one fails and changes nothing. -/
theorem linearizable_shared :
    RewritesAreNew Searcher.dumpPath (Searcher.dumpHost ['a'] 1) sharedRun ∧ Asked sharedRun 1 "foo".toList 1 6 ∧
      replyAt Searcher.dumpPath (Searcher.dumpHost ['a'] 1) sharedRun 6 = some (.answer [Searcher.dumpSymbol ['b']]) ∧
      (∃ j content, 1 ≤ j ∧ j ≤ 6 ∧
        readAt Searcher.dumpPath (Searcher.dumpHost ['a'] 1) sharedRun j = .ok content ∧
        replyAt Searcher.dumpPath (Searcher.dumpHost ['a'] 1) sharedRun 6 =
          some (.answer (Provider.named "foo".toList (Dump.symbols content)))) ∧
      replyAt Searcher.dumpPath (Searcher.dumpHost ['a'] 1) sharedRun 8 = some (.failure (.dumpUnreadable Searcher.dumpPath)) ∧
      (momentAt Searcher.dumpPath (Searcher.dumpHost ['a'] 1) sharedRun 9).memory =
        (momentAt Searcher.dumpPath (Searcher.dumpHost ['a'] 1) sharedRun 8).memory := by
  obtain ⟨hfirst, hsecond, hlast⟩ := sharedRun_signatureAt
  have hnew : RewritesAreNew Searcher.dumpPath (Searcher.dumpHost ['a'] 1) sharedRun := by
    intro k disk hk
    have hlt : k < sharedRun.length := (List.getElem?_eq_some_iff.1 hk).1
    -- only the third and the eighth event change the disk
    have hchange : k = 2 ∨ k = 7 := by
      simp only [sharedRun, List.length_cons, List.length_nil] at hlt
      interval_cases k <;> simp [sharedRun] at hk ⊢
    right
    intro signature hnow
    rcases hchange with rfl | rfl
    · rw [hsecond] at hnow
      cases hnow
      intro j hj hold
      rw [hfirst j hj] at hold
      cases hold
    · rw [hlast] at hnow
      cases hnow
  have hasked : Asked sharedRun 1 "foo".toList 1 6 := by
    refine ⟨rfl, rfl, by decide, ?_⟩
    intro j hj hjk
    interval_cases j <;> simp [sharedRun]
  have hanswer : replyAt Searcher.dumpPath (Searcher.dumpHost ['a'] 1) sharedRun 6 =
      some (.answer [Searcher.dumpSymbol ['b']]) := by cbv
  obtain ⟨hreply, hlook, hfailure, -⟩ := linearizable hnew
  have hfailed := hlook 3 8 .notFound rfl hlast
  refine ⟨hnew, hasked, hanswer, ?_, hfailed, hfailure 8 _ hfailed⟩
  rcases hreply 1 "foo".toList 1 6 (1, 70) hasked (hfirst 1 (by decide)) with hbetween | ⟨e, -, hunread⟩
  · exact hbetween
  · rw [hanswer] at hunread
    cases hunread

end Interleaved

end SymbolSearch
