import Mathlib.Data.List.Nodup
import Mathlib.Data.List.Perm.Subperm
import Mathlib.Logic.Relation
import SymbolSearch.Proofs.Provider
import SymbolSearch.Proofs.Symbol.Shared

/-!
# The pool of workers, step by step

Questions wait in a queue, workers take them in order, and the answers are collected in order, each for a limited time. `Pool.Step`
lists what may happen next; in which order it happens is left open. Whatever the order, the collected answers are those that
`Provider.served` gives without any pool (`Pool.Valid.step`, `queryKeywords_scheduled`): a question goes without an answer if it has
none, or if as many questions as there are workers hang in front of it.
-/

namespace SymbolSearch

/-- The state of a pool of workers and of the one who collects its answers. Questions go by their places in the list of questions. -/
structure Pool where
  /-- The questions that no worker has taken, the next one first. -/
  queue : List Nat
  /-- The questions that workers are at. -/
  busy : List Nat
  /-- The questions that have been answered or have failed. -/
  finished : List Nat
  /-- The answers collected so far, from the first question on. -/
  collected : List (List Located)

namespace Pool

/-- At the start all questions wait. -/
def start (questions : Nat) : Pool :=
  ⟨List.range questions, [], [], []⟩

/-- What may happen next in a pool of `size` workers, where `responses` are what becomes of the questions. -/
inductive Step (size : Nat) (responses : List Response) : Pool → Pool → Prop
  /-- A free worker takes the question that has waited longest. -/
  | take {queue busy finished collected} (place : Nat) (hfree : busy.length < size) :
      Step size responses ⟨place :: queue, busy, finished, collected⟩ ⟨queue, place :: busy, finished, collected⟩
  /-- A question that does not hang is done, and its worker is free again. -/
  | finish {queue busy finished collected} (place : Nat) (hbusy : place ∈ busy) (hends : responses[place]? ≠ some .hanging) :
      Step size responses ⟨queue, busy, finished, collected⟩ ⟨queue, busy.erase place, place :: finished, collected⟩
  /-- The next answer is there. A failed question counts as one without symbols. -/
  | collect {queue busy finished collected} (response : Response) (hfinished : collected.length ∈ finished)
      (hresponse : responses[collected.length]? = some response) :
      Step size responses ⟨queue, busy, finished, collected⟩ ⟨queue, busy, finished, collected ++ [response.symbols]⟩
  /-- The time for the next answer is over. A question that a worker is at ends in time unless it hangs, and one that waits is taken
  unless all workers are at other questions. -/
  | expire {queue busy finished collected} (hwanted : collected.length < responses.length)
      (hlate : collected.length ∈ busy ∧ responses[collected.length]? = some .hanging ∨
        collected.length ∈ queue ∧ size ≤ busy.length) :
      Step size responses ⟨queue, busy, finished, collected⟩ ⟨queue, busy, finished, collected ++ [[]]⟩

/-- A state that some order of steps leads to. -/
def Reached (size : Nat) (responses : List Response) (pool : Pool) : Prop :=
  Relation.ReflTransGen (Step size responses) (start responses.length) pool

end Pool

/-! ## Questions that hang -/

/-- The number of hanging questions in front of a place. -/
def hangingBefore (responses : List Response) (place : Nat) : Nat :=
  (responses.take place).count .hanging

section Hanging

variable {size place : Nat} {responses : List Response}

/-- The hanging questions in front of a place, counted by their places. -/
theorem hangingBefore_eq (responses : List Response) (place : Nat) :
    hangingBefore responses place = ((List.range place).filter (fun p => decide (responses[p]? = some .hanging))).length := by
  induction place with
  | zero => rfl
  | succ place ih =>
    rw [hangingBefore] at ih ⊢
    rw [List.take_add_one, List.count_append, ih, List.range_succ, List.filter_append, List.length_append]
    congr 1
    cases hp : responses[place]? with
    | none => simp [hp]
    | some response => by_cases hr : response = .hanging <;> simp [hp, hr]

/-- Different hanging questions in front of a place are no more than there are. -/
theorem length_le_hangingBefore {places : List Nat} (hnodup : places.Nodup)
    (h : ∀ p ∈ places, p < place ∧ responses[p]? = some .hanging) : places.length ≤ hangingBefore responses place := by
  rw [hangingBefore_eq]
  refine (hnodup.subperm fun p hp => ?_).length_le
  simpa using h p hp

/-- Places among which are all hanging questions in front of a place are at least as many. -/
theorem hangingBefore_le_length {places : List Nat} (h : ∀ p < place, responses[p]? = some .hanging → p ∈ places) :
    hangingBefore responses place ≤ places.length := by
  rw [hangingBefore_eq]
  refine (List.Nodup.subperm (List.nodup_range.filter _) fun p hp => ?_).length_le
  have hmem : p < place ∧ responses[p]? = some .hanging := by simpa using hp
  exact h p hmem.1 hmem.2

/-- What a question is served with: its own symbols, as long as fewer questions hang in front of it than there are workers. -/
theorem getElem?_served (size : Nat) (responses : List Response) (place : Nat) :
    (Provider.served size responses)[place]? =
      responses[place]?.map (fun response => if hangingBefore responses place < size then response.symbols else []) := by
  induction responses generalizing size place with
  | nil => simp [Provider.served]
  | cons response rest ih =>
    have hbefore : ∀ p, hangingBefore (response :: rest) (p + 1) =
        hangingBefore rest p + if response = .hanging then 1 else 0 := by
      intro p
      simp [hangingBefore, List.count_cons]
    have hnone : hangingBefore (response :: rest) 0 = 0 := rfl
    cases size with
    | zero => cases place <;> simp [Provider.served, ih]
    | succ free =>
      by_cases hr : response = .hanging
      · subst hr
        cases place with
        | zero => simp [Provider.served, Response.symbols]
        | succ p => simp [Provider.served, ih, hbefore]
      · rw [Provider.served_cons hr]
        cases place with
        | zero => simp [hnone]
        | succ p => simp [ih, hbefore, hr]

/-- Every question is served with something. -/
theorem length_served (size : Nat) (responses : List Response) : (Provider.served size responses).length = responses.length := by
  apply Nat.le_antisymm
  · rw [← List.getElem?_eq_none_iff, getElem?_served, List.getElem?_eq_none (Nat.le_refl _), Option.map_none]
  · rw [← List.getElem?_eq_none_iff (l := responses), ← Option.map_eq_none_iff, ← getElem?_served,
      List.getElem?_eq_none (Nat.le_refl _)]

end Hanging

/-! ## What every state keeps -/

namespace Pool

/-- What holds in every state, where `taken` questions have been taken from the queue. -/
structure Valid (size : Nat) (responses : List Response) (taken : Nat) (pool : Pool) : Prop where
  taken_le : taken ≤ responses.length
  /-- The queue holds the questions that have not been taken, in order. -/
  queue_eq : pool.queue = List.range' taken (responses.length - taken)
  nodup_busy : pool.busy.Nodup
  /-- A question that has been taken is being worked at or done. -/
  mem_busy_iff : ∀ place, place ∈ pool.busy ↔ place < taken ∧ place ∉ pool.finished
  lt_of_finished : ∀ place ∈ pool.finished, place < taken
  /-- A hanging question is never done. -/
  ends_of_finished : ∀ place ∈ pool.finished, responses[place]? ≠ some .hanging
  /-- When a question was taken, the hanging ones in front of it left a worker free. -/
  before_lt : ∀ place < taken, hangingBefore responses place < size
  /-- What has been collected is what the first questions are served with. -/
  collected_prefix : pool.collected <+: Provider.served size responses
  /-- A question passed over without an answer hangs, or too many hang in front of it. -/
  passed : ∀ place < pool.collected.length, place ∉ pool.finished →
    responses[place]? = some .hanging ∨ size ≤ hangingBefore responses place

variable {size taken : Nat} {responses : List Response} {pool later : Pool}

/-- All is well at the start. -/
theorem valid_start (size : Nat) (responses : List Response) : Valid size responses 0 (start responses.length) where
  taken_le := Nat.zero_le _
  queue_eq := by rw [start, Nat.sub_zero, List.range_eq_range']
  nodup_busy := List.nodup_nil
  mem_busy_iff := by simp [start]
  lt_of_finished := by simp [start]
  ends_of_finished := by simp [start]
  before_lt := by simp
  collected_prefix := List.nil_prefix
  passed := by simp [start]

/-- No more is collected than there are questions. -/
theorem Valid.collected_le (h : Valid size responses taken pool) : pool.collected.length ≤ responses.length := by
  rw [← length_served size responses]
  exact h.collected_prefix.length_le

/-- One more answer is collected, and it is the right one. -/
theorem Valid.collect_next (h : Valid size responses taken pool) {response : Response} {set : List Located}
    (hresponse : responses[pool.collected.length]? = some response)
    (hset : (if hangingBefore responses pool.collected.length < size then response.symbols else []) = set) :
    pool.collected ++ [set] <+: Provider.served size responses := by
  have hnext : (Provider.served size responses)[pool.collected.length]? = some set := by
    rw [getElem?_served, hresponse, Option.map_some, hset]
  obtain ⟨rest, hrest⟩ := h.collected_prefix
  rw [← hrest, List.getElem?_append_right (Nat.le_refl _), Nat.sub_self] at hnext
  obtain ⟨rest', rfl⟩ : ∃ rest', rest = set :: rest' := by
    cases rest with
    | nil => simp at hnext
    | cons first rest' => exact ⟨rest', by simpa using hnext⟩
  exact ⟨rest', by rw [List.append_assoc, List.singleton_append, hrest]⟩

/-- Where a question that waits has its time over, only hanging questions keep the workers, and all of them stand in front of it. -/
theorem Valid.full_of_waiting (h : Valid size responses taken pool) (htaken : taken ≤ pool.collected.length)
    (hfull : size ≤ pool.busy.length) : size ≤ hangingBefore responses pool.collected.length := by
  have hbusy : ∀ place ∈ pool.busy, place < pool.collected.length ∧ responses[place]? = some .hanging := by
    intro place hplace
    obtain ⟨hlt, hnot⟩ := (h.mem_busy_iff place).1 hplace
    have hcollected : place < pool.collected.length := by omega
    refine ⟨hcollected, ?_⟩
    -- it was collected before, so it has been passed over
    rcases h.passed place hcollected hnot with hhangs | hmany
    · exact hhangs
    · have hfew := h.before_lt place hlt
      omega
  exact hfull.trans (length_le_hangingBefore h.nodup_busy hbusy)

section Steps

variable {queue busy finished : List Nat} {collected : List (List Located)} {place : Nat}

/-- The question that has waited longest is the first one that has not been taken. -/
theorem Valid.queue_cons (h : Valid size responses taken ⟨place :: queue, busy, finished, collected⟩) :
    place = taken ∧ taken < responses.length ∧ queue = List.range' (taken + 1) (responses.length - (taken + 1)) := by
  have hq : place :: queue = List.range' taken (responses.length - taken) := h.queue_eq
  have hpos : responses.length - taken ≠ 0 := by
    intro h0
    rw [h0] at hq
    cases hq
  rw [show responses.length - taken = (responses.length - (taken + 1)) + 1 by omega, List.range'_succ] at hq
  cases hq
  exact ⟨rfl, by omega, rfl⟩

/-- The hanging questions in front of those that wait are being worked at: they have been taken, and are never done. -/
theorem Valid.hangingBefore_le_busy (h : Valid size responses taken pool) : hangingBefore responses taken ≤ pool.busy.length := by
  refine hangingBefore_le_length fun p hp hhangs => ?_
  exact (h.mem_busy_iff p).2 ⟨hp, fun hmem => h.ends_of_finished p hmem hhangs⟩

/-- All stays well when a free worker takes a question. -/
theorem Valid.take (h : Valid size responses taken ⟨place :: queue, busy, finished, collected⟩) (hfree : busy.length < size) :
    Valid size responses (taken + 1) ⟨queue, place :: busy, finished, collected⟩ := by
  obtain ⟨rfl, hlt, hqueue⟩ := h.queue_cons
  have hnew : place ∉ finished := fun hmem => absurd (h.lt_of_finished place hmem) (Nat.lt_irrefl _)
  refine ⟨hlt, hqueue, ?_, ?_, ?_, h.ends_of_finished, ?_, h.collected_prefix, h.passed⟩
  · refine List.nodup_cons.2 ⟨fun hmem => ?_, h.nodup_busy⟩
    exact absurd ((h.mem_busy_iff place).1 hmem).1 (Nat.lt_irrefl _)
  · intro p
    have hp := h.mem_busy_iff p
    simp only [List.mem_cons] at hp ⊢
    rw [hp]
    constructor
    · rintro (rfl | ⟨hlt, hnot⟩)
      · exact ⟨Nat.lt_succ_self _, hnew⟩
      · exact ⟨by omega, hnot⟩
    · rintro ⟨hlt, hnot⟩
      rcases Nat.lt_succ_iff_lt_or_eq.1 hlt with hlt | rfl
      · exact Or.inr ⟨hlt, hnot⟩
      · exact Or.inl rfl
  · intro p hp
    exact Nat.lt_succ_of_lt (h.lt_of_finished p hp)
  · intro p hp
    rcases Nat.lt_succ_iff_lt_or_eq.1 hp with hp | rfl
    · exact h.before_lt p hp
    · exact Nat.lt_of_le_of_lt h.hangingBefore_le_busy hfree

/-- All stays well when a question is done. -/
theorem Valid.finish (h : Valid size responses taken ⟨queue, busy, finished, collected⟩) (hbusy : place ∈ busy)
    (hends : responses[place]? ≠ some .hanging) :
    Valid size responses taken ⟨queue, busy.erase place, place :: finished, collected⟩ := by
  obtain ⟨hlt, hnot⟩ := (h.mem_busy_iff place).1 hbusy
  refine ⟨h.taken_le, h.queue_eq, h.nodup_busy.erase place, ?_, ?_, ?_, h.before_lt, h.collected_prefix, ?_⟩
  · intro p
    rw [h.nodup_busy.mem_erase_iff, h.mem_busy_iff, List.mem_cons, not_or]
    tauto
  · intro p hp
    rcases List.mem_cons.1 hp with rfl | hp
    · exact hlt
    · exact h.lt_of_finished p hp
  · intro p hp
    rcases List.mem_cons.1 hp with rfl | hp
    · exact hends
    · exact h.ends_of_finished p hp
  · intro p hp hmem
    exact h.passed p hp (fun hp => hmem (List.mem_cons_of_mem _ hp))

/-- All stays well when the right symbols are gathered for the next question, which is done or rightly passed over. -/
theorem Valid.gather (h : Valid size responses taken ⟨queue, busy, finished, collected⟩) {response : Response}
    {symbols : List Located} (hresponse : responses[collected.length]? = some response)
    (hsymbols : (if hangingBefore responses collected.length < size then response.symbols else []) = symbols)
    (hpassed : collected.length ∉ finished →
      responses[collected.length]? = some .hanging ∨ size ≤ hangingBefore responses collected.length) :
    Valid size responses taken ⟨queue, busy, finished, collected ++ [symbols]⟩ := by
  refine ⟨h.taken_le, h.queue_eq, h.nodup_busy, h.mem_busy_iff, h.lt_of_finished, h.ends_of_finished, h.before_lt,
    h.collect_next hresponse hsymbols, ?_⟩
  intro p hp hmem
  rw [List.length_append, List.length_singleton, Nat.lt_succ_iff_lt_or_eq] at hp
  rcases hp with hp | rfl
  · exact h.passed p hp hmem
  · exact hpassed hmem

/-- All stays well when the next answer is collected: it was taken while a worker was free. -/
theorem Valid.collect (h : Valid size responses taken ⟨queue, busy, finished, collected⟩) {response : Response}
    (hfinished : collected.length ∈ finished) (hresponse : responses[collected.length]? = some response) :
    Valid size responses taken ⟨queue, busy, finished, collected ++ [response.symbols]⟩ :=
  h.gather hresponse (if_pos (h.before_lt _ (h.lt_of_finished _ hfinished))) fun hmem => absurd hfinished hmem

/-- All stays well when the time for the next answer is over: the question hangs, or too many hang in front of it. -/
theorem Valid.expire (h : Valid size responses taken ⟨queue, busy, finished, collected⟩)
    (hwanted : collected.length < responses.length)
    (hlate : collected.length ∈ busy ∧ responses[collected.length]? = some .hanging ∨
      collected.length ∈ queue ∧ size ≤ busy.length) :
    Valid size responses taken ⟨queue, busy, finished, collected ++ [[]]⟩ := by
  obtain ⟨response, hresponse⟩ : ∃ response, responses[collected.length]? = some response :=
    ⟨_, List.getElem?_eq_getElem hwanted⟩
  have hpassed : responses[collected.length]? = some .hanging ∨ size ≤ hangingBefore responses collected.length := by
    rcases hlate with ⟨-, hhangs⟩ | ⟨hwaits, hfull⟩
    · exact Or.inl hhangs
    · have hwaits : collected.length ∈ List.range' taken (responses.length - taken) := h.queue_eq ▸ hwaits
      have htaken : taken ≤ collected.length := (List.mem_range'_1.1 hwaits).1
      exact Or.inr (h.full_of_waiting htaken hfull)
  refine h.gather hresponse ?_ fun _ => hpassed
  rcases hpassed with hhangs | hmany
  · rw [hresponse] at hhangs
    cases hhangs
    exact ite_self _
  · exact if_neg (Nat.not_lt.2 hmany)

end Steps

/-- Every step keeps what holds in every state. -/
theorem Valid.step (h : Valid size responses taken pool) (hstep : Step size responses pool later) :
    ∃ taken', Valid size responses taken' later := by
  cases hstep with
  | take place hfree => exact ⟨taken + 1, h.take hfree⟩
  | finish place hbusy hends => exact ⟨taken, h.finish hbusy hends⟩
  | collect response hfinished hresponse => exact ⟨taken, h.collect hfinished hresponse⟩
  | expire hwanted hlate => exact ⟨taken, h.expire hwanted hlate⟩

/-- In every state that some order of steps leads to, all is well. -/
theorem Reached.valid (h : Reached size responses pool) : ∃ taken, Valid size responses taken pool := by
  induction h with
  | refl => exact ⟨0, valid_start size responses⟩
  | tail _ hstep ih =>
    obtain ⟨taken, hvalid⟩ := ih
    exact hvalid.step hstep

/-- As long as an answer is missing, something can happen. -/
theorem Valid.exists_step (h : Valid size responses taken pool) (hmissing : pool.collected.length < responses.length) :
    ∃ later, Step size responses pool later := by
  obtain ⟨queue, busy, finished, collected⟩ := pool
  obtain ⟨response, hresponse⟩ : ∃ response, responses[collected.length]? = some response :=
    ⟨_, List.getElem?_eq_getElem hmissing⟩
  by_cases htaken : collected.length < taken
  · by_cases hfinished : collected.length ∈ finished
    · exact ⟨_, .collect response hfinished hresponse⟩
    · have hbusy : collected.length ∈ busy := (h.mem_busy_iff _).2 ⟨htaken, hfinished⟩
      by_cases hhangs : responses[collected.length]? = some .hanging
      · exact ⟨_, .expire hmissing (Or.inl ⟨hbusy, hhangs⟩)⟩
      · exact ⟨_, .finish _ hbusy hhangs⟩
  · have hqueue : queue = List.range' taken (responses.length - taken) := h.queue_eq
    have hwaits : collected.length ∈ queue := by
      rw [hqueue, List.mem_range'_1]
      have hle : collected.length < responses.length := hmissing
      omega
    by_cases hfree : busy.length < size
    · cases queue with
      | nil => cases hwaits
      | cons place queue => exact ⟨_, .take place hfree⟩
    · exact ⟨_, .expire hmissing (Or.inr ⟨hwaits, by omega⟩)⟩

/-- What is left to do: a waiting question is to be taken and done, a taken one to be done, and the answers to be collected. -/
def remaining (questions : Nat) (pool : Pool) : Nat :=
  2 * pool.queue.length + pool.busy.length + (questions - pool.collected.length)

/-- Every step leaves less to do. -/
theorem Step.remaining_lt (h : Step size responses pool later) :
    later.remaining responses.length < pool.remaining responses.length := by
  cases h with
  | take place hfree =>
    simp only [remaining, List.length_cons]
    omega
  | finish place hbusy hends =>
    have hpos := List.length_pos_of_mem hbusy
    simp only [remaining, List.length_erase_of_mem hbusy]
    omega
  | collect response hfinished hresponse =>
    have hlt := (List.getElem?_eq_some_iff.1 hresponse).1
    simp only [remaining, List.length_append, List.length_singleton]
    omega
  | expire hwanted hlate =>
    simp only [remaining, List.length_append, List.length_singleton]
    omega

/-- No order of steps goes on for ever. -/
theorem step_wellFounded (size : Nat) (responses : List Response) :
    WellFounded (fun later pool => Step size responses pool later) :=
  Subrelation.wf Step.remaining_lt (InvImage.wf (remaining responses.length) Nat.lt_wfRel.wf)

end Pool

/-! ## Asking for keywords -/

namespace Provider

variable {provider : Provider} {host : Host} {memory : DumpMemory}

/-- What becomes of the questions for several keywords. -/
def responses (host : Host) (provider : Provider) (memory : DumpMemory) (keywords : List Text) : List Response :=
  keywords.map (fun keyword => (provider.query host memory keyword).1)

/-- Asking for keywords is serving the questions for them. -/
theorem queryKeywords_eq_served (provider : Provider) (host : Host) (memory : DumpMemory) (keywords : List Text) (most : Int) :
    (provider.queryKeywords host memory keywords most).1 =
      served (workers most keywords.length) (provider.responses host memory keywords) := by
  simp only [queryKeywords, (queryAll_responses provider host memory keywords).1, responses]

/-- The number of keywords in front of a place for which the question hangs. -/
theorem hangingBefore_responses (keywords : List Text) (place : Nat) :
    hangingBefore (provider.responses host memory keywords) place =
      (keywords.take place).countP (fun keyword => decide ((provider.query host memory keyword).1 = .hanging)) := by
  rw [hangingBefore, responses, ← List.map_take, List.count, List.countP_map]
  rfl

/-- The answers for keywords do not depend on the order in which the workers of the pool go on: in every state that can be reached,
the collected answers are the first ones of those that `queryKeywords` gives, and as long as some are missing the pool goes on, but
not for ever. There is one answer for each keyword. It is what the provider answers, if it does and fewer keywords in front hang than
there are workers, and else it is empty. So where nothing hangs the number of workers does not show, and where one keyword fails or
hangs nothing is shared. -/
theorem queryKeywords_scheduled (provider : Provider) (host : Host) (memory : DumpMemory) (keywords : List Text) (most : Int) :
    WellFounded (fun later pool =>
        Pool.Step (workers most keywords.length) (provider.responses host memory keywords) pool later) ∧
      (∀ pool, Pool.Reached (workers most keywords.length) (provider.responses host memory keywords) pool →
        pool.collected <+: (provider.queryKeywords host memory keywords most).1 ∧
          (pool.collected = (provider.queryKeywords host memory keywords most).1 ∨
            ∃ later, Pool.Step (workers most keywords.length) (provider.responses host memory keywords) pool later)) ∧
      (provider.queryKeywords host memory keywords most).1.length = keywords.length ∧
      (∀ (place : Nat) (keyword : Text), keywords[place]? = some keyword →
        (provider.queryKeywords host memory keywords most).1[place]? =
          some (if (keywords.take place).countP (fun other => decide ((provider.query host memory other).1 = .hanging)) <
              workers most keywords.length
            then (provider.query host memory keyword).1.symbols else [])) ∧
      ((∀ keyword ∈ keywords, (provider.query host memory keyword).1 ≠ .hanging) → ∀ most' : Int,
        (provider.queryKeywords host memory keywords most').1 = (provider.queryKeywords host memory keywords most).1) ∧
      ((∃ keyword ∈ keywords, ∀ symbols, (provider.query host memory keyword).1 ≠ .answer symbols) →
        Located.shared (provider.queryKeywords host memory keywords most).1 = []) := by
  have hlength : (provider.responses host memory keywords).length = keywords.length := List.length_map _
  have hat : ∀ (place : Nat) (keyword : Text), keywords[place]? = some keyword →
      (provider.queryKeywords host memory keywords most).1[place]? =
        some (if (keywords.take place).countP (fun other => decide ((provider.query host memory other).1 = .hanging)) <
            workers most keywords.length
          then (provider.query host memory keyword).1.symbols else []) := by
    intro place keyword hkeyword
    rw [queryKeywords_eq_served, getElem?_served, hangingBefore_responses, responses, List.getElem?_map, hkeyword]
    rfl
  refine ⟨Pool.step_wellFounded _ _, ?_, ?_, hat, ?_, ?_⟩
  · intro pool hreached
    obtain ⟨taken, hvalid⟩ := hreached.valid
    rw [queryKeywords_eq_served]
    refine ⟨hvalid.collected_prefix, ?_⟩
    by_cases hmissing : pool.collected.length < (provider.responses host memory keywords).length
    · exact Or.inr (hvalid.exists_step hmissing)
    · refine Or.inl (hvalid.collected_prefix.eq_of_length ?_)
      have hle := hvalid.collected_le
      rw [length_served]
      omega
  · rw [queryKeywords_eq_served, length_served, hlength]
  · intro hends most'
    have hall : ∀ response ∈ provider.responses host memory keywords, response ≠ .hanging := by
      intro response hr
      obtain ⟨keyword, hk, rfl⟩ := List.mem_map.1 hr
      exact hends keyword hk
    have hserved : ∀ m : Int, (provider.queryKeywords host memory keywords m).1 =
        (provider.responses host memory keywords).map Response.symbols := by
      intro m
      obtain ⟨free, hfree⟩ := Nat.exists_eq_add_one.2 (workers_pos m keywords.length)
      rw [queryKeywords_eq_served, hfree, served_of_not_hanging hall]
    rw [hserved, hserved]
  · rintro ⟨keyword, hk, hnone⟩
    obtain ⟨place, hplace⟩ := List.mem_iff_getElem?.1 hk
    have hsymbols : (provider.query host memory keyword).1.symbols = [] := by
      cases hr : (provider.query host memory keyword).1 with
      | answer symbols => exact absurd hr (hnone symbols)
      | failure fault => rfl
      | hanging => rfl
    have hempty := hat place keyword hplace
    rw [hsymbols, ite_self] at hempty
    exact Located.shared_eq_nil_of_mem (List.mem_of_getElem? hempty)

/-- A host that never answers for `slow`, fails for `broken`, and has one symbol for everything else. -/
def stalling : Provider :=
  .asked fun text =>
    if text = "slow".toList then .hanging
    else if text = "broken".toList then .failure .providerFailed
    else .answer [⟨text, none, "file:///a.c".toList, ⟨⟨0, 0⟩, ⟨0, 1⟩⟩, none⟩]

/-- With two workers, the keyword behind one slow keyword gets its answer, and the one behind two waits in vain. With a failed keyword
nothing is shared, where nothing hangs any number of workers does, and a pool that has collected nothing goes on. -/
theorem queryKeywords_scheduled_stalling :
    (stalling.queryKeywords .empty .fresh ["slow".toList, "f".toList, "slow".toList, "g".toList] 2).1 =
        [[], [⟨"f".toList, none, "file:///a.c".toList, ⟨⟨0, 0⟩, ⟨0, 1⟩⟩, none⟩], [], []] ∧
      Located.shared (stalling.queryKeywords .empty .fresh ["f".toList, "broken".toList] 2).1 = [] ∧
      (stalling.queryKeywords .empty .fresh ["f".toList, "g".toList] (-3)).1 =
        (stalling.queryKeywords .empty .fresh ["f".toList, "g".toList] 2).1 ∧
      ∃ later, Pool.Step 2 (stalling.responses .empty .fresh ["slow".toList, "f".toList]) (Pool.start 2) later := by
  refine ⟨?_, ?_, ?_, ?_⟩
  · obtain ⟨-, -, hlength, hat, -, -⟩ := queryKeywords_scheduled stalling .empty .fresh
      ["slow".toList, "f".toList, "slow".toList, "g".toList] 2
    apply List.ext_getElem?
    intro place
    rcases place with _ | _ | _ | _ | place
    · exact hat 0 "slow".toList rfl
    · exact hat 1 "f".toList rfl
    · exact hat 2 "slow".toList rfl
    · exact hat 3 "g".toList rfl
    · rw [List.getElem?_eq_none (by rw [hlength]; exact Nat.le_add_left 4 place)]
      rfl
  · obtain ⟨-, -, -, -, -, hnone⟩ := queryKeywords_scheduled stalling .empty .fresh ["f".toList, "broken".toList] 2
    exact hnone ⟨"broken".toList, List.mem_cons_of_mem _ List.mem_cons_self, fun symbols h => by cases h⟩
  · obtain ⟨-, -, -, -, hany, -⟩ := queryKeywords_scheduled stalling .empty .fresh ["f".toList, "g".toList] 2
    refine hany (fun keyword hk => ?_) (-3)
    rcases List.mem_cons.1 hk with rfl | hk
    · decide
    · rw [List.mem_singleton.1 hk]
      decide
  · obtain ⟨-, hreached, -⟩ := queryKeywords_scheduled stalling .empty .fresh ["slow".toList, "f".toList] 2
    refine (hreached (Pool.start 2) .refl).2.resolve_left ?_
    decide

end Provider

end SymbolSearch
