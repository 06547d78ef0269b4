import SymbolSearch.Proofs.Answer
import SymbolSearch.Proofs.Json.Scalars
import SymbolSearch.Proofs.Value

/-!
# Written documents read back

A document that the writer makes is read as the value it was made of, with the pairs of every table in the order of their keys
(`parse?_write`). A value can be written unless an integer in it takes more than 64 bits (`write_error_iff`). The proof builds a written
value from written parts: a `Written` carries a text together with the value that the reader takes it for, whatever follows.
-/

namespace SymbolSearch.Json

variable {room : Nat}

/-! ## White space -/

/-- A text that does not start with white space stays as it is. -/
theorem skipSpace_cons {c : Char} (s : Text) (h : isSpace c = false) : skipSpace (c :: s) = c :: s :=
  List.dropWhile_cons_of_neg (by rw [h]; decide)

/-- The line break and the indent before a part are passed over. -/
theorem skipSpace_newline (level : Nat) {c : Char} (s : Text) (h : isSpace c = false) :
    skipSpace (newline level ++ c :: s) = c :: s := by
  have hblank : ∀ d ∈ newline level, isSpace d = true := by
    intro d hd
    rcases List.mem_cons.1 hd with rfl | hd
    · decide
    · rw [List.eq_of_mem_replicate hd]
      decide
  refine Text.dropWhile_append_stop hblank fun d hd => ?_
  obtain rfl : c = d := Option.some.inj hd
  exact h

theorem follows_comma (s : Text) : Follows (',' :: s) :=
  fun _ hc => .inl (Option.some.inj hc).symm

theorem follows_newline (level : Nat) (s : Text) : Follows (newline level ++ s) :=
  fun _ hc => .inr (Option.some.inj hc).symm

/-! ## Values and their texts -/

/-- A text that the reader takes for a value wherever it stands in a document, with room for the lists and tables in it. -/
structure Written (room : Nat) where
  text : Text
  value : Value
  starts : ∃ c tail, text = c :: tail ∧ isSpace c = false ∧ c ≠ ']'
  reads : ∀ fuel rest, (text ++ rest).length < fuel → Follows rest → value? .unbounded fuel room (text ++ rest) = some (value, rest)

/-- With fuel for what is left there is fuel for a step. -/
theorem exists_succ_of_lt {n fuel : Nat} (h : n < fuel) : ∃ k, fuel = k + 1 :=
  ⟨fuel - 1, by omega⟩

/-- The word for no value. -/
def Written.null (room : Nat) : Written room where
  text := "null".toList
  value := .null
  starts := ⟨'n', _, rfl, by decide, by decide⟩
  reads fuel rest hfuel _ := by
    obtain ⟨fuel, rfl⟩ := exists_succ_of_lt hfuel
    rfl

/-- The word for a truth value. -/
def Written.bool (room : Nat) (b : Bool) : Written room where
  text := if b then "true".toList else "false".toList
  value := .bool b
  starts := by
    cases b
    · exact ⟨'f', _, rfl, by decide, by decide⟩
    · exact ⟨'t', _, rfl, by decide, by decide⟩
  reads fuel rest hfuel _ := by
    obtain ⟨fuel, rfl⟩ := exists_succ_of_lt hfuel
    cases b
    · rfl
    · rfl

/-- A text between quotes. -/
def Written.ofText (room : Nat) (s : Text) : Written room where
  text := writeText s
  value := .text s
  starts := ⟨'"', _, rfl, by decide, by decide⟩
  reads fuel rest hfuel _ := by
    obtain ⟨fuel, rfl⟩ := exists_succ_of_lt hfuel
    rw [writeText, List.cons_append, List.cons_append, List.append_assoc, List.singleton_append, value?,
      stringBody_flatMap_escapeChar, Option.map_some]

/-- An integer starts with a digit or a minus sign. -/
theorem exists_ofInt (n : Int) : ∃ c tail, Text.ofInt n = c :: tail ∧ (Text.isAsciiDigit c = true ∨ c = '-') := by
  cases n with
  | ofNat n =>
    obtain ⟨c, tail, htext⟩ := List.exists_cons_of_ne_nil (ofNat_ne_nil n)
    exact ⟨c, tail, htext, .inl (isAsciiDigit_of_mem_ofNat (n := n) (by rw [htext]; exact List.mem_cons_self))⟩
  | negSucc n => exact ⟨'-', Text.ofNat (n + 1), rfl, .inr rfl⟩

/-- An integer in digits. -/
def Written.int (room : Nat) (n : Int) : Written room where
  text := Text.ofInt n
  value := .int n
  starts := by
    obtain ⟨c, tail, htext, hc⟩ := exists_ofInt n
    refine ⟨c, tail, htext, ?_, ?_⟩
    · rw [← Bool.not_eq_true]
      intro hspace
      simp only [isSpace, Bool.or_eq_true, decide_eq_true_eq] at hspace
      rcases hspace with ((rfl | rfl) | rfl) | rfl <;> revert hc <;> decide
    · rintro rfl
      revert hc
      decide
  reads fuel rest hfuel hrest := by
    obtain ⟨fuel, rfl⟩ := exists_succ_of_lt hfuel
    obtain ⟨c, tail, htext, hc⟩ := exists_ofInt n
    have hother : ∀ d s, Text.ofInt n ++ rest = d :: s → Text.isAsciiDigit d = true ∨ d = '-' := by
      intro d s hd
      rw [htext, List.cons_append, List.cons.injEq] at hd
      rw [← hd.1]
      exact hc
    rw [value?, number?_ofInt _ n hrest]
    · rfl
    all_goals
      intro s hs
      exact absurd (hother _ _ hs) (by decide)

/-! ## Lists -/

/-- Parts on lines of their own with commas between them, the closing bracket on a line of its own, and what follows. -/
def partsUpTo (level : Nat) (closing : Char) (rest : Text) (parts : List Text) : Text :=
  Text.joinWith (',' :: newline (level + 1)) parts ++ (newline level ++ closing :: rest)

/-- The last part stands before the line of the closing bracket. -/
theorem partsUpTo_last (level : Nat) (closing : Char) (rest part : Text) :
    partsUpTo level closing rest [part] = part ++ (newline level ++ closing :: rest) :=
  rfl

/-- Any other part stands before a comma and the line of the next one. -/
theorem partsUpTo_next (level : Nat) (closing : Char) (rest part next : Text) (parts : List Text) :
    partsUpTo level closing rest (part :: next :: parts) =
      part ++ (',' :: (newline (level + 1) ++ partsUpTo level closing rest (next :: parts))) := by
  rw [partsUpTo, partsUpTo, Text.joinWith_cons (List.cons_ne_nil _ _)]
  simp only [List.append_assoc, List.cons_append]

/-- A block is its opening bracket, a line break and its parts up to the closing bracket. -/
theorem block_append (level : Nat) (opening closing : Char) {parts : List Text} (h : parts ≠ []) (rest : Text) :
    block level opening closing parts ++ rest = opening :: (newline (level + 1) ++ partsUpTo level closing rest parts) := by
  rw [block, if_neg (by rw [List.isEmpty_iff]; exact h), partsUpTo]
  simp only [List.cons_append, List.append_assoc, List.nil_append]

/-- Parts start as the first of them does. -/
theorem exists_partsUpTo_cons (level : Nat) (closing : Char) (rest : Text) {c : Char} {tail part : Text} (parts : List Text)
    (h : part = c :: tail) : ∃ s, partsUpTo level closing rest (part :: parts) = c :: s := by
  cases parts with
  | nil => exact ⟨_, by rw [partsUpTo_last, h, List.cons_append]⟩
  | cons next parts => exact ⟨_, by rw [partsUpTo_next, h, List.cons_append]⟩

/-- The line break before parts is passed over. -/
theorem skipSpace_newline_partsUpTo (level : Nat) (closing : Char) (rest : Text) {c : Char} {tail part : Text} (parts : List Text)
    (h : part = c :: tail) (hc : isSpace c = false) :
    skipSpace (newline (level + 1) ++ partsUpTo level closing rest (part :: parts)) = partsUpTo level closing rest (part :: parts) := by
  obtain ⟨s, hs⟩ := exists_partsUpTo_cons level closing rest parts h
  rw [hs, skipSpace_newline (level + 1) s hc]

/-- The last item stands before the closing bracket. -/
theorem items?_last {rules : Rules} {fuel : Nat} {s t rest : Text} {v : Value} (hv : value? rules fuel room (skipSpace s) = some (v, t))
    (ht : skipSpace t = ']' :: rest) : items? rules (fuel + 1) room s = some ([v], rest) := by
  rw [items?, hv]
  simp only [Option.bind_eq_bind, Option.bind_some, ht]

/-- Any other item stands before a comma. -/
theorem items?_next {rules : Rules} {fuel : Nat} {s t t' rest : Text} {v : Value} {vs : List Value}
    (hv : value? rules fuel room (skipSpace s) = some (v, t)) (ht : skipSpace t = ',' :: t')
    (hvs : items? rules fuel room t' = some (vs, rest)) : items? rules (fuel + 1) room s = some (v :: vs, rest) := by
  rw [items?, hv]
  simp only [Option.bind_eq_bind, Option.bind_some, ht, hvs, Option.map_some]

/-- Written values on lines of their own are read as the items of a list. -/
theorem items?_written {level fuel : Nat} {s rest : Text} (w : Written room) (ws : List (Written room))
    (hs : skipSpace s = partsUpTo level ']' rest ((w :: ws).map (·.text)))
    (hfuel : (partsUpTo level ']' rest ((w :: ws).map (·.text))).length + 1 < fuel) :
    items? .unbounded fuel room s = some ((w :: ws).map (·.value), rest) := by
  obtain ⟨fuel, rfl⟩ := exists_succ_of_lt hfuel
  induction ws generalizing w fuel s with
  | nil =>
    rw [List.map_singleton, partsUpTo_last] at hs hfuel
    have hread := w.reads fuel _ (Nat.lt_of_succ_lt_succ hfuel) (follows_newline level _)
    rw [← hs] at hread
    exact items?_last hread (skipSpace_newline level rest (by decide))
  | cons next ws ih =>
    rw [List.map_cons, List.map_cons, partsUpTo_next] at hs hfuel
    have hread := w.reads fuel _ (Nat.lt_of_succ_lt_succ hfuel) (follows_comma _)
    rw [← hs] at hread
    obtain ⟨fuel, rfl⟩ := exists_succ_of_lt (Nat.lt_of_succ_lt_succ hfuel)
    obtain ⟨c, tail, htext, hspace, -⟩ := next.starts
    refine items?_next hread (skipSpace_cons _ (by decide)) (ih next ?_ fuel ?_)
    · exact skipSpace_newline_partsUpTo level ']' rest _ htext hspace
    · simp only [List.map_cons, List.length_append, List.length_cons, newline] at hfuel ⊢
      omega

/-- A list with items. -/
theorem value?_items {rules : Rules} {fuel : Nat} {t s rest : Text} {c : Char} {vs : List Value} (ht : skipSpace t = c :: s)
    (hc : c ≠ ']') (hvs : items? rules fuel room (c :: s) = some (vs, rest)) :
    value? rules (fuel + 1) (room + 1) ('[' :: t) = some (.list vs, rest) := by
  rw [value?, ht]
  split
  · rename_i s' hclosed
    exact absurd (List.cons.inj hclosed).1 hc
  · rw [hvs, Option.map_some]

/-- A list of written values, one to a line. -/
def Written.list (level : Nat) (ws : List (Written room)) : Written (room + 1) where
  text := block level '[' ']' (ws.map (·.text))
  value := .list (ws.map (·.value))
  starts := by
    cases ws with
    | nil => exact ⟨'[', _, rfl, by decide, by decide⟩
    | cons w ws => exact ⟨'[', _, rfl, by decide, by decide⟩
  reads fuel rest hfuel hrest := by
    obtain ⟨fuel, rfl⟩ := exists_succ_of_lt hfuel
    cases ws with
    | nil => rfl
    | cons w ws =>
      rw [block_append level _ _ (by simp)] at hfuel ⊢
      obtain ⟨c, tail, htext, hspace, hbracket⟩ := w.starts
      obtain ⟨s, hs⟩ := exists_partsUpTo_cons level ']' rest (ws.map (·.text)) htext
      have hitems : items? .unbounded fuel room (c :: s) = some ((w :: ws).map (·.value), rest) := by
        refine items?_written w ws (by rw [skipSpace_cons s hspace, ← hs, List.map_cons]) ?_
        simp only [List.length_append, List.length_cons, newline] at hfuel ⊢
        omega
      refine value?_items ?_ hbracket hitems
      rw [List.map_cons, skipSpace_newline_partsUpTo level ']' rest _ htext hspace, hs]

/-! ## Tables -/

section Pair

variable {rules : Rules} {fuel : Nat} {done : Pairs} {s s' s'' t rest key : Text} {v : Value}

/-- The last pair stands before the closing brace. -/
theorem pairs?_last (hs : skipSpace s = '"' :: s') (hkey : stringBody s' = some (key, ':' :: s''))
    (hv : value? rules fuel room (skipSpace s'') = some (v, t)) (ht : skipSpace t = '\x7d' :: rest) :
    pairs? rules (fuel + 1) room done s = some (done.set key v, rest) := by
  have hcolon : skipSpace (':' :: s'') = ':' :: s'' := skipSpace_cons s'' (by decide)
  rw [pairs?, hs]
  simp only [hkey, Option.bind_eq_bind, Option.bind_some, hcolon, hv, ht]

/-- Any other pair stands before a comma. -/
theorem pairs?_next (hs : skipSpace s = '"' :: s') (hkey : stringBody s' = some (key, ':' :: s''))
    (hv : value? rules fuel room (skipSpace s'') = some (v, t)) (ht : skipSpace t = ',' :: rest) :
    pairs? rules (fuel + 1) room done s = pairs? rules fuel room (done.set key v) rest := by
  have hcolon : skipSpace (':' :: s'') = ':' :: s'' := skipSpace_cons s'' (by decide)
  rw [pairs?, hs]
  simp only [hkey, Option.bind_eq_bind, Option.bind_some, hcolon, hv, ht]

end Pair

/-- A key and the text of its value on a line. -/
def pairLine (pair : Text × Written room) : Text :=
  writeText pair.1 ++ [':', ' '] ++ pair.2.text

/-- The line of a pair starts with a quote. -/
theorem exists_pairLine (pair : Text × Written room) : ∃ tail, pairLine pair = '"' :: tail :=
  ⟨_, rfl⟩

/-- The key stands up to its closing quote, and the value behind a colon and a blank. -/
theorem pairLine_append (pair : Text × Written room) (rest : Text) :
    pairLine pair ++ rest = '"' :: (pair.1.flatMap escapeChar ++ '"' :: ':' :: ' ' :: (pair.2.text ++ rest)) := by
  simp only [pairLine, writeText, List.cons_append, List.append_assoc, List.nil_append]

/-- The value of a pair is read behind the blank. -/
theorem value?_pair {fuel : Nat} (pair : Text × Written room) {rest : Text} (hfuel : (pairLine pair ++ rest).length < fuel)
    (hrest : Follows rest) :
    value? .unbounded fuel room (skipSpace (' ' :: (pair.2.text ++ rest))) = some (pair.2.value, rest) := by
  have hskip : skipSpace (' ' :: (pair.2.text ++ rest)) = pair.2.text ++ rest := by
    obtain ⟨c, tail, htext, hspace, -⟩ := pair.2.starts
    rw [htext]
    exact skipSpace_cons (tail ++ rest) hspace
  rw [hskip]
  refine pair.2.reads fuel rest ?_ hrest
  rw [pairLine_append] at hfuel
  simp only [List.length_append, List.length_cons] at hfuel ⊢
  omega

/-- The first of further keys is a new one. -/
theorem not_mem_of_nodup_append {keys further : List Text} {key : Text} (h : (keys ++ key :: further).Nodup) : key ∉ keys :=
  fun hmem => (List.nodup_append.1 h).2.2 key hmem key List.mem_cons_self rfl

/-- Pairs on lines of their own, with keys that are not there yet, are read in their order. -/
theorem pairs?_written {level fuel : Nat} {done : Pairs} {s rest : Text} (pair : Text × Written room) (pairs : List (Text × Written room))
    (hkeys : (done.map Prod.fst ++ (pair :: pairs).map Prod.fst).Nodup)
    (hs : skipSpace s = partsUpTo level '\x7d' rest ((pair :: pairs).map pairLine))
    (hfuel : (partsUpTo level '\x7d' rest ((pair :: pairs).map pairLine)).length + 1 < fuel) :
    pairs? .unbounded fuel room done s = some (done ++ (pair :: pairs).map fun pair => (pair.1, pair.2.value), rest) := by
  obtain ⟨fuel, rfl⟩ := exists_succ_of_lt hfuel
  induction pairs generalizing pair done fuel s with
  | nil =>
    rw [List.map_singleton, partsUpTo_last] at hs hfuel
    have hvalue := value?_pair pair (Nat.lt_of_succ_lt_succ hfuel) (follows_newline level _)
    have hnew : pair.1 ∉ done.map Prod.fst := not_mem_of_nodup_append hkeys
    rw [pairLine_append] at hs
    rw [pairs?_last hs (stringBody_flatMap_escapeChar _ _) hvalue (skipSpace_newline level rest (by decide)),
      Pairs.set, Assoc.set_of_not_mem hnew, List.map_singleton]
  | cons next pairs ih =>
    rw [List.map_cons, List.map_cons, partsUpTo_next] at hs hfuel
    have hvalue := value?_pair pair (Nat.lt_of_succ_lt_succ hfuel) (follows_comma _)
    have hnew : pair.1 ∉ done.map Prod.fst := not_mem_of_nodup_append hkeys
    have hkeys' : ((done ++ [(pair.1, pair.2.value)]).map Prod.fst ++ (next :: pairs).map Prod.fst).Nodup := by
      rw [List.map_append, List.map_singleton, List.append_assoc, List.singleton_append]
      exact hkeys
    rw [pairLine_append] at hs
    obtain ⟨fuel, rfl⟩ := exists_succ_of_lt (Nat.lt_of_succ_lt_succ hfuel)
    obtain ⟨tail, htext⟩ := exists_pairLine next
    rw [pairs?_next hs (stringBody_flatMap_escapeChar _ _) hvalue (skipSpace_cons _ (by decide)), Pairs.set, Assoc.set_of_not_mem hnew,
      ih next hkeys' (skipSpace_newline_partsUpTo level '\x7d' rest _ htext (by decide)) fuel ?_]
    · rw [List.append_assoc, List.singleton_append, List.map_cons, List.map_cons, List.map_cons]
    · simp only [List.map_cons, List.length_append, List.length_cons, newline] at hfuel ⊢
      omega

/-- A table with pairs. -/
theorem value?_pairs {rules : Rules} {fuel : Nat} {t s rest : Text} {c : Char} {pairs : Pairs} (ht : skipSpace t = c :: s)
    (hc : c ≠ '\x7d') (hpairs : pairs? rules fuel room [] (c :: s) = some (pairs, rest)) :
    value? rules (fuel + 1) (room + 1) ('\x7b' :: t) = some (.table pairs, rest) := by
  rw [value?, ht]
  split
  · rename_i s' hclosed
    exact absurd (List.cons.inj hclosed).1 hc
  · rw [hpairs, Option.map_some]

/-- A table of written values under distinct keys, one pair to a line. -/
def Written.table (level : Nat) (pairs : List (Text × Written room)) (hkeys : (pairs.map Prod.fst).Nodup) : Written (room + 1) where
  text := block level '\x7b' '\x7d' (pairs.map pairLine)
  value := .table (pairs.map fun pair => (pair.1, pair.2.value))
  starts := by
    cases pairs with
    | nil => exact ⟨'\x7b', _, rfl, by decide, by decide⟩
    | cons pair pairs => exact ⟨'\x7b', _, rfl, by decide, by decide⟩
  reads fuel rest hfuel hrest := by
    obtain ⟨fuel, rfl⟩ := exists_succ_of_lt hfuel
    cases pairs with
    | nil => rfl
    | cons pair pairs =>
      rw [block_append level _ _ (by simp)] at hfuel ⊢
      obtain ⟨tail, htext⟩ := exists_pairLine pair
      obtain ⟨s, hs⟩ := exists_partsUpTo_cons level '\x7d' rest (pairs.map pairLine) htext
      have hpairs : pairs? .unbounded fuel room [] ('"' :: s) = some ((pair :: pairs).map fun pair => (pair.1, pair.2.value), rest) := by
        refine pairs?_written pair pairs hkeys (by rw [skipSpace_cons s (by decide), ← hs, List.map_cons]) ?_
        simp only [List.length_append, List.length_cons, newline] at hfuel ⊢
        omega
      refine value?_pairs ?_ (by decide) hpairs
      rw [List.map_cons, skipSpace_newline_partsUpTo level '\x7d' rest _ htext (by decide), hs]

/-! ## Documents -/

/-- A value of texts, truth values and 64-bit integers, with distinct keys in its tables, that has at most `room` lists and tables
inside each other. -/
inductive Fits : Nat → Value → Prop where
  | null (room : Nat) : Fits room .null
  | bool (room : Nat) (b : Bool) : Fits room (.bool b)
  | int (room : Nat) {n : Int} (hlow : -Number.signedBound ≤ n) (hhigh : n < Number.unsignedBound) : Fits room (.int n)
  | text (room : Nat) (s : Text) : Fits room (.text s)
  | list {room : Nat} {items : List Value} (hitems : ∀ v ∈ items, Fits room v) : Fits (room + 1) (.list items)
  | table {room : Nat} {pairs : Pairs} (hkeys : (pairs.map Prod.fst).Nodup) (hpairs : ∀ pair ∈ pairs, Fits room pair.2) :
      Fits (room + 1) (.table pairs)

/-- Items that can be written one level down are written as the items of a list. -/
theorem exists_writeItems {level : Nat} {items : List Value}
    (h : ∀ v ∈ items, ∃ w : Written room, write (level + 1) v = .ok w.text ∧ w.value = v.sorted) :
    ∃ ws : List (Written room), writeItems level items = .ok (ws.map (·.text)) ∧ ws.map (·.value) = items.map Value.sorted := by
  induction items with
  | nil => exact ⟨[], rfl, rfl⟩
  | cons v vs ih =>
    obtain ⟨w, hwrite, hvalue⟩ := h v List.mem_cons_self
    obtain ⟨ws, hwrites, hvalues⟩ := ih fun v' hv' => h v' (List.mem_cons_of_mem v hv')
    refine ⟨w :: ws, ?_, ?_⟩
    · rw [writeItems, hwrite, hwrites]
      rfl
    · rw [List.map_cons, List.map_cons, hvalue, hvalues]

/-- Pairs whose values can be written one level down are written as lines, each with its key. -/
theorem exists_writePairs {level : Nat} {pairs : Pairs}
    (h : ∀ pair ∈ pairs, ∃ w : Written room, write (level + 1) pair.2 = .ok w.text ∧ w.value = pair.2.sorted) :
    ∃ ws : List (Text × Written room), writePairs level pairs = .ok (ws.map fun pair => (pair.1, pairLine pair)) ∧
      ws.map (fun pair => (pair.1, pair.2.value)) = pairs.map fun pair => (pair.1, pair.2.sorted) := by
  induction pairs with
  | nil => exact ⟨[], rfl, rfl⟩
  | cons pair pairs ih =>
    obtain ⟨key, v⟩ := pair
    obtain ⟨w, hwrite, hvalue⟩ := h (key, v) List.mem_cons_self
    obtain ⟨ws, hwrites, hvalues⟩ := ih fun pair hpair => h pair (List.mem_cons_of_mem _ hpair)
    refine ⟨(key, w) :: ws, ?_, ?_⟩
    · rw [writePairs, hwrite, hwrites]
      rfl
    · rw [List.map_cons, List.map_cons, hvalue, hvalues]

/-- What is made of pairs under their keys is put in order as the pairs are. -/
theorem mergeSort_map_keyed {α β : Type} (f : Text × α → β) (pairs : List (Text × α)) :
    (pairs.map fun pair => (pair.1, f pair)).mergeSort (fun a b => Text.le a.1 b.1) =
      (pairs.mergeSort fun a b => Text.le a.1 b.1).map fun pair => (pair.1, f pair) := by
  symm
  exact List.map_mergeSort fun _ _ _ _ => rfl

/-- A value that fits is written, at any level, as a text that is read as the value in order. -/
theorem Fits.exists_write {v : Value} (h : Fits room v) (level : Nat) :
    ∃ w : Written room, write level v = .ok w.text ∧ w.value = v.sorted := by
  induction h generalizing level with
  | null room => exact ⟨.null room, rfl, rfl⟩
  | bool room b => exact ⟨.bool room b, rfl, rfl⟩
  | int room hlow hhigh => exact ⟨.int room _, by rw [write, if_pos (by simp [hlow, hhigh])]; rfl, rfl⟩
  | text room s => exact ⟨.ofText room s, rfl, rfl⟩
  | list hitems ih =>
    obtain ⟨ws, hwrites, hvalues⟩ := exists_writeItems fun v hv => ih v hv (level + 1)
    refine ⟨.list level ws, ?_, ?_⟩
    · rw [write, hwrites]
      rfl
    · rw [Value.sorted, Value.sortedItems_eq, ← hvalues]
      rfl
  | @table room pairs hkeys hpairs ih =>
    obtain ⟨ws, hwrites, hvalues⟩ := exists_writePairs fun pair hpair => ih pair hpair (level + 1)
    have hsame : ws.map Prod.fst = pairs.map Prod.fst := by
      have hfirsts := congrArg (List.map Prod.fst) hvalues
      rw [List.map_map, List.map_map] at hfirsts
      exact hfirsts
    have hsortedKeys : ((ws.mergeSort fun a b => Text.le a.1 b.1).map Prod.fst).Nodup := by
      rw [((List.mergeSort_perm ws _).map _).nodup_iff, hsame]
      exact hkeys
    -- the lines are put in order by their keys alone, so the pairs are read in the order in which their values would be put
    refine ⟨.table level (ws.mergeSort fun a b => Text.le a.1 b.1) hsortedKeys, ?_, ?_⟩
    · rw [write, hwrites]
      refine congrArg Except.ok (congrArg (block level _ _) ?_)
      rw [mergeSort_map_keyed, List.map_map]
      rfl
    · rw [Value.sorted, Value.sortedPairs_eq, ← hvalues, mergeSort_map_keyed]
      rfl

/-- Two steps that can only fail with one fault fail with it if one of them does. -/
theorem both_error_iff {α β γ : Type} {x : Except Fault α} {y : Except Fault β} {f : α → β → γ} {p q : Bool} {only fault : Fault}
    (hx : ∀ fault, x = .error fault ↔ p = true ∧ fault = only) (hy : ∀ fault, y = .error fault ↔ q = true ∧ fault = only) :
    (do let a ← x; let b ← y; .ok (f a b)) = .error fault ↔ (p || q) = true ∧ fault = only := by
  cases x with
  | error e =>
    obtain ⟨hp, rfl⟩ := (hx e).1 rfl
    rw [hp]
    simp [bind, Except.bind, eq_comm]
  | ok a =>
    have hp : p = false := by
      rw [← Bool.not_eq_true]
      intro hp
      cases (hx only).2 ⟨hp, rfl⟩
    rw [hp, Bool.false_or, ← hy fault]
    cases y <;> simp [bind, Except.bind]

mutual

/-- Writing fails only over an integer that takes more than 64 bits. -/
theorem write_error_iff (level : Nat) (v : Value) (fault : Fault) :
    write level v = .error fault ↔ v.isWide = true ∧ fault = .integerTooWide := by
  cases v with
  | null => simp [write, Value.isWide]
  | bool b => simp [write, Value.isWide]
  | int n =>
    rw [write, Value.isWide]
    split
    · rename_i hword
      simp [hword]
    · rename_i hwide
      rw [Bool.not_eq_true] at hwide
      rw [hwide]
      simp [eq_comm]
  | float x => simp [write, Value.isWide]
  | text s => simp [write, Value.isWide]
  | moment m => simp [write, Value.isWide]
  | list items =>
    rw [write, bind_eq_error_iff, writeItems_error_iff level items fault, Value.isWide]
    simp
  | table pairs =>
    rw [write, bind_eq_error_iff, writePairs_error_iff level pairs fault, Value.isWide]
    simp

theorem writeItems_error_iff (level : Nat) (items : List Value) (fault : Fault) :
    writeItems level items = .error fault ↔ Value.anyWide items = true ∧ fault = .integerTooWide := by
  cases items with
  | nil => simp [writeItems, Value.anyWide]
  | cons v vs =>
    rw [writeItems, Value.anyWide]
    exact both_error_iff (write_error_iff (level + 1) v) (writeItems_error_iff level vs)

theorem writePairs_error_iff (level : Nat) (pairs : List (Text × Value)) (fault : Fault) :
    writePairs level pairs = .error fault ↔ Value.anyPairWide pairs = true ∧ fault = .integerTooWide := by
  cases pairs with
  | nil => simp [writePairs, Value.anyPairWide]
  | cons pair pairs =>
    obtain ⟨key, v⟩ := pair
    rw [writePairs, Value.anyPairWide]
    exact both_error_iff (write_error_iff (level + 1) v) (writePairs_error_iff level pairs)

end

/-- A document that fits is read as the value it was written from, with its tables in order. -/
theorem parse?_write {v : Value} (h : Fits Rules.unbounded.depthLimit v) :
    ∃ text, write 0 v = .ok text ∧ parse? .unbounded (text ++ ['\n']) = some v.sorted := by
  obtain ⟨w, hwrite, hvalue⟩ := h.exists_write 0
  refine ⟨w.text, hwrite, ?_⟩
  obtain ⟨c, tail, htext, hspace, -⟩ := w.starts
  have hstart : skipSpace (w.text ++ ['\n']) = w.text ++ ['\n'] := by
    rw [htext]
    exact skipSpace_cons (tail ++ ['\n']) hspace
  rw [parse?, hstart, w.reads _ ['\n'] (Nat.lt_succ_self _) (follows_newline 0 []), hvalue]
  rfl

end SymbolSearch.Json
