import Mathlib.Data.List.Lex
import SymbolSearch.Proofs.Path.Writing

/-!
# The order of paths

Paths are ordered part by part and parts character by character, which is not the order of the written paths: what lies under `a`
comes before `a.c`. The order is strict and total on parts (`le_iff`), so sorted paths without repetition come in one order
only (`exists_mergeSort_children`), and a directory and all that lies under it comes before its next sibling
(`precedes_extend`).
-/

namespace SymbolSearch

/-- A character comes before another one. -/
def Text.charBefore (c d : Char) : Prop :=
  c.toNat < d.toNat

/-- A text comes before another one in the order of a dictionary. -/
def Text.Before : Text → Text → Prop :=
  List.Lex Text.charBefore

/-- A path comes before another one: at the first part in which they differ its part comes before, or it has no part there. -/
def Path.Precedes (p q : Path) : Prop :=
  List.Lex Text.Before p.parts q.parts

/-! ## Dictionaries -/

namespace Text

/-- The order of a dictionary, where `before` decides between different items as a relation does. -/
theorem dictionaryLe_iff {α : Type} [DecidableEq α] {before : α → α → Bool} {r : α → α → Prop}
    (h : ∀ a b, a ≠ b → (before a b = true ↔ r a b)) (hr : ∀ a, ¬r a a) (l l' : List α) :
    dictionaryLe before l l' = true ↔ l = l' ∨ List.Lex r l l' := by
  induction l generalizing l' with
  | nil => cases l' <;> simp [dictionaryLe]
  | cons a as ih =>
    cases l' with
    | nil => simp [dictionaryLe]
    | cons b bs =>
      rw [dictionaryLe]
      by_cases hab : a = b
      · subst hab
        have hlex : List.Lex r (a :: as) (a :: bs) ↔ List.Lex r as bs := by
          constructor
          · intro hl
            cases hl with
            | rel hrel => exact absurd hrel (hr a)
            | cons hl => exact hl
          · exact List.Lex.cons
        rw [if_pos rfl, ih, hlex, List.cons.injEq, and_iff_right rfl]
      · rw [if_neg hab, h a b hab]
        constructor
        · exact fun hrel => Or.inr (.rel hrel)
        · rintro (heq | hl)
          · cases heq
            exact absurd rfl hab
          · cases hl with
            | rel hrel => exact hrel
            | cons hl => exact absurd rfl hab

instance : Std.Asymm charBefore where
  asymm _ _ h := Nat.not_lt.2 (Nat.le_of_lt h)

instance : Std.Trichotomous charBefore where
  trichotomous c d h h' := by
    have hval : c.toNat = d.toNat := by
      unfold charBefore at h h'
      omega
    exact Char.toNat_inj.1 hval

instance : IsOrderConnected Char charBefore where
  conn c d e h := by
    unfold charBefore at h ⊢
    omega

instance : Std.Asymm Before := List.Lex.asymm charBefore

instance : Std.Trichotomous Before := List.Lex.trichotomous charBefore

instance : IsOrderConnected Text Before := List.Lex.isOrderConnected charBefore

/-- One text is at most another one if it is that one or comes before it. -/
theorem le_iff (s t : Text) : Text.le s t = true ↔ s = t ∨ Before s t :=
  dictionaryLe_iff (fun c d _ => by simp [charBefore]) (fun c => Nat.lt_irrefl c.toNat) s t

end Text

/-! ## Paths -/

namespace Path

variable {p q r : Path}

/-- Of two paths at most one comes before the other. -/
theorem Precedes.asymm (h : p.Precedes q) : ¬q.Precedes p :=
  asymm_of (List.Lex Text.Before) h

/-- A path that comes before another one is a different one. -/
theorem Precedes.ne (h : p.Precedes q) : p ≠ q := by
  rintro rfl
  exact h.asymm h

/-- What comes before a path comes before all that the path comes before. -/
theorem Precedes.trans (h : p.Precedes q) (h' : q.Precedes r) : p.Precedes r :=
  (IsOrderConnected.conn p.parts r.parts q.parts h).resolve_right (Precedes.asymm h')

/-- One path is at most another one if it has the same parts or comes before it. -/
theorem le_iff (p q : Path) : Path.le p q = true ↔ p.parts = q.parts ∨ p.Precedes q :=
  Text.dictionaryLe_iff (fun s t hne => by rw [Text.le_iff, or_iff_right hne]) (fun s h => asymm h h) p.parts q.parts

/-- The order of paths is transitive. -/
theorem le_trans (h : Path.le p q = true) (h' : Path.le q r = true) : Path.le p r = true := by
  rw [le_iff] at h h' ⊢
  rcases h with h | h
  · unfold Precedes at h' ⊢
    rwa [h]
  · rcases h' with h' | h'
    · unfold Precedes at h ⊢
      rw [← h']
      exact Or.inr h
    · exact Or.inr (h.trans h')

/-- Of two paths, one is at most the other. -/
theorem le_total (p q : Path) : (Path.le p q || Path.le q p) = true := by
  rw [Bool.or_eq_true, le_iff, le_iff]
  rcases trichotomous_of (List.Lex Text.Before) p.parts q.parts with h | h | h
  · exact Or.inl (Or.inr h)
  · exact Or.inl (Or.inl h)
  · exact Or.inr (Or.inr h)

/-- The parts of a path under an absolute one are its parts and the names behind it. -/
theorem parts_extend (ha : p.isAbsolute = true) (names : List Text) : (p.extend names).parts = p.parts ++ names := by
  have habsolute : (p.extend names).isAbsolute = true := ha
  rw [parts, parts, if_pos ha, if_pos habsolute]
  rfl

/-- Of two paths directly below a third one, the one with the name in front comes first, and so does all that lies under it. -/
theorem precedes_extend (ha : p.isAbsolute = true) {name other : Text} (h : Text.Before name other) (front back : List Text) :
    (p.extend (name :: front)).Precedes (p.extend (other :: back)) := by
  rw [Precedes, parts_extend ha, parts_extend ha]
  exact List.Lex.append_left _ (.rel h) _

/-- Names that differ bring the paths directly below a third one into the order of the names. -/
theorem before_of_child_le (ha : p.isAbsolute = true) {name other : Text} (hne : name ≠ other)
    (h : Path.le (p.child name) (p.child other) = true) : Text.Before name other := by
  rcases trichotomous_of Text.Before name other with hbefore | heq | hbefore
  · exact hbefore
  · exact absurd heq hne
  · -- the other order would put the second path in front of the first
    have hprecedes : (p.child other).Precedes (p.child name) := precedes_extend ha hbefore [] []
    rcases (le_iff _ _).1 h with hparts | h
    · unfold Precedes at hprecedes
      rw [hparts] at hprecedes
      exact absurd hprecedes (asymm_of (List.Lex Text.Before) hprecedes)
    · exact absurd hprecedes h.asymm

/-- The last name of a path directly below another one. -/
theorem name_child (p : Path) (name : Text) : (p.child name).name = name := by
  simp [Path.name, child]

/-- Sorting the paths directly below an absolute one, for different names, brings them into the order of the names. -/
theorem exists_mergeSort_children (ha : p.isAbsolute = true) {names : List Text} (hn : names.Nodup) :
    ∃ sorted : List Text, (names.map p.child).mergeSort Path.le = sorted.map p.child ∧ sorted.Perm names ∧
      sorted.Pairwise Text.Before := by
  have hperm := List.mergeSort_perm (names.map p.child) Path.le
  have hsorted : ((names.map p.child).mergeSort Path.le).Pairwise (fun path other => Path.le path other = true) :=
    @List.pairwise_mergeSort _ Path.le (fun _ _ _ => le_trans) le_total _
  generalize (names.map p.child).mergeSort Path.le = paths at hperm hsorted
  have hchild : ∀ path ∈ paths, p.child path.name = path := by
    intro path hpath
    obtain ⟨name, -, rfl⟩ := List.mem_map.1 (hperm.mem_iff.1 hpath)
    rw [name_child]
  have hnames : (paths.map Path.name).Perm names := by
    have hback : (names.map p.child).map Path.name = names := by
      simp only [List.map_map, Function.comp_def, name_child, List.map_id']
    have hmapped := hperm.map Path.name
    rwa [hback] at hmapped
  have hnodup : (paths.map Path.name).Nodup := hnames.nodup_iff.2 hn
  refine ⟨paths.map Path.name, ?_, hnames, ?_⟩
  · calc paths = paths.map (fun path => path) := (List.map_id' paths).symm
      _ = paths.map (fun path => p.child path.name) := List.map_congr_left fun path hpath => (hchild path hpath).symm
      _ = (paths.map Path.name).map p.child := by rw [List.map_map]; rfl
  · rw [List.pairwise_map]
    refine (hsorted.and (List.pairwise_map.1 hnodup)).imp_of_mem ?_
    rintro path other hpath hother ⟨hle, hne⟩
    rw [← hchild path hpath, ← hchild other hother] at hle
    exact before_of_child_le ha hne hle

end Path

end SymbolSearch
