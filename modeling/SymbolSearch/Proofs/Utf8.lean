import Mathlib
import SymbolSearch.Text.Utf8

/-!
# UTF-8: octets and texts

The octets of a text are those of its characters, as the standard library writes them. Reading is the inverse of writing: octets are
the octets of a text exactly if the strict reading gives that text (`decode?_eq_some_iff`), and the lenient reading of the octets of
a text gives the text too (`decodeLenient_encode`). Both come from one fact about a single character in front of anything
(`piecesFrom_encodeChar`) and its converse (`exists_encodeChar`).
-/

namespace SymbolSearch.Utf8

/-- The octets of a text. -/
def encode (text : Text) : Bytes :=
  text.flatMap String.utf8EncodeChar

/-! ## One octet -/

/-- What an octet begins, told by its number. -/
theorem begin_eq (b : UInt8) : begin b =
    if b.toNat < 0x80 then ([some (Char.ofNat b.toNat)], none)
    else if b.toNat < 0xC2 then ([none], none)
    else if b.toNat < 0xE0 then ([], some ⟨1, 0x80, 0xBF, b.toNat - 0xC0⟩)
    else if b.toNat < 0xF0 then
      ([], some ⟨2, if b.toNat = 0xE0 then 0xA0 else 0x80, if b.toNat = 0xED then 0x9F else 0xBF, b.toNat - 0xE0⟩)
    else if b.toNat < 0xF5 then
      ([], some ⟨3, if b.toNat = 0xF0 then 0x90 else 0x80, if b.toNat = 0xF4 then 0x8F else 0xBF, b.toNat - 0xF0⟩)
    else ([none], none) := by
  simp only [begin, UInt8.lt_iff_toNat_lt, ← UInt8.toNat_inj, UInt8.reduceToNat]

variable {low high b : UInt8} {owed bits : Nat} {bytes rest : Bytes}

/-- The last octet that a pending character owes, between its bounds, finishes it. -/
theorem piecesFrom_last (hlow : low.toNat ≤ b.toNat) (hhigh : b.toNat ≤ high.toNat) (bits : Nat) (rest : Bytes) :
    piecesFrom (some ⟨1, low, high, bits⟩) (b :: rest) =
      some (Char.ofNat (bits * 64 + (b.toNat - 0x80))) :: piecesFrom none rest := by
  have htaken : (low ≤ b && b ≤ high) = true := by simp [UInt8.le_iff_toNat_le, hlow, hhigh]
  simp only [piecesFrom, step, htaken, if_true, Nat.le_refl]
  rfl

/-- An octet between the bounds of a pending character that owes more than one is taken up by it. -/
theorem piecesFrom_more (hlow : low.toNat ≤ b.toNat) (hhigh : b.toNat ≤ high.toNat) (owed bits : Nat) (rest : Bytes) :
    piecesFrom (some ⟨owed + 2, low, high, bits⟩) (b :: rest) =
      piecesFrom (some ⟨owed + 1, 0x80, 0xBF, bits * 64 + (b.toNat - 0x80)⟩) rest := by
  have htaken : (low ≤ b && b ≤ high) = true := by simp [UInt8.le_iff_toNat_le, hlow, hhigh]
  have howed : ¬owed + 2 ≤ 1 := by omega
  simp only [piecesFrom, step, htaken, if_true, howed, if_false]
  rfl

/-- Behind a pending character, well-formed octets start with one between its bounds. -/
theorem exists_octet (h : none ∉ piecesFrom (some ⟨owed, low, high, bits⟩) bytes) :
    ∃ b rest, bytes = b :: rest ∧ low.toNat ≤ b.toNat ∧ b.toNat ≤ high.toNat := by
  cases bytes with
  | nil => simp [piecesFrom] at h
  | cons b rest =>
    refine ⟨b, rest, rfl, ?_⟩
    by_contra hout
    have hrefused : ¬(low ≤ b && b ≤ high) = true := by simpa [UInt8.le_iff_toNat_le] using hout
    simp [piecesFrom, step, hrefused] at h

/-! ## One character -/

/-- A character in front of anything is read as itself. -/
theorem piecesFrom_encodeChar (c : Char) (rest : Bytes) :
    piecesFrom none (String.utf8EncodeChar c ++ rest) = some c :: piecesFrom none rest := by
  have hc : Char.ofNat c.val.toNat = c := Char.ofNat_toNat c
  have hvalid : c.val.toNat < 0xD800 ∨ 0xDFFF < c.val.toNat ∧ c.val.toNat < 0x110000 := c.valid
  unfold String.utf8EncodeChar
  generalize c.val.toNat = v at hc hvalid
  have h4 : (UInt8.ofNat (v % 64 + 128)).toNat = v % 64 + 128 := by rw [UInt8.toNat_ofNat']; omega
  have h3 : (UInt8.ofNat (v / 64 % 64 + 128)).toNat = v / 64 % 64 + 128 := by rw [UInt8.toNat_ofNat']; omega
  have h2 : (UInt8.ofNat (v / 4096 % 64 + 128)).toNat = v / 4096 % 64 + 128 := by rw [UInt8.toNat_ofNat']; omega
  dsimp only
  split
  · have h1 : (UInt8.ofNat v).toNat = v := by rw [UInt8.toNat_ofNat']; omega
    rw [List.singleton_append, piecesFrom, step, begin_eq, h1, if_pos (by omega), hc]
    rfl
  split
  · have h1 : (UInt8.ofNat (v / 64 % 32 + 192)).toNat = v / 64 + 192 := by rw [UInt8.toNat_ofNat']; omega
    rw [List.cons_append, List.singleton_append, piecesFrom, step, begin_eq, h1, if_neg (by omega), if_neg (by omega),
      if_pos (by omega), List.nil_append, piecesFrom_last (by simp; omega) (by simp; omega), h4,
      show (v / 64 + 192 - 0xC0) * 64 + (v % 64 + 128 - 0x80) = v by omega, hc]
  -- the bounds of the second octet leave out what fewer octets can write, surrogates, and what lies beyond all characters
  split
  · have h1 : (UInt8.ofNat (v / 4096 % 16 + 224)).toNat = v / 4096 + 224 := by rw [UInt8.toNat_ofNat']; omega
    have hlow : (if v / 4096 + 224 = 0xE0 then 0xA0 else 0x80 : UInt8).toNat ≤ v / 64 % 64 + 128 := by
      split <;> simp
      omega
    have hhigh : v / 64 % 64 + 128 ≤ (if v / 4096 + 224 = 0xED then 0x9F else 0xBF : UInt8).toNat := by
      split <;> simp <;> omega
    rw [List.cons_append, List.cons_append, List.singleton_append, piecesFrom, step, begin_eq, h1, if_neg (by omega),
      if_neg (by omega), if_neg (by omega), if_pos (by omega), List.nil_append,
      piecesFrom_more (hlow.trans_eq h3.symm) (h3.trans_le hhigh), piecesFrom_last (by simp; omega) (by simp; omega), h3, h4,
      show ((v / 4096 + 224 - 0xE0) * 64 + (v / 64 % 64 + 128 - 0x80)) * 64 + (v % 64 + 128 - 0x80) = v by omega, hc]
  · have h1 : (UInt8.ofNat (v / 262144 % 8 + 240)).toNat = v / 262144 + 240 := by rw [UInt8.toNat_ofNat']; omega
    have hlow : (if v / 262144 + 240 = 0xF0 then 0x90 else 0x80 : UInt8).toNat ≤ v / 4096 % 64 + 128 := by
      split <;> simp
      omega
    have hhigh : v / 4096 % 64 + 128 ≤ (if v / 262144 + 240 = 0xF4 then 0x8F else 0xBF : UInt8).toNat := by
      split <;> simp <;> omega
    rw [List.cons_append, List.cons_append, List.cons_append, List.singleton_append, piecesFrom, step, begin_eq, h1,
      if_neg (by omega), if_neg (by omega), if_neg (by omega), if_neg (by omega), if_pos (by omega), List.nil_append,
      piecesFrom_more (hlow.trans_eq h2.symm) (h2.trans_le hhigh), piecesFrom_more (by simp; omega) (by simp; omega),
      piecesFrom_last (by simp; omega) (by simp; omega), h2, h3, h4,
      show (((v / 262144 + 240 - 0xF0) * 64 + (v / 4096 % 64 + 128 - 0x80)) * 64 + (v / 64 % 64 + 128 - 0x80)) * 64 +
        (v % 64 + 128 - 0x80) = v by omega, hc]

/-- The octets of the character with a number. -/
theorem encodeChar_ofNat {n : Nat} (h : n < 0xD800 ∨ 0xDFFF < n ∧ n < 0x110000) :
    String.utf8EncodeChar (Char.ofNat n) =
      if n ≤ 0x7F then [UInt8.ofNat n]
      else if n ≤ 0x7FF then [UInt8.ofNat (n / 64 % 32 + 192), UInt8.ofNat (n % 64 + 128)]
      else if n ≤ 0xFFFF then
        [UInt8.ofNat (n / 4096 % 16 + 224), UInt8.ofNat (n / 64 % 64 + 128), UInt8.ofNat (n % 64 + 128)]
      else
        [UInt8.ofNat (n / 262144 % 8 + 240), UInt8.ofNat (n / 4096 % 64 + 128), UInt8.ofNat (n / 64 % 64 + 128),
          UInt8.ofNat (n % 64 + 128)] := by
  have hn : (Char.ofNat n).val.toNat = n := by
    rw [Char.toNat_val, Char.toNat_ofNat, if_pos h]
  simp only [String.utf8EncodeChar, hn]

variable {b₀ b₁ b₂ b₃ : UInt8}

/-- Two octets that fit together are those of a character. -/
theorem exists_two (h₀ : 0xC2 ≤ b₀.toNat ∧ b₀.toNat < 0xE0) (h₁ : 0x80 ≤ b₁.toNat ∧ b₁.toNat ≤ 0xBF) :
    ∃ c, String.utf8EncodeChar c = [b₀, b₁] := by
  obtain ⟨n, hn⟩ : ∃ n, n = (b₀.toNat - 0xC0) * 64 + (b₁.toNat - 0x80) := ⟨_, rfl⟩
  refine ⟨Char.ofNat n, ?_⟩
  rw [encodeChar_ofNat (by omega), if_neg (by omega), if_pos (by omega), show n / 64 % 32 + 192 = b₀.toNat by omega,
    show n % 64 + 128 = b₁.toNat by omega, UInt8.ofNat_toNat, UInt8.ofNat_toNat]

/-- Three octets that fit together are those of a character. -/
theorem exists_three (h₀ : 0xE0 ≤ b₀.toNat ∧ b₀.toNat < 0xF0)
    (h₁ : 0x80 ≤ b₁.toNat ∧ b₁.toNat ≤ 0xBF) (hlow : b₀.toNat = 0xE0 → 0xA0 ≤ b₁.toNat)
    (hhigh : b₀.toNat = 0xED → b₁.toNat ≤ 0x9F) (h₂ : 0x80 ≤ b₂.toNat ∧ b₂.toNat ≤ 0xBF) :
    ∃ c, String.utf8EncodeChar c = [b₀, b₁, b₂] := by
  obtain ⟨n, hn⟩ : ∃ n, n = ((b₀.toNat - 0xE0) * 64 + (b₁.toNat - 0x80)) * 64 + (b₂.toNat - 0x80) := ⟨_, rfl⟩
  refine ⟨Char.ofNat n, ?_⟩
  rw [encodeChar_ofNat (by omega), if_neg (by omega), if_neg (by omega), if_pos (by omega),
    show n / 4096 % 16 + 224 = b₀.toNat by omega, show n / 64 % 64 + 128 = b₁.toNat by omega,
    show n % 64 + 128 = b₂.toNat by omega, UInt8.ofNat_toNat, UInt8.ofNat_toNat, UInt8.ofNat_toNat]

/-- Four octets that fit together are those of a character. -/
theorem exists_four (h₀ : 0xF0 ≤ b₀.toNat ∧ b₀.toNat < 0xF5)
    (h₁ : 0x80 ≤ b₁.toNat ∧ b₁.toNat ≤ 0xBF) (hlow : b₀.toNat = 0xF0 → 0x90 ≤ b₁.toNat)
    (hhigh : b₀.toNat = 0xF4 → b₁.toNat ≤ 0x8F) (h₂ : 0x80 ≤ b₂.toNat ∧ b₂.toNat ≤ 0xBF) (h₃ : 0x80 ≤ b₃.toNat ∧ b₃.toNat ≤ 0xBF) :
    ∃ c, String.utf8EncodeChar c = [b₀, b₁, b₂, b₃] := by
  obtain ⟨n, hn⟩ : ∃ n, n = (((b₀.toNat - 0xF0) * 64 + (b₁.toNat - 0x80)) * 64 + (b₂.toNat - 0x80)) * 64 +
    (b₃.toNat - 0x80) := ⟨_, rfl⟩
  refine ⟨Char.ofNat n, ?_⟩
  rw [encodeChar_ofNat (by omega), if_neg (by omega), if_neg (by omega), if_neg (by omega),
    show n / 262144 % 8 + 240 = b₀.toNat by omega, show n / 4096 % 64 + 128 = b₁.toNat by omega,
    show n / 64 % 64 + 128 = b₂.toNat by omega, show n % 64 + 128 = b₃.toNat by omega, UInt8.ofNat_toNat, UInt8.ofNat_toNat,
    UInt8.ofNat_toNat, UInt8.ofNat_toNat]

/-- Bounds that are narrower in one case each lie within the wider ones. -/
theorem bounds_of_ite {n k l : Nat} {low low' high high' : UInt8} (hl : (if n = k then low' else low).toNat ≤ b.toNat)
    (hh : b.toNat ≤ (if n = l then high' else high).toNat) (hlow : low.toNat ≤ low'.toNat) (hhigh : high'.toNat ≤ high.toNat) :
    (low.toNat ≤ b.toNat ∧ (n = k → low'.toNat ≤ b.toNat)) ∧ b.toNat ≤ high.toNat ∧ (n = l → b.toNat ≤ high'.toNat) := by
  split at hl <;> split at hh <;> omega

/-- Well-formed octets start with those of a character. -/
theorem exists_encodeChar (h : none ∉ piecesFrom none (b₀ :: rest)) :
    ∃ c after, b₀ :: rest = String.utf8EncodeChar c ++ after := by
  rw [piecesFrom, step, begin_eq] at h
  by_cases h1 : b₀.toNat < 0x80
  · refine ⟨Char.ofNat b₀.toNat, rest, ?_⟩
    rw [encodeChar_ofNat (by omega), if_pos (by omega), UInt8.ofNat_toNat, List.singleton_append]
  by_cases hstray : b₀.toNat < 0xC2
  · simp [h1, hstray] at h
  by_cases h2 : b₀.toNat < 0xE0
  · rw [if_neg h1, if_neg hstray, if_pos h2, List.nil_append] at h
    obtain ⟨b₁, rest, rfl, hb₁⟩ := exists_octet h
    obtain ⟨c, hc⟩ := exists_two ⟨by omega, h2⟩ hb₁
    exact ⟨c, rest, by rw [hc]; rfl⟩
  by_cases h3 : b₀.toNat < 0xF0
  · rw [if_neg h1, if_neg hstray, if_neg h2, if_pos h3, List.nil_append] at h
    obtain ⟨b₁, rest, rfl, hl₁, hh₁⟩ := exists_octet h
    rw [piecesFrom_more hl₁ hh₁] at h
    obtain ⟨b₂, rest, rfl, hb₂⟩ := exists_octet h
    obtain ⟨hlow, hhigh⟩ := bounds_of_ite hl₁ hh₁ (by decide) (by decide)
    obtain ⟨c, hc⟩ := exists_three ⟨by omega, h3⟩ ⟨hlow.1, hhigh.1⟩ hlow.2 hhigh.2 hb₂
    exact ⟨c, rest, by rw [hc]; rfl⟩
  by_cases h4 : b₀.toNat < 0xF5
  · rw [if_neg h1, if_neg hstray, if_neg h2, if_neg h3, if_pos h4, List.nil_append] at h
    obtain ⟨b₁, rest, rfl, hl₁, hh₁⟩ := exists_octet h
    rw [piecesFrom_more hl₁ hh₁] at h
    obtain ⟨b₂, rest, rfl, hl₂, hh₂⟩ := exists_octet h
    rw [piecesFrom_more hl₂ hh₂] at h
    obtain ⟨b₃, rest, rfl, hb₃⟩ := exists_octet h
    obtain ⟨hlow, hhigh⟩ := bounds_of_ite hl₁ hh₁ (by decide) (by decide)
    obtain ⟨c, hc⟩ := exists_four ⟨by omega, h4⟩ ⟨hlow.1, hhigh.1⟩ hlow.2 hhigh.2 ⟨hl₂, hh₂⟩ hb₃
    exact ⟨c, rest, by rw [hc]; rfl⟩
  · simp [h1, hstray, h2, h3, h4] at h

/-! ## Texts -/

/-- The octets of a text are read as its characters. -/
theorem pieces_encode (text : Text) : pieces (encode text) = text.map some := by
  induction text with
  | nil => rfl
  | cons c text ih => rw [encode, List.flatMap_cons, pieces, piecesFrom_encodeChar, List.map_cons, ← ih, pieces, encode]

/-- Octets without an ill-formed stretch are those of a text. -/
theorem exists_encode {bytes : Bytes} (h : none ∉ pieces bytes) : ∃ text, bytes = encode text := by
  cases bytes with
  | nil => exact ⟨[], rfl⟩
  | cons b rest =>
    obtain ⟨c, after, hc⟩ := exists_encodeChar h
    rw [hc, pieces, piecesFrom_encodeChar, List.mem_cons, not_or] at h
    have hshorter : after.length < (b :: rest).length := by
      rw [hc, List.length_append, String.length_utf8EncodeChar]
      exact Nat.lt_add_of_pos_left c.utf8Size_pos
    obtain ⟨text, htext⟩ := exists_encode h.2
    exact ⟨c :: text, by rw [hc, htext, encode, encode, List.flatMap_cons]⟩
termination_by bytes.length

/-- The strict reading gives a text exactly if the pieces are its characters. -/
theorem decode?_eq_some_iff_pieces {text : Text} : decode? bytes = some text ↔ pieces bytes = text.map some := by
  rw [decode?]
  generalize pieces bytes = found
  induction found generalizing text with
  | nil =>
    rw [List.mapM_nil, List.nil_eq, List.map_eq_nil_iff]
    exact ⟨fun h => (Option.some.inj h).symm, fun h => congrArg some h.symm⟩
  | cons piece found ih =>
    rw [List.mapM_cons, Option.bind_eq_bind, Option.bind_eq_some_iff]
    constructor
    · rintro ⟨c, hc, h⟩
      obtain ⟨rest, hrest, h⟩ := Option.bind_eq_some_iff.1 h
      cases h
      rw [ih.1 hrest, show piece = some c from hc, List.map_cons]
    · intro h
      obtain ⟨c, rest, rfl, hc, hrest⟩ := List.map_eq_cons_iff.1 h.symm
      exact ⟨c, hc.symm, Option.bind_eq_some_iff.2 ⟨rest, ih.2 hrest.symm, rfl⟩⟩

/-- The strict reading gives a text exactly for the octets of the text. -/
theorem decode?_eq_some_iff {text : Text} : decode? bytes = some text ↔ bytes = encode text := by
  rw [decode?_eq_some_iff_pieces]
  constructor
  · intro h
    have hwhole : none ∉ pieces bytes := by
      rw [h]
      simp
    obtain ⟨text', rfl⟩ := exists_encode hwhole
    rw [pieces_encode] at h
    rw [List.map_injective_iff.2 (Option.some_injective Char) h]
  · rintro rfl
    exact pieces_encode text

/-- The lenient reading of the octets of a text gives the text. -/
theorem decodeLenient_encode (text : Text) : decodeLenient (encode text) = text := by
  rw [decodeLenient, pieces_encode, List.map_map]
  exact List.map_id text

end SymbolSearch.Utf8
