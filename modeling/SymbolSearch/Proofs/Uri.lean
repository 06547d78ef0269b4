import Mathlib
import SymbolSearch.Proofs.Search.Failure
import SymbolSearch.Proofs.Utf8

/-!
# Identifiers of files

The identifier of a file is `file://` and its path, where each octet of the path that is not plain is written as a percent sign and
two hexadecimal digits. Such an identifier has no authority, query or fragment, whatever the path holds (`split_ofPath`), and its
escapes decode to the path (`decode_escape`), so that a located symbol is converted to a symbol in that file.
-/

namespace SymbolSearch

namespace Uri

/-! ## Writing a path -/

/-- A character that stands for itself in the identifier of a file. -/
def isPlain (c : Char) : Bool :=
  Text.isAsciiLetter c || Text.isAsciiDigit c || c = '_' || c = '.' || c = '-' || c = '~' || c = '/'

/-- The hexadecimal digit of a number below 16, a capital or a small letter from ten on. -/
def hexDigit (capital : Bool) (n : Nat) : Char :=
  if n < 10 then Char.ofNat ('0'.toNat + n) else Char.ofNat ((if capital then 'A' else 'a').toNat + (n - 10))

/-- An octet of a path as the identifier has it. -/
def escapeOctet (capital : Bool) (b : UInt8) : Text :=
  if isPlain (Char.ofNat b.toNat) then [Char.ofNat b.toNat]
  else ['%', hexDigit capital (b.toNat / 16), hexDigit capital (b.toNat % 16)]

/-- A path with percent escapes for the octets that are not plain. -/
def escape (capital : Bool) (path : Text) : Text :=
  (Utf8.encode path).flatMap (escapeOctet capital)

/-- The identifier of the file at a path. -/
def ofPath (capital : Bool) (path : Text) : Text :=
  "file://".toList ++ escape capital path

variable {capital : Bool} {c : Char} {n : Nat} {path s : Text}

theorem hexValue?_hexDigit (capital : Bool) (h : n < 16) : Json.hexValue? (hexDigit capital n) = some n := by
  have hall : ∀ capital : Bool, ∀ n : Fin 16, Json.hexValue? (hexDigit capital n) = some n.val := by decide
  exact hall capital ⟨n, h⟩

theorem isPlain_hexDigit (capital : Bool) (h : n < 16) : isPlain (hexDigit capital n) = true := by
  have hall : ∀ capital : Bool, ∀ n : Fin 16, isPlain (hexDigit capital n) = true := by decide
  exact hall capital ⟨n, h⟩

/-- An octet is written in plain characters and percent signs. -/
theorem isPlain_of_mem_escapeOctet {b : UInt8} (h : c ∈ escapeOctet capital b) : isPlain c = true ∨ c = '%' := by
  have hb : b.toNat < 256 := b.toNat_lt
  unfold escapeOctet at h
  split at h
  case isTrue hplain =>
    rw [List.mem_singleton] at h
    exact .inl (h ▸ hplain)
  case isFalse =>
    simp only [List.mem_cons, List.not_mem_nil, or_false] at h
    rcases h with rfl | rfl | rfl
    · exact .inr rfl
    · exact .inl (isPlain_hexDigit capital (by omega))
    · exact .inl (isPlain_hexDigit capital (by omega))

/-- The characters of a written path are printable ASCII characters, and none of them opens a query or a fragment. -/
theorem of_mem_escape (h : c ∈ escape capital path) : 0x20 < c.toNat ∧ c.toNat < 0x80 ∧ c ≠ '?' ∧ c ≠ '#' := by
  obtain ⟨b, -, hc⟩ := List.mem_flatMap.1 h
  rcases isPlain_of_mem_escapeOctet hc with hplain | rfl
  · simp only [isPlain, Text.isAsciiLetter, Text.isAsciiDigit, Bool.or_eq_true, Bool.and_eq_true, decide_eq_true_eq, Char.le_def,
      UInt32.le_iff_toNat_le, ← Char.toNat_inj, Char.toNat_val, Char.reduceVal, Char.reduceToNat, UInt32.reduceToNat,
      ne_eq] at hplain ⊢
    omega
  · decide

/-! ## Reading it back -/

theorem unescape_cons (h : c ≠ '%') (s : Text) : unescape (c :: s) = c.toNat.toUInt8 :: unescape s := by
  rw [unescape]
  rintro a b rest rfl -
  exact h rfl

/-- A written octet is read back, whatever follows it. -/
theorem unescape_escapeOctet (capital : Bool) (b : UInt8) (s : Text) :
    unescape (escapeOctet capital b ++ s) = b :: unescape s := by
  have hb : b.toNat < 256 := b.toNat_lt
  unfold escapeOctet
  split
  case isTrue hplain =>
    have hne : Char.ofNat b.toNat ≠ '%' := by
      intro h
      rw [h] at hplain
      exact absurd hplain (by decide)
    have hchar : (Char.ofNat b.toNat).toNat = b.toNat := by
      rw [Char.toNat_ofNat, if_pos (.inl (by omega))]
    rw [List.singleton_append, unescape_cons hne, hchar]
    simp
  case isFalse =>
    have hnumber : Json.hexNumber? [hexDigit capital (b.toNat / 16), hexDigit capital (b.toNat % 16)] = some b.toNat := by
      simp only [Json.hexNumber?, List.foldlM, hexValue?_hexDigit capital (show b.toNat / 16 < 16 by omega),
        hexValue?_hexDigit capital (show b.toNat % 16 < 16 by omega), Option.map_some, Option.bind_eq_bind, Option.bind_some,
        Option.pure_def, Option.some.injEq]
      omega
    simp only [List.cons_append, List.nil_append, unescape, hnumber]
    simp

theorem unescape_flatMap (capital : Bool) (bytes : Bytes) : unescape (bytes.flatMap (escapeOctet capital)) = bytes := by
  induction bytes with
  | nil => rfl
  | cons b bytes ih => rw [List.flatMap_cons, unescape_escapeOctet, ih]

/-- Text of ASCII characters only is one run of escapes. -/
theorem decodeFrom_ascii (h : ∀ c ∈ s, c.toNat < 0x80) (run : Text) :
    decodeFrom run s = Utf8.decodeLenient (unescape (run.reverse ++ s)) := by
  induction s generalizing run with
  | nil => rw [decodeFrom, List.append_nil]
  | cons c s ih =>
    rw [List.forall_mem_cons] at h
    rw [decodeFrom, if_pos h.1, ih h.2, List.reverse_cons, List.append_assoc, List.singleton_append]

/-- Decoding the escapes of a written path gives the path. -/
theorem decode_escape (capital : Bool) (path : Text) : decode (escape capital path) = path := by
  rw [decode, decodeFrom_ascii (fun c hc => (of_mem_escape hc).2.1), List.reverse_nil, List.nil_append, escape, unescape_flatMap,
    Utf8.decodeLenient_encode]

/-- A slash in front is written as it is. -/
theorem escape_cons_slash (capital : Bool) (path : Text) : escape capital ('/' :: path) = '/' :: escape capital path := by
  have hslash : (String.utf8EncodeChar '/').flatMap (escapeOctet capital) = ['/'] := by
    cases capital <;> decide
  rw [escape, Utf8.encode, List.flatMap_cons, List.flatMap_append, hslash]
  rfl

theorem clean_ofPath (capital : Bool) (path : Text) : clean (ofPath capital path) = ofPath capital path := by
  have hfront : (ofPath capital path).dropWhile (fun c => c.toNat ≤ 0x20) = ofPath capital path := rfl
  rw [clean, hfront, List.filter_eq_self]
  intro c hc
  have hprintable : 0x20 < c.toNat := by
    rcases List.mem_append.1 hc with hc | hc
    · have hall : "file://".toList.all (fun c => 0x20 < c.toNat) = true := by decide
      exact of_decide_eq_true (List.all_eq_true.1 hall c hc)
    · exact (of_mem_escape hc).1
  simp only [← Char.toNat_inj, Char.reduceToNat, ne_eq, decide_not, Bool.and_eq_true, Bool.not_eq_true', decide_eq_false_iff_not]
  omega

theorem splitScheme_ofPath (capital : Bool) (path : Text) :
    splitScheme (ofPath capital path) = ("file".toList, '/' :: '/' :: escape capital path) := by
  have hcolon : (ofPath capital path).splitFirst? ':' = some ("file".toList, '/' :: '/' :: escape capital path) := rfl
  have hscheme : ("file".toList.head?.any Text.isAsciiLetter && "file".toList.all isSchemeChar) = true := by decide
  have hlower : Text.lower "file".toList = "file".toList := by decide
  rw [splitScheme, hcolon]
  simp only [hscheme, if_true, hlower]

/-- The identifier of a file has the file's path and nothing else behind its scheme. -/
theorem split_ofPath (capital : Bool) (h : path.head? = some '/') :
    split (ofPath capital path) = ⟨"file".toList, [], escape capital path⟩ := by
  obtain ⟨path, rfl⟩ : ∃ rest, path = '/' :: rest := List.head?_eq_some_iff.1 h
  have hauthority : splitAuthority ('/' :: '/' :: escape capital ('/' :: path)) = ([], escape capital ('/' :: path)) := by
    rw [escape_cons_slash]
    rfl
  have hfragment : (escape capital ('/' :: path)).takeWhile (· ≠ '#') = escape capital ('/' :: path) :=
    List.takeWhile_eq_self_iff.2 (fun c hc => decide_eq_true (of_mem_escape hc).2.2.2)
  have hquery : (escape capital ('/' :: path)).takeWhile (· ≠ '?') = escape capital ('/' :: path) :=
    List.takeWhile_eq_self_iff.2 (fun c hc => decide_eq_true (of_mem_escape hc).2.2.1)
  simp only [split, clean_ofPath, splitScheme_ofPath, hauthority, hfragment, hquery]

theorem toPath_ofPath (capital : Bool) (h : path.head? = some '/') : toPath (ofPath capital path) = .ok path := by
  have hnone : isAuthority [] = true := by decide
  rw [toPath, split_ofPath capital h]
  simp only [hnone, Bool.not_true, Bool.false_eq_true, if_false, if_true, decode_escape]

end Uri

namespace Located

variable {symbol : Located} {path : Text}

/-- A located symbol with a name, in a document with a path, is converted as soon as its classification is. -/
theorem toSymbol_eq (hname : symbol.name ≠ []) (hpath : Uri.toPath symbol.uri = .ok path) :
    symbol.toSymbol = (symbol.kind.mapM Kind.text).map fun kind =>
      ⟨symbol.name, some ⟨path, symbol.range.start.line + 1, Nat.le_add_left 1 _⟩, kind, symbol.attributes, hname⟩ := by
  have hlocation := Location.make_of_le (Nat.le_add_left 1 symbol.range.start.line) path
  rw [Int.natCast_add, Int.natCast_one] at hlocation
  rw [toSymbol, hpath]
  cases symbol.kind.mapM Kind.text with
  | error fault => rfl
  | ok kind =>
    simp only [bind, Except.bind, hlocation, Symbol.make_of_ne_nil hname]
    rfl

/-- A classification becomes a word exactly if it is no number with too many digits. -/
theorem exists_kindText_iff (kind : Option Kind) :
    (∃ text, kind.mapM Kind.text = .ok text) ↔ ∀ n, kind = some (.code n) → n.natAbs < 10 ^ Number.digitLimit := by
  have hdigits : ∀ n : Int, (Text.ofNat n.natAbs).length ≤ Number.digitLimit ↔ n.natAbs < 10 ^ Number.digitLimit :=
    fun n => Nat.length_toDigits_le_iff (by decide) (by decide)
  have hrefused : (∃ fault, kind.mapM Kind.text = .error fault) ↔ _ := Kind.text_error_iff
  cases hkind : kind.mapM Kind.text with
  | ok text =>
    refine iff_of_true ⟨text, rfl⟩ fun n hn => (hdigits n).1 (Nat.not_lt.1 fun htoo => ?_)
    obtain ⟨fault, hfault⟩ := hrefused.2 ⟨n, hn, htoo⟩
    rw [hkind] at hfault
    cases hfault
  | error fault =>
    obtain ⟨n, hn, htoo⟩ := hrefused.1 ⟨fault, hkind⟩
    refine iff_of_false nofun fun hshort => ?_
    exact Nat.not_le.2 htoo ((hdigits n).2 (hshort n hn))

/-- The identifier of a file stands for the file's path, whatever characters the path has, and a symbol with a name located in it is
converted to one at that path and the line counted from one exactly if it is not classified by a number with too many digits. An
identifier with another scheme and an accepted authority stands for itself. -/
theorem toSymbol_ofPath (capital : Bool) {path : Text} (habsolute : path.head? = some '/') :
    Uri.toPath (Uri.ofPath capital path) = .ok path ∧
      (∀ symbol : Located, symbol.uri = Uri.ofPath capital path → ∀ hname : symbol.name ≠ [],
        (symbol.toSymbol = (symbol.kind.mapM Kind.text).map fun kind =>
          ⟨symbol.name, some ⟨path, symbol.range.start.line + 1, Nat.le_add_left 1 _⟩, kind, symbol.attributes, hname⟩) ∧
        ((∃ made, symbol.toSymbol = .ok made ∧
            made.location = some ⟨path, symbol.range.start.line + 1, Nat.le_add_left 1 _⟩) ↔
          ∀ n, symbol.kind = some (.code n) → n.natAbs < 10 ^ Number.digitLimit)) ∧
      ∀ uri, Uri.isAuthority (Uri.split uri).authority = true → (Uri.split uri).scheme ≠ "file".toList →
        Uri.toPath uri = .ok uri := by
  have hpath : Uri.toPath (Uri.ofPath capital path) = .ok path := Uri.toPath_ofPath capital habsolute
  refine ⟨hpath, ?_, ?_⟩
  · intro symbol huri hname
    have hmade := toSymbol_eq hname (huri ▸ hpath)
    refine ⟨hmade, ?_⟩
    rw [hmade, ← exists_kindText_iff]
    constructor
    · rintro ⟨made, hok, -⟩
      obtain ⟨text, htext, -⟩ := map_eq_ok_iff.1 hok
      exact ⟨text, htext⟩
    · rintro ⟨text, htext⟩
      rw [htext]
      exact ⟨_, rfl, rfl⟩
  · intro uri hauthority hscheme
    rw [Uri.toPath]
    simp only [hauthority, Bool.not_true, Bool.false_eq_true, if_false, hscheme]

/-- A symbol of the third line of a file whose path has a blank, a hash mark, a question mark, a percent sign and a letter beyond
ASCII, classified by a number. -/
def oddlyPlaced (n : Int) : Located :=
  ⟨"f".toList, some (.code n), "file:///a%20%23%C3%A9%25%3F".toList, ⟨⟨2, 0⟩, ⟨2, 1⟩⟩, none⟩

/-- Its identifier is that of the path. -/
theorem uri_oddlyPlaced (n : Int) : (oddlyPlaced n).uri = Uri.ofPath true "/a #é%?".toList := by
  have huri : "file:///a%20%23%C3%A9%25%3F".toList = Uri.ofPath true "/a #é%?".toList := by decide
  exact huri

/-- A symbol in such a file is converted. -/
theorem toSymbol_ofPath_odd :
    ("/a #é%?".toList.head? = some '/' ∧ (oddlyPlaced 12).uri = Uri.ofPath true "/a #é%?".toList) ∧
      Uri.toPath (oddlyPlaced 12).uri = .ok "/a #é%?".toList ∧
      ∃ made, (oddlyPlaced 12).toSymbol = .ok made ∧ made.location = some ⟨"/a #é%?".toList, 3, by decide⟩ := by
  have huri : (oddlyPlaced 12).uri = Uri.ofPath true "/a #é%?".toList := uri_oddlyPlaced 12
  obtain ⟨hpath, hsymbol, -⟩ := toSymbol_ofPath true (show "/a #é%?".toList.head? = some '/' by decide)
  refine ⟨⟨by decide, huri⟩, huri ▸ hpath, (hsymbol (oddlyPlaced 12) huri (by decide)).2.2 ?_⟩
  intro n hn
  obtain rfl : 12 = n := by simpa [oddlyPlaced] using hn
  exact Nat.lt_of_lt_of_le (by decide) (Nat.pow_le_pow_right (by decide) (show 2 ≤ Number.digitLimit by decide))

/-- A number of one digit too many, and of no more, keeps a symbol in such a file from being converted. -/
theorem toSymbol_many_digits :
    (oddlyPlaced (10 ^ Number.digitLimit)).name ≠ [] ∧
      (oddlyPlaced (10 ^ Number.digitLimit)).uri = Uri.ofPath true "/a #é%?".toList ∧
      (oddlyPlaced (10 ^ Number.digitLimit)).toSymbol = .error .tooManyDigits := by
  have huri : (oddlyPlaced (10 ^ Number.digitLimit)).uri = Uri.ofPath true "/a #é%?".toList := uri_oddlyPlaced _
  have hname : (oddlyPlaced (10 ^ Number.digitLimit)).name ≠ [] := List.cons_ne_nil _ _
  have hpath : Uri.toPath (Uri.ofPath true "/a #é%?".toList) = .ok "/a #é%?".toList := Uri.toPath_ofPath true (by decide)
  refine ⟨hname, huri, ?_⟩
  have hkind : Kind.text (.code (10 ^ Number.digitLimit)) = .error .tooManyDigits := by
    have habs : ∀ k, Int.natAbs (10 ^ k) = 10 ^ k := fun k => Int.natAbs_pow 10 k
    have hmany : Number.digitLimit < (Text.ofNat (Int.natAbs (10 ^ Number.digitLimit))).length := by
      rw [habs]
      exact Nat.lt_of_not_le fun hle => Nat.lt_irrefl _ ((Nat.length_toDigits_le_iff (by decide) (by decide)).1 hle)
    rw [Kind.text, decimalText]
    exact if_pos hmany
  rw [toSymbol_eq hname (huri ▸ hpath)]
  simp only [oddlyPlaced, Option.mapM_some, hkind]
  rfl

end Located

end SymbolSearch
