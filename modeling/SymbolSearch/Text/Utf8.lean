import SymbolSearch.Text.Basic

/-!
# UTF-8

Octets to text. An ill-formed stretch is marked once for each of its maximal well-formed beginnings, so the strict reading
refuses exactly the octets with a mark, and the lenient reading shows a replacement character for each mark.
-/

namespace SymbolSearch

/-- The content of a file, as octets. -/
abbrev Bytes := List UInt8

namespace Utf8

/-- A character that has begun: how many octets it still owes, the least and the greatest next octet, and its bits so far. -/
structure Pending where
  owed : Nat
  low : UInt8
  high : UInt8
  bits : Nat
  deriving DecidableEq, Repr

/-- What an octet between characters begins: a finished character, a pending one, or nothing that is well formed. -/
def begin (b : UInt8) : List (Option Char) × Option Pending :=
  if b < 0x80 then ([some (Char.ofNat b.toNat)], none)
  else if b < 0xC2 then ([none], none)
  else if b < 0xE0 then ([], some ⟨1, 0x80, 0xBF, b.toNat - 0xC0⟩)
  else if b < 0xF0 then
    ([], some ⟨2, if b = 0xE0 then 0xA0 else 0x80, if b = 0xED then 0x9F else 0xBF, b.toNat - 0xE0⟩)
  else if b < 0xF5 then
    ([], some ⟨3, if b = 0xF0 then 0x90 else 0x80, if b = 0xF4 then 0x8F else 0xBF, b.toNat - 0xF0⟩)
  else ([none], none)

/-- One octet: what is finished by it, and what is pending after it. An octet that a pending character cannot take ends that
character as ill formed and begins anew. -/
def step (pending : Option Pending) (b : UInt8) : List (Option Char) × Option Pending :=
  match pending with
  | none => begin b
  | some p =>
    if p.low ≤ b && b ≤ p.high then
      let bits := p.bits * 64 + (b.toNat - 0x80)
      if p.owed ≤ 1 then ([some (Char.ofNat bits)], none) else ([], some ⟨p.owed - 1, 0x80, 0xBF, bits⟩)
    else
      let (done, next) := begin b
      (none :: done, next)

/-- The characters of the octets that follow what is pending, with `none` for each ill-formed stretch. -/
def piecesFrom (pending : Option Pending) : Bytes → List (Option Char)
  | [] => if pending.isSome then [none] else []
  | b :: rest => (step pending b).1 ++ piecesFrom (step pending b).2 rest

/-- The characters of a sequence of octets, with `none` for each ill-formed stretch. -/
def pieces (bytes : Bytes) : List (Option Char) :=
  piecesFrom none bytes

/-- The text of well-formed octets. -/
def decode? (bytes : Bytes) : Option Text :=
  (pieces bytes).mapM id

/-- The text of any octets, with a replacement character for each ill-formed stretch. -/
def decodeLenient (bytes : Bytes) : Text :=
  (pieces bytes).map (fun piece => piece.getD (Char.ofNat 0xFFFD))

/-- The number of octets in front of the first one that shows the octets to be ill formed; octets that only end too early show
nothing before their end. -/
def wellFormedLength (pending : Option Pending) : Bytes → Nat
  | [] => 0
  | b :: rest => if (step pending b).1.contains none then 0 else wellFormedLength (step pending b).2 rest + 1

/-- The characters that are complete in octets, up to the first ill-formed stretch. -/
def completePart (bytes : Bytes) : Text :=
  ((pieces bytes).takeWhile Option.isSome).filterMap id

/-- The number of octets that a text takes. -/
def size (s : Text) : Nat :=
  s.foldl (fun n c => n + c.utf8Size) 0

end Utf8

end SymbolSearch
