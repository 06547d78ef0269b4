import SymbolSearch.Json.Reader

/-!
# Authorities

The part of an identifier that names a host. It is accepted unless a bracket is left open, the brackets do not hold the whole
host or no address of the newer kind, or it has a character that reads like a separator.
-/

namespace SymbolSearch.Uri

/-- One of the four numbers of an older address: up to 255, without zeros in front. -/
def isOctet (s : Text) : Bool :=
  !s.isEmpty && s.length ≤ 3 && s.all Text.isAsciiDigit && (s = ['0'] || s.head? ≠ some '0') && Text.digitsValue s ≤ 255

/-- An address of the older kind: four numbers with dots between them. -/
def isDottedAddress (s : Text) : Bool :=
  let octets := s.splitOn '.'
  octets.length = 4 && octets.all isOctet

/-- One of the eight numbers of a newer address: up to four hexadecimal digits. -/
def isGroup (s : Text) : Bool :=
  !s.isEmpty && s.length ≤ 4 && s.all (fun c => (Json.hexValue? c).isSome)

/-- The groups of a newer address, where a dotted address at the end stands for two of them; none if it is malformed. -/
def groups? (s : Text) : Option (List Text) :=
  let parts := s.splitOn ':'
  match parts.getLast? with
  | some last =>
    if last.contains '.' then
      if isDottedAddress last then some (parts.dropLast ++ [['0'], ['0']]) else none
    else some parts
  | none => none

/-- The positions of empty parts between the first and the last one. -/
def innerGaps (parts : List Text) : List Nat :=
  (List.range parts.length).filter (fun i => 0 < i && i + 1 < parts.length && parts[i]? = some [])

/-- An address of the newer kind: eight groups, of which one run of zeros may be left out between two colons. -/
def isGroupedAddress (s : Text) : Bool :=
  if (s.splitOn ':').length < 3 then false
  else
    match groups? s with
    | none => false
    | some parts =>
      if 9 < parts.length then false
      else
        match innerGaps parts with
        | [] => parts.length = 8 && parts.all isGroup
        | [gap] =>
          let before := parts.take gap
          let behind := parts.drop (gap + 1)
          let before := if before = [[]] then [] else before
          let behind := if behind = [[]] then [] else behind
          before.length + behind.length < 8 && before.all isGroup && behind.all isGroup
        | _ => false

/-- An address of the newer kind with at most one zone behind a percent sign. -/
def isZonedAddress (s : Text) : Bool :=
  match s.splitFirst? '%' with
  | none => isGroupedAddress s
  | some (address, zone) => !zone.isEmpty && !zone.contains '%' && isGroupedAddress address

/-- An address of a kind yet to come: `v`, a version, a dot and something. -/
def isFutureAddress (s : Text) : Bool :=
  match s with
  | 'v' :: rest =>
    let version := rest.takeWhile (fun c => (Json.hexValue? c).isSome)
    match rest.drop version.length with
    | '.' :: address => !version.isEmpty && !address.isEmpty
    | _ => false
  | _ => false

/-- What may stand between brackets. -/
def isBracketedHost (s : Text) : Bool :=
  if s.head? = some 'v' then isFutureAddress s else isZonedAddress s

/-- Characters beyond ASCII whose compatibility form holds a separator. -/
def separatorLikes : List Nat :=
  [0x2047, 0x2048, 0x2049, 0x2100, 0x2101, 0x2105, 0x2106, 0x2A74, 0xFE13, 0xFE16, 0xFE55, 0xFE56, 0xFE5F, 0xFE6B, 0xFF03,
   0xFF0F, 0xFF1A, 0xFF1F, 0xFF20]

/-- The host of an authority, without what stands before the last at sign. -/
def hostOf (s : Text) : Text :=
  match s.splitLast? '@' with
  | some (_, host) => host
  | none => s

/-- A host in brackets: nothing stands before the opening bracket, and behind the closing one nothing that does not start with a
colon. Without an opening bracket the brackets stand in front of the host, which then has to be an address as well. -/
def bracketsFit (host : Text) : Bool :=
  match host.splitFirst? '[' with
  | none => isBracketedHost (host.takeWhile (· ≠ ':'))
  | some (front, rest) =>
    let address := rest.takeWhile (· ≠ ']')
    let behind := (rest.drop address.length).tail
    front.isEmpty && (behind.isEmpty || behind.head? = some ':') && isBracketedHost address

/-- An authority that is accepted. -/
def isAuthority (s : Text) : Bool :=
  let opens := s.contains '['
  opens == s.contains ']' && (!opens || bracketsFit (hostOf s)) && !s.any (fun c => separatorLikes.contains c.toNat)

end SymbolSearch.Uri
