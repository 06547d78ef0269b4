import SymbolSearch.Number.Double
import SymbolSearch.Text.Basic

/-!
# The shortest decimal form

The decimal text of a floating-point number: the fewest digits that read back as the same number and, of those, the digits
nearest to it.
-/

namespace SymbolSearch

/-- A decimal number: its digits as a number, and the power of ten they are multiplied by. -/
structure Decimal where
  digits : Nat
  scale : Int
  deriving DecidableEq, Repr

namespace Double

/-- A fraction in lowest use: numerator and denominator of a positive finite number. -/
def fraction (mantissa : Nat) (exponent : Int) : Nat × Nat :=
  match exponent with
  | .ofNat e => (mantissa * Nat.pow 2 e, 1)
  | .negSucc e => (mantissa, Nat.pow 2 (e + 1))

/-- The number of digits before the decimal point of a positive fraction; zero or negative below one tenth. -/
def decimalPoint (num den : Nat) : Int :=
  let guess : Int := (Nat.toDigits 10 num).length - (Nat.toDigits 10 den).length
  let reaches (k : Int) : Bool :=
    match k with
    | .ofNat k => den * Nat.pow 10 k ≤ num
    | .negSucc k => den ≤ num * Nat.pow 10 (k + 1)
  if reaches guess then guess + 1 else guess

/-- The fraction over ten to the scale, as a fraction. -/
def overTen (num den : Nat) (scale : Int) : Nat × Nat :=
  match scale with
  | .ofNat s => (num, den * Nat.pow 10 s)
  | .negSucc s => (num * Nat.pow 10 (s + 1), den)

/-- The decimal with `count` digits nearest to a positive finite number that reads back as it, if one of the two decimals
around the number does. -/
def decimalWith? (mantissa : Nat) (exponent : Int) (count : Nat) : Option Decimal :=
  let (num, den) := fraction mantissa exponent
  let scale : Int := decimalPoint num den - count
  let (n, d) := overTen num den scale
  let below := n / d
  let reads (digits : Nat) : Bool := ofDecimal false digits scale == finite false mantissa exponent
  let near := if 2 * (n % d) < d then below else if d < 2 * (n % d) then below + 1
    else if below % 2 = 0 then below else below + 1
  let far := if near = below then below + 1 else below
  if reads near then some ⟨near, scale⟩ else if reads far then some ⟨far, scale⟩ else none

/-- The shortest decimal that reads back as a positive finite number; seventeen digits always do. -/
def shortest (mantissa : Nat) (exponent : Int) : Decimal :=
  ((List.range 17).findSome? (fun k => decimalWith? mantissa exponent (k + 1))).getD ⟨mantissa, exponent⟩

/-- The digits without the zeros at their end; a digit remains. -/
def trimZeros (digits : Text) : Text :=
  match Text.trimEnd (· = '0') digits with
  | [] => ['0']
  | kept => kept

/-- Digits with the decimal point behind `point` of them: written out from `0.0001` up to below `10^16`, and with an exponent
of at least two digits otherwise. -/
def layout (digits : Text) (point : Int) : Text :=
  if -4 < point && point ≤ 16 then
    match point with
    | .ofNat 0 => '0' :: '.' :: digits
    | .ofNat p =>
      if digits.length ≤ p then digits ++ List.replicate (p - digits.length) '0' ++ ['.', '0']
      else digits.take p ++ '.' :: digits.drop p
    | .negSucc p => '0' :: '.' :: List.replicate (p + 1) '0' ++ digits
  else
    let exponent := point - 1
    let power := Nat.toDigits 10 exponent.natAbs
    let power := if power.length < 2 then '0' :: power else power
    let front := match digits with
      | [] => []
      | [c] => [c]
      | c :: rest => c :: '.' :: rest
    front ++ 'e' :: (if exponent < 0 then '-' else '+') :: power

/-- The decimal text of a number: the shortest that reads back, with a point or an exponent in it. -/
def text : Double → Text
  | finite negative mantissa exponent =>
    let body :=
      if mantissa = 0 then ['0', '.', '0']
      else
        let decimal := shortest mantissa exponent
        let digits := Nat.toDigits 10 decimal.digits
        layout (trimZeros digits) (digits.length + decimal.scale)
    if negative then '-' :: body else body
  | infinite negative => if negative then ['-', 'i', 'n', 'f'] else ['i', 'n', 'f']
  | notANumber => ['n', 'a', 'n']

end Double

end SymbolSearch
