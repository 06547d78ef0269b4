/-!
# Binary floating-point numbers

Numbers with a mantissa of 53 bits, as an exact value: a mantissa times a power of two, or an infinity, or no number. Decimal
numbers are rounded to the nearest one, a tie going to the even mantissa.
-/

namespace SymbolSearch

/-- A binary floating-point number. A finite one is its mantissa times two to the exponent, with the sign in front. -/
inductive Double where
  | finite (negative : Bool) (mantissa : Nat) (exponent : Int)
  | infinite (negative : Bool)
  | notANumber
  deriving DecidableEq, Repr, Inhabited

namespace Double

/-- The quotient rounded to the nearest number, a tie going to the even one. -/
def roundQuotient (num den : Nat) : Nat :=
  let q := num / den
  let r := num % den
  if 2 * r < den then q else if den < 2 * r then q + 1 else if q % 2 = 0 then q else q + 1

/-- The fraction `num / den` over two to the exponent, as a fraction. -/
def scaled (num den : Nat) (exponent : Int) : Nat × Nat :=
  match exponent with
  | .ofNat e => (num, den * Nat.pow 2 e)
  | .negSucc e => (num * Nat.pow 2 (e + 1), den)

/-- The least exponent of a finite number. -/
def leastExponent : Int := -1074

/-- The greatest exponent of a finite number. -/
def greatestExponent : Int := 971

/-- The number nearest to a positive fraction. -/
def ofFraction (negative : Bool) (num den : Nat) : Double :=
  let guess : Int := (Nat.log2 num : Int) - (Nat.log2 den : Int) - 52
  let (n, d) := scaled num den guess
  let exponent := max leastExponent (if n / d < Nat.pow 2 52 then guess - 1 else guess)
  let (n, d) := scaled num den exponent
  let mantissa := roundQuotient n d
  let (mantissa, exponent) := if mantissa = Nat.pow 2 53 then (Nat.pow 2 52, exponent + 1) else (mantissa, exponent)
  if greatestExponent < exponent then infinite negative else finite negative mantissa exponent

/-- The number nearest to `digits` times ten to the `scale`. Scales far outside the range of finite numbers are answered
without forming the power. -/
def ofDecimal (negative : Bool) (digits : Nat) (scale : Int) : Double :=
  if digits = 0 then finite negative 0 leastExponent
  else
    let magnitude : Int := (Nat.toDigits 10 digits).length + scale
    if 400 < magnitude then infinite negative
    else if magnitude < -400 then finite negative 0 leastExponent
    else
      match scale with
      | .ofNat s => ofFraction negative (digits * Nat.pow 10 s) 1
      | .negSucc s => ofFraction negative digits (Nat.pow 10 (s + 1))

/-- The number nearest to an integer, unless the integer lies beyond the finite numbers. -/
def ofInt? (n : Int) : Option Double :=
  match ofDecimal (n < 0) n.natAbs 0 with
  | infinite _ => none
  | x => some x

/-- The integer that a number is, if it is one. -/
def toInt? : Double → Option Int
  | finite negative mantissa exponent =>
    let magnitude? : Option Nat :=
      match exponent with
      | .ofNat e => some (mantissa * Nat.pow 2 e)
      | .negSucc e => if mantissa % Nat.pow 2 (e + 1) = 0 then some (mantissa / Nat.pow 2 (e + 1)) else none
    magnitude?.map (fun m => if negative then -(m : Int) else m)
  | _ => none

/-- The number is finite. -/
def isFinite : Double → Bool
  | finite .. => true
  | _ => false

/-- The number is greater than zero. -/
def isPositive : Double → Bool
  | finite negative mantissa _ => !negative && mantissa != 0
  | infinite negative => !negative
  | notANumber => false

end Double

end SymbolSearch
