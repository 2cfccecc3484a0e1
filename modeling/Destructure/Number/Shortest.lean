import Destructure.Number.Binary64
import Destructure.Text.Character

/-!
The text of a double precision number: the fewest decimal digits that read back as the number, of
two such decimals the nearer one, and of two at the same distance the larger one. Numbers from
`0.0001` up to below `10 ^ 16` are written positionally and always with a point, others with an
exponent.
-/

namespace Destructure.Number

structure Decimal where
  digits : Nat
  exponent : Int
  deriving DecidableEq

namespace Decimal

def trimZeros : Nat → Decimal → Decimal
  | 0, decimal => decimal
  | bound + 1, decimal =>
    if decimal.digits ≠ 0 ∧ decimal.digits % 10 = 0 then
      trimZeros bound ⟨decimal.digits / 10, decimal.exponent + 1⟩
    else
      decimal

def readsBack (decimal : Decimal) (mantissa : Nat) (exponent : Int) : Bool :=
  Binary64.ofDecimal false decimal.digits decimal.exponent == .finite false mantissa exponent

def exact (mantissa : Nat) (exponent : Int) : Decimal :=
  if 0 ≤ exponent then ⟨mantissa * Nat.pow 2 exponent.toNat, 0⟩
  else ⟨mantissa * Nat.pow 5 exponent.natAbs, exponent⟩

def place (numerator denominator : Nat) : Int :=
  let estimate : Int :=
    ((Nat.toDigits 10 numerator).length : Int) - ((Nat.toDigits 10 denominator).length : Int)
  let reached :=
    if 0 ≤ estimate then denominator * Nat.pow 10 estimate.toNat ≤ numerator
    else denominator ≤ numerator * Nat.pow 10 estimate.natAbs
  if reached then estimate + 1 else estimate

/-- Among the decimals next to the quotient whose last digit stands for `10 ^ unit`, the one to
write for the number, if one of them reads back. -/
def nearest? (numerator denominator mantissa : Nat) (exponent unit : Int) : Option Decimal :=
  let scaledNumerator := if 0 ≤ unit then numerator else numerator * Nat.pow 10 unit.natAbs
  let scaledDenominator := if 0 ≤ unit then denominator * Nat.pow 10 unit.toNat else denominator
  let below : Decimal := ⟨scaledNumerator / scaledDenominator, unit⟩
  let above : Decimal := ⟨scaledNumerator / scaledDenominator + 1, unit⟩
  let nearerBelow := 2 * (scaledNumerator % scaledDenominator) < scaledDenominator
  let (first, second) := if nearerBelow then (below, above) else (above, below)
  if first.readsBack mantissa exponent then some first
  else if second.readsBack mantissa exponent then some second
  else none

/-- Try more and more digits, at most `attempts` times; all digits are written if none of these
decimals reads back, which 17 digits rule out. -/
def search (numerator denominator mantissa : Nat) (exponent : Int) : Nat → Int → Decimal
  | 0, _ => exact mantissa exponent
  | attempts + 1, unit =>
    match nearest? numerator denominator mantissa exponent unit with
    | some decimal => decimal
    | none => search numerator denominator mantissa exponent attempts (unit - 1)

def shortest (mantissa : Nat) (exponent : Int) : Decimal :=
  let numerator := if 0 ≤ exponent then mantissa * Nat.pow 2 exponent.toNat else mantissa
  let denominator := if 0 ≤ exponent then 1 else Nat.pow 2 exponent.natAbs
  let found :=
    search numerator denominator mantissa exponent 17 (place numerator denominator - 1)
  trimZeros 17 found

end Decimal

/-! The written form. -/

namespace Binary64

def leastPositional : Int := -4

def positionalLimit : Int := 16

def positional (digits : List Char) (leading : Int) : List Char :=
  if leading < 0 then
    '0' :: '.' :: List.replicate (leading.natAbs - 1) '0' ++ digits
  else
    let wholeLength := leading.toNat + 1
    if digits.length ≤ wholeLength then
      digits ++ List.replicate (wholeLength - digits.length) '0' ++ ['.', '0']
    else
      digits.take wholeLength ++ '.' :: digits.drop wholeLength

def exponential (digits : List Char) (leading : Int) : List Char :=
  match digits with
  | first :: second :: rest => first :: '.' :: second :: rest ++ 'e' :: Text.digitsOfInt leading
  | _ => digits ++ 'e' :: Text.digitsOfInt leading

def magnitudeText : Binary64 → List Char
  | .infinite _ => ['i', 'n', 'f']
  | .finite _ mantissa exponent =>
    if mantissa = 0 then ['0', '.', '0']
    else
      let decimal := Decimal.shortest mantissa exponent
      let digits := Text.digitsOfNat decimal.digits
      let leading := decimal.exponent + digits.length - 1
      if leastPositional ≤ leading ∧ leading < positionalLimit then positional digits leading
      else exponential digits leading

def text (number : Binary64) : List Char :=
  if number.isNegative then '-' :: number.magnitudeText else number.magnitudeText

def signedText (number : Binary64) : List Char :=
  (if number.isNegative then '-' else '+') :: number.magnitudeText

end Binary64

end Destructure.Number
