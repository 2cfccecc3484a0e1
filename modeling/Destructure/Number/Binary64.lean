/-!
Double precision numbers without NaN, held exactly: a finite number is `mantissa · 2 ^ exponent`.
The mantissa has at most 53 bits, and exactly 53 unless the exponent is the least one, so every
number has one representation apart from the two zeros. Rounding is done on natural numbers: the
quotient that is rounded is exact, the nearest representable number wins, and a tie goes to the
even mantissa.
-/

namespace Destructure.Number

inductive Binary64 where
  | finite (negative : Bool) (mantissa : Nat) (exponent : Int)
  | infinite (negative : Bool)
  deriving DecidableEq, Inhabited

namespace Binary64

def leastExponent : Int := -1074

def greatestExponent : Int := 971

def mantissaLimit : Nat := Nat.pow 2 53

def zero (negative : Bool) : Binary64 := .finite negative 0 leastExponent

def equals : Binary64 → Binary64 → Bool
  | .infinite negative, .infinite negative' => negative == negative'
  | .finite negative mantissa exponent, .finite negative' mantissa' exponent' =>
    (mantissa == 0 && mantissa' == 0) ||
      (negative == negative' && mantissa == mantissa' && exponent == exponent')
  | _, _ => false

def isNegative : Binary64 → Bool
  | .finite negative _ _ => negative
  | .infinite negative => negative

def roundQuotient (numerator denominator : Nat) : Nat :=
  let quotient := numerator / denominator
  let remainder := numerator % denominator
  if 2 * remainder < denominator then quotient
  else if denominator < 2 * remainder then quotient + 1
  else quotient + quotient % 2

/-- The number `mantissa · 2 ^ exponent` for a mantissa that rounding may have carried to the
limit, and infinity where the exponent is too large. -/
def ofRounded (negative : Bool) (mantissa : Nat) (exponent : Int) : Binary64 :=
  let (mantissa, exponent) :=
    if mantissa = mantissaLimit then (mantissa / 2, exponent + 1) else (mantissa, exponent)
  if greatestExponent < exponent then .infinite negative else .finite negative mantissa exponent

def scale (numerator denominator : Nat) (exponent : Int) : Nat × Nat :=
  if 0 ≤ exponent then (numerator, denominator * Nat.pow 2 exponent.toNat)
  else (numerator * Nat.pow 2 exponent.natAbs, denominator)

/-- The exponent for which the quotient, counted in units of `2 ^ exponent`, has 53 bits, or the
least exponent if that is larger. -/
def unitExponent (numerator denominator : Nat) : Int :=
  let estimate : Int := (Nat.log2 numerator : Int) - (Nat.log2 denominator : Int) - 53
  let (scaledNumerator, scaledDenominator) := scale numerator denominator estimate
  let exponent :=
    if scaledDenominator * mantissaLimit ≤ scaledNumerator then estimate + 1 else estimate
  max exponent leastExponent

def ofQuotient (negative : Bool) (numerator denominator : Nat) : Binary64 :=
  if numerator = 0 then zero negative
  else
    let exponent := unitExponent numerator denominator
    let (scaledNumerator, scaledDenominator) := scale numerator denominator exponent
    ofRounded negative (roundQuotient scaledNumerator scaledDenominator) exponent

/-- The number nearest to `digits · 10 ^ exponent`. Decimal exponents far outside the range of
double precision are decided by the number of digits alone. -/
def ofDecimal (negative : Bool) (digits : Nat) (exponent : Int) : Binary64 :=
  let magnitude : Int := (Nat.toDigits 10 digits).length + exponent
  if digits = 0 then zero negative
  else if 310 < magnitude then .infinite negative
  else if magnitude < -330 then zero negative
  else if 0 ≤ exponent then ofQuotient negative (digits * Nat.pow 10 exponent.toNat) 1
  else ofQuotient negative digits (Nat.pow 10 exponent.natAbs)

end Binary64

end Destructure.Number
