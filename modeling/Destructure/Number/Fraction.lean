/-!
Fractions of machine words in lowest terms. Their normal form is found in words as well: the common
divisor among the magnitudes, which have no sign, and the quotients in words of twice the width, in
which a sign can be changed safely. A fraction is refused only where its normal form does not fit.
-/

namespace Destructure.Number

def word? (number : Int) : Option Int64 :=
  if Int64.minValue.toInt ≤ number ∧ number ≤ Int64.maxValue.toInt then
    some (Int64.ofInt number)
  else
    none

def clampWord (number : Nat) : Int64 := (word? number).getD Int64.maxValue

theorem word?_toInt (word : Int64) : word? word.toInt = some word := by
  rw [word?, if_pos ⟨Int64.minValue_le_toInt word, Int64.toInt_le word⟩, Int64.ofInt_toInt]

/-! ## Common divisors -/

/-- The size of a word without its sign. The least word has one, too, though no negation. -/
def magnitude (word : Int64) : UInt64 := word.abs.toUInt64

def greatestDivisor (first second : UInt64) : UInt64 :=
  if second = 0 then first else greatestDivisor second (first % second)
termination_by second.toNat
decreasing_by
  rw [UInt64.toNat_mod]
  exact Nat.mod_lt _ (Nat.pos_of_ne_zero fun zero => ‹¬second = 0› (UInt64.toNat.inj zero))

/-! ## Words of twice the width -/

abbrev WideWord := BitVec 128

namespace WideWord

def ofWord (word : Int64) : WideWord := word.toBitVec.signExtend 128

def ofMagnitude (size : UInt64) : WideWord := size.toBitVec.zeroExtend 128

end WideWord

/-! ## Fractions -/

structure Fraction where
  numerator : Int64
  denominator : Int64
  deriving DecidableEq

namespace Fraction

def divisor (numerator denominator : Int64) : WideWord :=
  .ofMagnitude (max (greatestDivisor (magnitude numerator) (magnitude denominator)) 1)

def sign (denominator : Int64) : WideWord := if denominator < 0 then -1 else 1

def signed (denominator part : Int64) : WideWord := sign denominator * .ofWord part

/-- The fraction in lowest terms with a positive denominator. There is none if the denominator is
zero or a part of the normal form does not fit. -/
def normalize? (numerator denominator : Int64) : Option Fraction :=
  if denominator = 0 then none
  else
    let divisor := divisor numerator denominator
    match word? ((signed denominator numerator).sdiv divisor).toInt,
        word? ((signed denominator denominator).sdiv divisor).toInt with
    | some numerator, some denominator => some ⟨numerator, denominator⟩
    | _, _ => none

end Fraction

end Destructure.Number
