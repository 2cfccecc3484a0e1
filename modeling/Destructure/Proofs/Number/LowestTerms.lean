import Mathlib.Algebra.Order.Field.Rat
import Mathlib.Data.Int.CharZero
import Mathlib.Data.Int.GCD
import Mathlib.Data.Rat.Lemmas
import Destructure.Number.Fraction

/-!
Normal forms of fractions. Euclid's algorithm on magnitudes finds the greatest common divisor, the
sign and the division by it stay inside words of twice the width, and as the divisor divides both
parts, nothing is cut off. So the normal form is that of the quotient as a rational number, wherever
both parts of it are words.

Main statement: `Fraction.normalize?_exact`.
-/

namespace Destructure.Number

/-! ## Words -/

def IsWord (number : Int) : Prop :=
  Int64.minValue.toInt ≤ number ∧ number ≤ Int64.maxValue.toInt

theorem word?_eq_some_iff {number : Int} {word : Int64} :
    word? number = some word ↔ word.toInt = number := by
  constructor
  · intro found
    rcases Option.ite_none_right_eq_some.mp found with ⟨⟨low, high⟩, same⟩
    cases same
    exact Int64.toInt_ofInt_of_le low (Int.lt_of_le_of_lt high (by decide))
  · rintro rfl
    exact word?_toInt word

theorem isWord_iff {number : Int} : IsWord number ↔ ∃ word : Int64, word.toInt = number := by
  constructor
  · intro isWord
    exact ⟨Int64.ofInt number, word?_eq_some_iff.mp (if_pos isWord)⟩
  · rintro ⟨word, rfl⟩
    exact ⟨Int64.minValue_le_toInt word, Int64.toInt_le word⟩

/-- The least word has a magnitude, too. -/
theorem toNat_magnitude (word : Int64) : (magnitude word).toNat = word.toInt.natAbs := by
  have size : (magnitude word).toNat = word.toBitVec.abs.toNat := rfl
  have value : word.toInt = word.toBitVec.toInt := rfl
  have limit := word.toBitVec.isLt
  rw [size, value, BitVec.toNat_abs, BitVec.toInt_eq_msb_cond]
  split <;> omega

/-- What two words have in common is kept when the larger one is replaced by its remainder. -/
theorem toNat_greatestDivisor (first second : UInt64) :
    (greatestDivisor first second).toNat = Nat.gcd first.toNat second.toNat := by
  induction first, second using greatestDivisor.induct with
  | case1 first =>
      rw [greatestDivisor, if_pos rfl]
      exact (Nat.gcd_zero_right _).symm
  | case2 first second some induction =>
      rw [greatestDivisor, if_neg some, induction, UInt64.toNat_mod, Nat.gcd_comm, ← Nat.gcd_rec,
        Nat.gcd_comm]

namespace WideWord

theorem toInt_ofWord (word : Int64) : (ofWord word).toInt = word.toInt :=
  BitVec.toInt_signExtend_of_le (by decide)

theorem toInt_ofMagnitude (size : UInt64) : (ofMagnitude size).toInt = size.toNat := by
  have limit := size.toNat_lt
  have value : (ofMagnitude size).toNat = size.toNat := by
    simp only [ofMagnitude, BitVec.toNat_setWidth, UInt64.toNat_toBitVec]
    exact Nat.mod_eq_of_lt (Nat.lt_trans limit (by decide))
  rw [BitVec.toInt_eq_toNat_of_lt (by omega), value]

end WideWord

namespace Fraction

/-! ## Steps of the normalisation -/

section Steps

variable (numerator denominator part : Int64)

theorem toInt_divisor :
    (divisor numerator denominator).toInt =
      max (Int.gcd numerator.toInt denominator.toInt) 1 := by
  rw [divisor, WideWord.toInt_ofMagnitude, UInt64.toNat_max, toNat_greatestDivisor,
    toNat_magnitude, toNat_magnitude]
  change ((max (Int.gcd numerator.toInt denominator.toInt) 1 : Nat) : Int) = _
  omega

theorem toInt_sign : (sign denominator).toInt = if denominator.toInt < 0 then -1 else 1 := by
  rw [sign]
  split
  next negative => exact (if_pos (Int64.lt_iff_toInt_lt.mp negative)).symm
  next notNegative =>
    exact (if_neg fun negative => notNegative (Int64.lt_iff_toInt_lt.mpr negative)).symm

/-- The sign of the least word can be changed in a wide word. -/
theorem smulOverflow_sign : (sign denominator).smulOverflow (WideWord.ofWord part) = false := by
  have low := Int64.le_toInt part
  have high := Int64.toInt_lt part
  rw [BitVec.smulOverflow, toInt_sign, WideWord.toInt_ofWord, Bool.or_eq_false_iff,
    decide_eq_false_iff_not, decide_eq_false_iff_not]
  split <;> omega

theorem toInt_signed :
    (signed denominator part).toInt = (if denominator.toInt < 0 then -1 else 1) * part.toInt := by
  have inside : ¬(sign denominator).smulOverflow (WideWord.ofWord part) = true := by
    rw [smulOverflow_sign]
    exact Bool.false_ne_true
  rw [signed, BitVec.toInt_mul_of_not_smulOverflow inside, toInt_sign, WideWord.toInt_ofWord]

theorem divisor_ne_neg_one : divisor numerator denominator ≠ -1#128 := by
  intro same
  have value := toInt_divisor numerator denominator
  rw [same, show (-1#128).toInt = -1 from rfl] at value
  omega

theorem sdivOverflow_divisor :
    (signed denominator part).sdivOverflow (divisor numerator denominator) = false := by
  have noNegation : decide (divisor numerator denominator = .allOnes 128) = false :=
    decide_eq_false (divisor_ne_neg_one numerator denominator)
  rw [BitVec.sdivOverflow_eq, noNegation, Bool.and_false]

end Steps

/-! ## The normal form -/

def quotient (numerator denominator : Int64) : ℚ := numerator.toInt / denominator.toInt

section NormalForm

variable {numerator denominator : Int64} (divides : denominator ≠ 0)
include divides

theorem toInt_ne_zero : denominator.toInt ≠ 0 :=
  fun zero => divides (Int64.toInt_inj.mp zero)

/-- Where the divisor divides a part, it divides it exactly. -/
theorem toInt_sdiv {part : Int64}
    (divided : (Int.gcd numerator.toInt denominator.toInt : Int) ∣ part.toInt) :
    ((signed denominator part).sdiv (divisor numerator denominator)).toInt =
      denominator.toInt.sign * part.toInt / Int.gcd numerator.toInt denominator.toInt := by
  have some := toInt_ne_zero divides
  have positive := Int.gcd_pos_of_ne_zero_right numerator.toInt some
  have value : (divisor numerator denominator).toInt =
      Int.gcd numerator.toInt denominator.toInt := by
    rw [toInt_divisor]
    omega
  have sign : (if denominator.toInt < 0 then -1 else 1) = denominator.toInt.sign := by
    split
    next negative => exact (Int.sign_eq_neg_one_of_neg negative).symm
    next notNegative => exact (Int.sign_eq_one_of_pos (by omega)).symm
  rw [BitVec.toInt_sdiv_of_ne_or_ne _ _ (.inr (divisor_ne_neg_one _ _)), toInt_signed, value, sign,
    Int.tdiv_eq_ediv_of_dvd (divided.mul_left _)]

theorem toInt_numerator :
    ((signed denominator numerator).sdiv (divisor numerator denominator)).toInt =
      (quotient numerator denominator).num := by
  rw [toInt_sdiv divides (Int.gcd_dvd_left _ _), quotient, ← Rat.divInt_eq_div, Rat.num_divInt,
    Int.gcd_comm]

theorem toInt_denominator :
    ((signed denominator denominator).sdiv (divisor numerator denominator)).toInt =
      (quotient numerator denominator).den := by
  rw [toInt_sdiv divides (Int.gcd_dvd_right _ _), quotient, ← Rat.divInt_eq_div, Rat.den_divInt,
    if_neg (toInt_ne_zero divides), Int.gcd_comm, Int.sign_mul_self_eq_natAbs]
  rfl

end NormalForm

section Results

variable {numerator denominator : Int64} {fraction : Fraction}

theorem normalize?_eq_some_iff :
    normalize? numerator denominator = some fraction ↔ denominator ≠ 0 ∧
      fraction.numerator.toInt = (quotient numerator denominator).num ∧
      fraction.denominator.toInt = (quotient numerator denominator).den := by
  unfold normalize?
  split
  next zero => simp [zero]
  next divides =>
    dsimp only
    rw [toInt_numerator divides, toInt_denominator divides]
    constructor
    · intro made
      split at made
      next first second =>
        cases made
        exact ⟨divides, word?_eq_some_iff.mp first, word?_eq_some_iff.mp second⟩
      next => cases made
    · rintro ⟨-, first, second⟩
      rw [word?_eq_some_iff.mpr first, word?_eq_some_iff.mpr second]

theorem normalize?_eq_none_iff :
    normalize? numerator denominator = none ↔ denominator = 0 ∨
      ¬(IsWord (quotient numerator denominator).num ∧
        IsWord (quotient numerator denominator).den) := by
  rw [← not_iff_not, ← ne_eq, Option.ne_none_iff_exists', not_or, not_not, isWord_iff, isWord_iff]
  simp only [normalize?_eq_some_iff]
  constructor
  · rintro ⟨fraction, divides, first, second⟩
    exact ⟨divides, ⟨_, first⟩, ⟨_, second⟩⟩
  · rintro ⟨divides, ⟨first, isFirst⟩, ⟨second, isSecond⟩⟩
    exact ⟨⟨first, second⟩, divides, isFirst, isSecond⟩

theorem normal_of_normalize? (normal : normalize? numerator denominator = some fraction) :
    0 < fraction.denominator.toInt ∧
      Int.gcd fraction.numerator.toInt fraction.denominator.toInt = 1 ∧
      fraction.numerator.toInt * denominator.toInt =
        numerator.toInt * fraction.denominator.toInt := by
  rcases normalize?_eq_some_iff.mp normal with ⟨divides, first, second⟩
  have some : (denominator.toInt : ℚ) ≠ 0 := Int.cast_ne_zero.mpr (toInt_ne_zero divides)
  have positive := (quotient numerator denominator).den_pos
  have same : ((quotient numerator denominator).num : ℚ) / (quotient numerator denominator).den =
      numerator.toInt / denominator.toInt := Rat.num_div_den _
  rw [div_eq_div_iff (Nat.cast_ne_zero.mpr positive.ne') some] at same
  rw [first, second]
  exact ⟨Int.natCast_pos.mpr positive, (quotient numerator denominator).reduced,
    by exact_mod_cast same⟩

end Results

/-- No step of the normalisation loses anything: magnitudes are exact, the divisor is the greatest
common one, and neither the change of the sign nor the division leaves the wide words. -/
structure StaysInside (numerator denominator : Int64) : Prop where
  sizes : ∀ part ∈ [numerator, denominator], (magnitude part).toNat = part.toInt.natAbs
  divides : (divisor numerator denominator).toInt =
    max (Int.gcd numerator.toInt denominator.toInt) 1
  signs : ∀ part ∈ [numerator, denominator],
    (sign denominator).smulOverflow (WideWord.ofWord part) = false
  quotients : ∀ part ∈ [numerator, denominator],
    (signed denominator part).sdivOverflow (divisor numerator denominator) = false

/-- Normalisation is exact. There is a normal form unless the denominator is zero or the lowest
terms are no words; it has lowest terms, a positive denominator and the same value, and two normal
forms are the same if and only if they come from the same value. -/
theorem normalize?_exact (numerator denominator : Int64) :
    StaysInside numerator denominator ∧
    (normalize? numerator denominator = none ↔ denominator = 0 ∨
      ¬(IsWord (quotient numerator denominator).num ∧
        IsWord (quotient numerator denominator).den)) ∧
    (∀ fraction, normalize? numerator denominator = some fraction →
      0 < fraction.denominator.toInt ∧
      Int.gcd fraction.numerator.toInt fraction.denominator.toInt = 1 ∧
      fraction.numerator.toInt * denominator.toInt =
        numerator.toInt * fraction.denominator.toInt) ∧
    ∀ numerator' denominator' fraction fraction',
      normalize? numerator denominator = some fraction →
      normalize? numerator' denominator' = some fraction' →
      (fraction = fraction' ↔
        quotient numerator denominator = quotient numerator' denominator') := by
  refine ⟨?_, normalize?_eq_none_iff, fun _ => normal_of_normalize?, ?_⟩
  · exact ⟨fun part _ => toNat_magnitude part, toInt_divisor numerator denominator,
      fun part _ => smulOverflow_sign denominator part,
      fun part _ => sdivOverflow_divisor numerator denominator part⟩
  · intro numerator' denominator' fraction fraction' normal normal'
    rcases normalize?_eq_some_iff.mp normal with ⟨-, first, second⟩
    rcases normalize?_eq_some_iff.mp normal' with ⟨-, first', second'⟩
    constructor
    · rintro rfl
      exact Rat.ext (first.symm.trans first') (by omega)
    · intro same
      rw [← same] at first' second'
      have numerators := Int64.toInt_inj.mp (first.trans first'.symm)
      have denominators := Int64.toInt_inj.mp (second.trans second'.symm)
      exact congrArg₂ Fraction.mk numerators denominators

/-- The least word has no negation, but half of it has. -/
theorem least_word_normalized :
    normalize? Int64.minValue (-2) = some ⟨4611686018427387904, 1⟩ ∧
    normalize? 4611686018427387904 1 = some ⟨4611686018427387904, 1⟩ ∧
    (4611686018427387904 : Int64).toInt * (-2 : Int64).toInt =
      Int64.minValue.toInt * (1 : Int64).toInt ∧
    quotient Int64.minValue (-2) = quotient 4611686018427387904 1 := by
  have computed : normalize? Int64.minValue (-2) = some ⟨4611686018427387904, 1⟩ := by
    decide +kernel
  have itself : normalize? 4611686018427387904 1 = some ⟨4611686018427387904, 1⟩ := by
    decide +kernel
  rcases normalize?_exact Int64.minValue (-2) with ⟨-, -, lowest, same⟩
  exact ⟨computed, itself, (lowest _ computed).2.2, (same _ _ _ _ computed itself).mp rfl⟩

example : normalize? Int64.minValue (-1) = none := by decide +kernel

end Fraction

end Destructure.Number
