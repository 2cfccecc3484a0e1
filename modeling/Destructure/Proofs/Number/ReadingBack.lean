import Destructure.Number.Numeral
import Destructure.Proofs.Number.Rounding
import Destructure.Proofs.Text.Digits

/-!
The decimal that is written for a number stands for the number, also when zeros are put behind its
digits so that it has a point. Nothing else is needed of the search for few digits than that it
tries its candidates; if it finds none, all digits are written, and these are exact.
-/

namespace Destructure.Number

namespace Decimal

def value (decimal : Decimal) : ℚ := (decimal.digits : ℚ) * (10 : ℚ) ^ decimal.exponent

def StandsFor (decimal : Decimal) (mantissa : Nat) (exponent : Int) : Prop :=
  ∀ negative, Binary64.ofDecimal negative decimal.digits decimal.exponent =
    .finite negative mantissa exponent

theorem StandsFor.congr {decimal other : Decimal} {mantissa : Nat} {exponent : Int}
    (holds : decimal.StandsFor mantissa exponent) (same : other.value = decimal.value) :
    other.StandsFor mantissa exponent := by
  intro negative
  rw [← holds negative]
  exact Binary64.ofDecimal_congr negative same

theorem standsFor_of_readsBack {decimal : Decimal} {mantissa : Nat} {exponent : Int}
    (readsBack : decimal.readsBack mantissa exponent) :
    decimal.StandsFor mantissa exponent := by
  intro negative
  rw [Decimal.readsBack, beq_iff_eq] at readsBack
  rw [Binary64.ofDecimal_sign, readsBack]
  rfl

theorem value_shift (digits count : Nat) (exponent : Int) :
    value ⟨digits * Nat.pow 10 count, exponent - count⟩ = value ⟨digits, exponent⟩ := by
  rw [value, value, Nat.pow_eq, Nat.cast_mul, Nat.cast_pow, Nat.cast_ofNat, mul_assoc,
    ← zpow_natCast, ← zpow_add₀ (by norm_num), add_sub_cancel]

theorem value_trimZeros (bound : Nat) (decimal : Decimal) :
    (trimZeros bound decimal).value = decimal.value := by
  induction bound generalizing decimal with
  | zero => rfl
  | succ bound induction =>
      rw [trimZeros]
      split
      next ends =>
        have shifted := value_shift (decimal.digits / 10) 1 (decimal.exponent + 1)
        rw [show decimal.digits / 10 * Nat.pow 10 1 = decimal.digits by
            rw [Nat.pow_eq, Nat.pow_one]; omega,
          show decimal.exponent + 1 - (1 : Nat) = decimal.exponent by omega] at shifted
        rw [induction, ← shifted]
      next => rfl

theorem value_exact (mantissa : Nat) (exponent : Int) :
    (exact mantissa exponent).value = mantissa * (2 : ℚ) ^ exponent := by
  rw [exact]
  split
  next nonnegative =>
    rw [value, Nat.pow_eq, Nat.cast_mul, Nat.cast_pow, Nat.cast_ofNat, zpow_zero, mul_one,
      Binary64.zpow_toNat nonnegative]
  next negative =>
    rw [value, Nat.pow_eq, Nat.cast_mul, Nat.cast_pow, Nat.cast_ofNat, mul_assoc,
      ← Binary64.zpow_natAbs negative, ← Binary64.zpow_natAbs negative, ← inv_pow, ← inv_pow,
      ← mul_pow]
    norm_num

theorem standsFor_of_candidates {first second decimal : Decimal} {mantissa : Nat} {exponent : Int}
    (found : (if first.readsBack mantissa exponent then some first
      else if second.readsBack mantissa exponent then some second else none) = some decimal) :
    decimal.StandsFor mantissa exponent := by
  split at found
  next readsBack =>
    cases found
    exact standsFor_of_readsBack readsBack
  next =>
    split at found
    next readsBack =>
      cases found
      exact standsFor_of_readsBack readsBack
    next => cases found

theorem nearest?_standsFor {numerator denominator mantissa : Nat} {exponent unit : Int}
    {decimal : Decimal}
    (found : nearest? numerator denominator mantissa exponent unit = some decimal) :
    decimal.StandsFor mantissa exponent := by
  unfold nearest? at found
  exact standsFor_of_candidates found

variable {mantissa : Nat} {exponent : Int}
variable (nonzero : mantissa ≠ 0) (canonical : Binary64.IsCanonical mantissa exponent)
include nonzero canonical

theorem exact_standsFor : (exact mantissa exponent).StandsFor mantissa exponent := by
  intro negative
  exact Binary64.ofDecimal_exact negative nonzero canonical (value_exact mantissa exponent)

theorem search_standsFor (numerator denominator attempts : Nat) (unit : Int) :
    (search numerator denominator mantissa exponent attempts unit).StandsFor mantissa exponent := by
  induction attempts generalizing unit with
  | zero => exact exact_standsFor nonzero canonical
  | succ attempts induction =>
      rw [search]
      split
      next found => exact nearest?_standsFor found
      next => exact induction (unit - 1)

/-- The decimal that is written for a number stands for it. -/
theorem shortest_standsFor : (shortest mantissa exponent).StandsFor mantissa exponent :=
  (search_standsFor nonzero canonical _ _ 17 _).congr (value_trimZeros 17 _)

end Decimal

end Destructure.Number
