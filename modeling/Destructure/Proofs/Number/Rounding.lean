import Mathlib.Algebra.Order.Field.Power
import Mathlib.Data.Int.Log
import Mathlib.Data.Rat.Floor
import Mathlib.Tactic.FieldSimp
import Mathlib.Tactic.Positivity
import Mathlib.Tactic.Ring
import Destructure.Number.Shortest

/-!
What rounding to double precision depends on. The number nearest to a quotient is the same for
equal quotients, and the number of a decimal numeral is the same for numerals of equal value; so
zeros at the end of a numeral and shifts of its exponent do not matter. A value that a number has
exactly is rounded to that number.
-/

namespace Destructure.Number.Binary64

/-- What every number is like that comes from rounding: the mantissa fits, and it has all its bits
unless the exponent is the least one. -/
structure IsCanonical (mantissa : Nat) (exponent : Int) : Prop where
  fits : mantissa < mantissaLimit
  least : leastExponent ≤ exponent
  greatest : exponent ≤ greatestExponent
  full : mantissaLimit ≤ 2 * mantissa ∨ exponent = leastExponent

/-! ## Quotients -/

theorem scale_pos {denominator : Nat} (positive : 0 < denominator) (numerator : Nat)
    (exponent : Int) : 0 < (scale numerator denominator exponent).2 := by
  rw [scale]
  split
  · exact Nat.mul_pos positive (Nat.pow_pos Nat.two_pos)
  · exact positive

theorem scale_ratio {denominator : Nat} (positive : 0 < denominator) (numerator : Nat)
    (exponent : Int) :
    ((scale numerator denominator exponent).1 : ℚ) / (scale numerator denominator exponent).2 =
      numerator / denominator / (2 : ℚ) ^ exponent := by
  have nonzero : (denominator : ℚ) ≠ 0 := Nat.cast_ne_zero.mpr positive.ne'
  rw [scale]
  split
  next nonnegative =>
    obtain ⟨size, rfl⟩ := Int.eq_ofNat_of_zero_le nonnegative
    simp only [Int.toNat_natCast, zpow_natCast, Nat.pow_eq]
    push_cast
    rw [div_div]
  next negative =>
    obtain ⟨size, rfl⟩ := Int.eq_negSucc_of_lt_zero (Int.not_le.mp negative)
    simp only [Int.natAbs_negSucc, zpow_negSucc, Nat.pow_eq]
    push_cast
    field_simp

theorem log2_bounds {number : Nat} (positive : 0 < number) :
    (2 : ℚ) ^ (Nat.log2 number : Int) ≤ number ∧
      (number : ℚ) < (2 : ℚ) ^ ((Nat.log2 number : Int) + 1) := by
  constructor
  · rw [zpow_natCast]
    exact_mod_cast Nat.log2_self_le positive.ne'
  · rw [show ((Nat.log2 number : Int) + 1) = ((Nat.log2 number + 1 : Nat) : Int) by push_cast; rfl,
      zpow_natCast]
    exact_mod_cast Nat.lt_log2_self

/-- The unit is that in which the quotient has 53 bits, or the least one. -/
theorem unitExponent_eq {numerator denominator : Nat} (positive : 0 < numerator)
    (positive' : 0 < denominator) :
    unitExponent numerator denominator =
      max (Int.log 2 ((numerator : ℚ) / denominator) - 52) leastExponent := by
  have ratio : (0 : ℚ) < numerator / denominator := by positivity
  have cast : (0 : ℚ) < denominator := Nat.cast_pos.mpr positive'
  rcases log2_bounds positive with ⟨low, high⟩
  rcases log2_bounds positive' with ⟨low', high'⟩
  have above : (Nat.log2 numerator : Int) - (Nat.log2 denominator + 1) ≤
      Int.log 2 ((numerator : ℚ) / denominator) := by
    rw [← Int.zpow_le_iff_le_log Nat.one_lt_two ratio, Nat.cast_ofNat, zpow_sub₀ two_ne_zero]
    exact div_le_div₀ (Nat.cast_nonneg _) low cast high'.le
  have below : Int.log 2 ((numerator : ℚ) / denominator) <
      (Nat.log2 numerator : Int) + 1 - Nat.log2 denominator := by
    rw [← Int.lt_zpow_iff_log_lt Nat.one_lt_two ratio, Nat.cast_ofNat, zpow_sub₀ two_ne_zero]
    exact div_lt_div₀ high low' (by positivity) (by positivity)
  have reached : (scale numerator denominator
        ((Nat.log2 numerator : Int) - Nat.log2 denominator - 53)).2 * mantissaLimit ≤
      (scale numerator denominator
        ((Nat.log2 numerator : Int) - Nat.log2 denominator - 53)).1 ↔
      (Nat.log2 numerator : Int) - Nat.log2 denominator ≤
        Int.log 2 ((numerator : ℚ) / denominator) := by
    have positiveScaled : (0 : ℚ) < ((scale numerator denominator
        ((Nat.log2 numerator : Int) - Nat.log2 denominator - 53)).2 : ℚ) :=
      Nat.cast_pos.mpr (scale_pos positive' _ _)
    rw [← Int.zpow_le_iff_le_log Nat.one_lt_two ratio, Nat.cast_ofNat, ← Nat.cast_le (α := ℚ),
      mul_comm, Nat.cast_mul, ← le_div_iff₀ positiveScaled, scale_ratio positive',
      le_div_iff₀ (by positivity), show ((mantissaLimit : Nat) : ℚ) = (2 : ℚ) ^ (53 : Int) by
        rw [mantissaLimit, Nat.pow_eq]; norm_num, ← zpow_add₀ two_ne_zero]
    ring_nf
  rw [unitExponent]
  simp only [reached]
  split <;> congr 1 <;> omega

theorem roundQuotient_mul {factor : Nat} (positive : 0 < factor) (numerator denominator : Nat) :
    roundQuotient (factor * numerator) (factor * denominator) =
      roundQuotient numerator denominator := by
  have smaller : 2 * (factor * (numerator % denominator)) < factor * denominator ↔
      2 * (numerator % denominator) < denominator := by
    rw [Nat.mul_left_comm, Nat.mul_lt_mul_left positive]
  have larger : factor * denominator < 2 * (factor * (numerator % denominator)) ↔
      denominator < 2 * (numerator % denominator) := by
    rw [Nat.mul_left_comm, Nat.mul_lt_mul_left positive]
  simp only [roundQuotient, Nat.mul_div_mul_left _ _ positive, Nat.mul_mod_mul_left, smaller,
    larger]

/-- Equal quotients are rounded to the same natural number. -/
theorem roundQuotient_congr {numerator denominator numerator' denominator' : Nat}
    (positive : 0 < denominator) (positive' : 0 < denominator')
    (same : (numerator : ℚ) / denominator = numerator' / denominator') :
    roundQuotient numerator denominator = roundQuotient numerator' denominator' := by
  have crossed : denominator' * numerator = denominator * numerator' := by
    rw [div_eq_div_iff (by positivity) (by positivity)] at same
    have crossed : numerator * denominator' = numerator' * denominator := by exact_mod_cast same
    rw [Nat.mul_comm, crossed, Nat.mul_comm]
  rw [← roundQuotient_mul positive', crossed, Nat.mul_comm denominator' denominator,
    roundQuotient_mul positive]

/-- A quotient that is a natural number is rounded to it. -/
theorem roundQuotient_of_eq {numerator denominator number : Nat} (positive : 0 < denominator)
    (same : (numerator : ℚ) / denominator = number) :
    roundQuotient numerator denominator = number := by
  rw [roundQuotient_congr positive Nat.one_pos
    (show (numerator : ℚ) / denominator = (number : ℚ) / (1 : Nat) by rw [same]; simp)]
  simp [roundQuotient, Nat.mod_one]

/-- Rounding in a unit that is known. The unit is a variable here, as terms that mention its large
constants cannot be compared by evaluation. -/
theorem ofQuotient_of_unit (negative : Bool) {numerator denominator : Nat} {unit : Int}
    (nonzero : numerator ≠ 0) (known : unitExponent numerator denominator = unit) :
    ofQuotient negative numerator denominator =
      ofRounded negative (roundQuotient (scale numerator denominator unit).1
        (scale numerator denominator unit).2) unit := by
  unfold ofQuotient
  rw [known]
  rewrite [if_neg nonzero]
  rfl

/-- Equal quotients have the same nearest number. -/
theorem ofQuotient_congr (negative : Bool) {numerator denominator numerator' denominator' : Nat}
    (positive : 0 < denominator) (positive' : 0 < denominator')
    (same : (numerator : ℚ) / denominator = numerator' / denominator') :
    ofQuotient negative numerator denominator =
      ofQuotient negative numerator' denominator' := by
  have zeroIff : numerator = 0 ↔ numerator' = 0 := by
    rw [← Nat.cast_eq_zero (R := ℚ), ← Nat.cast_eq_zero (R := ℚ)]
    have nonzero : (denominator : ℚ) ≠ 0 := by positivity
    have nonzero' : (denominator' : ℚ) ≠ 0 := by positivity
    constructor
    · intro zero
      rw [zero, zero_div, eq_comm, div_eq_zero_iff] at same
      exact same.resolve_right nonzero'
    · intro zero
      rw [zero, zero_div, div_eq_zero_iff] at same
      exact same.resolve_right nonzero
  by_cases zero : numerator = 0
  · rw [ofQuotient, if_pos zero, ofQuotient, if_pos (zeroIff.mp zero)]
  · have zero' : ¬numerator' = 0 := fun equal => zero (zeroIff.mpr equal)
    have unit : unitExponent numerator denominator = unitExponent numerator' denominator' := by
      rw [unitExponent_eq (Nat.pos_of_ne_zero zero) positive,
        unitExponent_eq (Nat.pos_of_ne_zero zero') positive', same]
    rw [ofQuotient_of_unit negative zero unit, ofQuotient_of_unit negative zero' rfl]
    congr 1
    apply roundQuotient_congr (scale_pos positive _ _) (scale_pos positive' _ _)
    rw [scale_ratio positive, scale_ratio positive', same]

/-! ## Signs -/

def withSign (negative : Bool) : Binary64 → Binary64
  | finite _ mantissa exponent => finite negative mantissa exponent
  | infinite _ => infinite negative

theorem ofRounded_sign (negative : Bool) (mantissa : Nat) (exponent : Int) :
    ofRounded negative mantissa exponent =
      (ofRounded false mantissa exponent).withSign negative := by
  unfold ofRounded
  dsimp only
  split <;> split <;> rfl

theorem ofQuotient_sign (negative : Bool) (numerator denominator : Nat) :
    ofQuotient negative numerator denominator =
      (ofQuotient false numerator denominator).withSign negative := by
  by_cases zero : numerator = 0
  · rw [ofQuotient, if_pos zero, ofQuotient, if_pos zero]
    rfl
  · rw [ofQuotient_of_unit negative zero rfl, ofQuotient_of_unit false zero rfl, ofRounded_sign]

/-- Only the sign of a number depends on the sign of its numeral. -/
theorem ofDecimal_sign (negative : Bool) (digits : Nat) (exponent : Int) :
    ofDecimal negative digits exponent =
      (ofDecimal false digits exponent).withSign negative := by
  unfold ofDecimal
  dsimp only
  split
  · rfl
  · split
    · rfl
    · split
      · rfl
      · split <;> exact ofQuotient_sign negative _ _

/-! ## Decimals -/

theorem toDigits_bounds {digits : Nat} (nonzero : digits ≠ 0) :
    Nat.pow 10 ((Nat.toDigits 10 digits).length - 1) ≤ digits ∧
      digits < Nat.pow 10 (Nat.toDigits 10 digits).length := by
  have some := Nat.length_toDigits_pos (b := 10) (n := digits)
  constructor
  · rcases Nat.eq_or_lt_of_le some with single | several
    · rw [← single]
      exact Nat.pos_of_ne_zero nonzero
    · apply Nat.not_lt.mp
      intro less
      have shorter := (Nat.length_toDigits_le_iff (by decide) (by omega)).mpr less
      omega
  · exact (Nat.length_toDigits_le_iff (by decide) some).mp (Nat.le_refl _)

/-- The order of magnitude of a decimal is given by the number of its digits and its exponent. -/
theorem log_decimal {digits : Nat} (nonzero : digits ≠ 0) (exponent : Int) :
    ((Nat.toDigits 10 digits).length : Int) + exponent =
      Int.log 10 ((digits : ℚ) * (10 : ℚ) ^ exponent) + 1 := by
  have some := Nat.length_toDigits_pos (b := 10) (n := digits)
  rcases toDigits_bounds nonzero with ⟨low, high⟩
  have positive : (0 : ℚ) < (digits : ℚ) * (10 : ℚ) ^ exponent := by positivity
  have above : ((Nat.toDigits 10 digits).length : Int) - 1 + exponent ≤
      Int.log 10 ((digits : ℚ) * (10 : ℚ) ^ exponent) := by
    rw [← Int.zpow_le_iff_le_log (by decide) positive, Nat.cast_ofNat, zpow_add₀ (by norm_num),
      show ((Nat.toDigits 10 digits).length : Int) - 1 =
        (((Nat.toDigits 10 digits).length - 1 : Nat) : Int) by omega, zpow_natCast]
    apply mul_le_mul_of_nonneg_right _ (by positivity)
    exact_mod_cast low
  have below : Int.log 10 ((digits : ℚ) * (10 : ℚ) ^ exponent) <
      ((Nat.toDigits 10 digits).length : Int) + exponent := by
    rw [← Int.lt_zpow_iff_log_lt (by decide) positive, Nat.cast_ofNat, zpow_add₀ (by norm_num),
      zpow_natCast]
    apply mul_lt_mul_of_pos_right _ (by positivity)
    exact_mod_cast high
  omega

theorem zpow_toNat {base : ℚ} {exponent : Int} (nonnegative : 0 ≤ exponent) :
    base ^ exponent.toNat = base ^ exponent := by
  rw [← zpow_natCast, Int.toNat_of_nonneg nonnegative]

theorem zpow_natAbs {base : ℚ} {exponent : Int} (negative : ¬0 ≤ exponent) :
    (base ^ exponent.natAbs)⁻¹ = base ^ exponent := by
  rw [← zpow_natCast, ← zpow_neg]
  congr 1
  omega

/-- Within range, the number of a decimal is that of its value as a quotient. -/
theorem ofDecimal_eq_ofQuotient (negative : Bool) {digits numerator denominator : Nat}
    {exponent : Int} (positive : 0 < denominator) (nonzero : digits ≠ 0)
    (value : (digits : ℚ) * (10 : ℚ) ^ exponent = numerator / denominator)
    (small : Int.log 10 ((digits : ℚ) * (10 : ℚ) ^ exponent) + 1 ≤ 310)
    (large : -330 ≤ Int.log 10 ((digits : ℚ) * (10 : ℚ) ^ exponent) + 1) :
    ofDecimal negative digits exponent = ofQuotient negative numerator denominator := by
  rw [← log_decimal nonzero] at small large
  unfold ofDecimal
  dsimp only
  rw [if_neg nonzero, if_neg (Int.not_lt.mpr small), if_neg (Int.not_lt.mpr large)]
  split
  next nonnegative =>
    apply ofQuotient_congr negative Nat.one_pos positive
    rw [← value, Nat.pow_eq, Nat.cast_mul, Nat.cast_pow, Nat.cast_ofNat, Nat.cast_one, div_one,
      zpow_toNat nonnegative]
  next below =>
    apply ofQuotient_congr negative (Nat.pow_pos (by decide)) positive
    rw [← value, Nat.cast_pow, Nat.cast_ofNat, div_eq_mul_inv, zpow_natAbs below]

theorem exists_quotient (digits : Nat) (exponent : Int) :
    ∃ numerator denominator : Nat, 0 < denominator ∧
      (digits : ℚ) * (10 : ℚ) ^ exponent = numerator / denominator := by
  by_cases nonnegative : 0 ≤ exponent
  · refine ⟨digits * 10 ^ exponent.toNat, 1, Nat.one_pos, ?_⟩
    rw [Nat.cast_mul, Nat.cast_pow, Nat.cast_ofNat, Nat.cast_one, div_one,
      zpow_toNat nonnegative]
  · refine ⟨digits, 10 ^ exponent.natAbs, by positivity, ?_⟩
    rw [Nat.cast_pow, Nat.cast_ofNat, div_eq_mul_inv, zpow_natAbs nonnegative]

/-- Decimals of equal value stand for the same number. -/
theorem ofDecimal_congr (negative : Bool) {digits digits' : Nat} {exponent exponent' : Int}
    (same : (digits : ℚ) * (10 : ℚ) ^ exponent = (digits' : ℚ) * (10 : ℚ) ^ exponent') :
    ofDecimal negative digits exponent = ofDecimal negative digits' exponent' := by
  have power : ∀ size : Int, (10 : ℚ) ^ size ≠ 0 := fun size => zpow_ne_zero size (by norm_num)
  have zeroIff : digits = 0 ↔ digits' = 0 := by
    rw [← Nat.cast_eq_zero (R := ℚ), ← Nat.cast_eq_zero (R := ℚ),
      ← mul_eq_zero_iff_right (power exponent), same, mul_eq_zero_iff_right (power exponent')]
  by_cases zero : digits = 0
  · simp only [ofDecimal, if_pos zero, if_pos (zeroIff.mp zero)]
  · have zero' : ¬digits' = 0 := fun equal => zero (zeroIff.mpr equal)
    have magnitude : ((Nat.toDigits 10 digits).length : Int) + exponent =
        (Nat.toDigits 10 digits').length + exponent' := by
      rw [log_decimal zero, log_decimal zero', same]
    by_cases small : Int.log 10 ((digits : ℚ) * (10 : ℚ) ^ exponent) + 1 ≤ 310
    · by_cases large : -330 ≤ Int.log 10 ((digits : ℚ) * (10 : ℚ) ^ exponent) + 1
      · rcases exists_quotient digits exponent with ⟨numerator, denominator, positive, value⟩
        rw [ofDecimal_eq_ofQuotient negative positive zero value small large]
        rw [same] at value small large
        rw [ofDecimal_eq_ofQuotient negative positive zero' value small large]
      · rw [← log_decimal zero] at small large
        have tiny := Int.not_le.mp large
        simp only [ofDecimal, if_neg zero, if_neg zero', ← magnitude,
          if_neg (Int.not_lt.mpr small), if_pos tiny]
    · rw [← log_decimal zero] at small
      have huge := Int.not_le.mp small
      simp only [ofDecimal, if_neg zero, if_neg zero', ← magnitude, if_pos huge]

/-! ## Exact values -/

theorem ofRounded_of_canonical (negative : Bool) {mantissa : Nat} {exponent : Int}
    (canonical : IsCanonical mantissa exponent) :
    ofRounded negative mantissa exponent = finite negative mantissa exponent := by
  unfold ofRounded
  rw [if_neg canonical.fits.ne]
  exact if_neg (Int.not_lt.mpr canonical.greatest)

theorem cast_mantissaLimit : ((mantissaLimit : Nat) : ℚ) = (2 : ℚ) ^ (53 : Int) := by
  rw [mantissaLimit, Nat.pow_eq]
  norm_num

/-- The unit of a value that a number has exactly is the exponent of the number. -/
theorem unit_of_canonical {mantissa : Nat} {exponent : Int} (nonzero : mantissa ≠ 0)
    (canonical : IsCanonical mantissa exponent) :
    max (Int.log 2 ((mantissa : ℚ) * (2 : ℚ) ^ exponent) - 52) leastExponent = exponent := by
  have positive : (0 : ℚ) < (mantissa : ℚ) * (2 : ℚ) ^ exponent := by positivity
  have below : Int.log 2 ((mantissa : ℚ) * (2 : ℚ) ^ exponent) < 53 + exponent := by
    rw [← Int.lt_zpow_iff_log_lt (by decide) positive, Nat.cast_ofNat, zpow_add₀ two_ne_zero,
      ← cast_mantissaLimit]
    apply mul_lt_mul_of_pos_right _ (by positivity)
    exact_mod_cast canonical.fits
  have least := canonical.least
  rcases canonical.full with full | exponentLeast
  · have above : 52 + exponent ≤ Int.log 2 ((mantissa : ℚ) * (2 : ℚ) ^ exponent) := by
      rw [← Int.zpow_le_iff_le_log (by decide) positive, Nat.cast_ofNat, zpow_add₀ two_ne_zero]
      apply mul_le_mul_of_nonneg_right _ (by positivity)
      have doubled : ((mantissaLimit : Nat) : ℚ) ≤ 2 * mantissa := by exact_mod_cast full
      rw [cast_mantissaLimit, show (53 : Int) = 1 + 52 by norm_num, zpow_add₀ two_ne_zero,
        zpow_one] at doubled
      exact le_of_mul_le_mul_left doubled two_pos
    omega
  · omega

theorem ofQuotient_exact (negative : Bool) {mantissa numerator denominator : Nat}
    {exponent : Int} (nonzero : mantissa ≠ 0) (canonical : IsCanonical mantissa exponent)
    (positive : 0 < denominator)
    (value : (numerator : ℚ) / denominator = mantissa * (2 : ℚ) ^ exponent) :
    ofQuotient negative numerator denominator = finite negative mantissa exponent := by
  have power : (2 : ℚ) ^ exponent ≠ 0 := zpow_ne_zero exponent two_ne_zero
  have nonzero' : numerator ≠ 0 := by
    rintro rfl
    rw [Nat.cast_zero, zero_div, eq_comm, mul_eq_zero_iff_right power, Nat.cast_eq_zero] at value
    exact nonzero value
  have unit : unitExponent numerator denominator = exponent := by
    rw [unitExponent_eq (Nat.pos_of_ne_zero nonzero') positive, value,
      unit_of_canonical nonzero canonical]
  rw [ofQuotient_of_unit negative nonzero' unit,
    roundQuotient_of_eq (scale_pos positive _ _) (show _ = (mantissa : ℚ) by
      rw [scale_ratio positive, value, mul_div_cancel_right₀ _ power]),
    ofRounded_of_canonical negative canonical]

/-- The order of magnitude of a number is within the range in which decimals are rounded. -/
theorem log_of_canonical {mantissa : Nat} {exponent : Int} (nonzero : mantissa ≠ 0)
    (canonical : IsCanonical mantissa exponent) :
    Int.log 10 ((mantissa : ℚ) * (2 : ℚ) ^ exponent) < 310 ∧
      -331 ≤ Int.log 10 ((mantissa : ℚ) * (2 : ℚ) ^ exponent) := by
  have positive : (0 : ℚ) < (mantissa : ℚ) * (2 : ℚ) ^ exponent := by positivity
  constructor
  · rw [← Int.lt_zpow_iff_log_lt (by decide) positive, Nat.cast_ofNat]
    have largest : (2 : ℚ) ^ (53 : Int) * (2 : ℚ) ^ greatestExponent ≤ (10 : ℚ) ^ (310 : Int) := by
      have powers : ((2 ^ 1024 : Nat) : ℚ) ≤ ((10 ^ 310 : Nat) : ℚ) :=
        Nat.cast_le.mpr (by decide +kernel)
      rw [← zpow_add₀ two_ne_zero, show (53 : Int) + greatestExponent = 1024 from rfl]
      exact_mod_cast powers
    apply lt_of_lt_of_le _ largest
    apply mul_lt_mul
    · rw [← cast_mantissaLimit]
      exact_mod_cast canonical.fits
    · exact zpow_le_zpow_right₀ one_le_two canonical.greatest
    · positivity
    · positivity
  · rw [← Int.zpow_le_iff_le_log (by decide) positive, Nat.cast_ofNat]
    have least : (10 : ℚ) ^ (-331 : Int) ≤ (2 : ℚ) ^ leastExponent := by
      have powers : ((2 ^ 1074 : Nat) : ℚ) ≤ ((10 ^ 331 : Nat) : ℚ) :=
        Nat.cast_le.mpr (by decide +kernel)
      rw [leastExponent, zpow_neg, zpow_neg]
      apply inv_anti₀ (by positivity)
      exact_mod_cast powers
    apply le_trans least
    have one : (1 : ℚ) ≤ mantissa := by exact_mod_cast Nat.one_le_iff_ne_zero.mpr nonzero
    calc (2 : ℚ) ^ leastExponent ≤ (2 : ℚ) ^ exponent :=
          zpow_le_zpow_right₀ one_le_two canonical.least
      _ ≤ mantissa * (2 : ℚ) ^ exponent := le_mul_of_one_le_left (by positivity) one

/-- A decimal whose value a number has exactly stands for that number. -/
theorem ofDecimal_exact (negative : Bool) {mantissa digits : Nat} {exponent exponent' : Int}
    (nonzero : mantissa ≠ 0) (canonical : IsCanonical mantissa exponent)
    (value : (digits : ℚ) * (10 : ℚ) ^ exponent' = mantissa * (2 : ℚ) ^ exponent) :
    ofDecimal negative digits exponent' = finite negative mantissa exponent := by
  have nonzero' : digits ≠ 0 := by
    rintro rfl
    have power : (2 : ℚ) ^ exponent ≠ 0 := zpow_ne_zero exponent two_ne_zero
    rw [Nat.cast_zero, zero_mul, eq_comm, mul_eq_zero_iff_right power, Nat.cast_eq_zero] at value
    exact nonzero value
  rcases log_of_canonical nonzero canonical with ⟨small, large⟩
  rcases exists_quotient digits exponent' with ⟨numerator, denominator, positive, quotient⟩
  rw [ofDecimal_eq_ofQuotient negative positive nonzero' quotient (by rw [value]; omega)
    (by rw [value]; omega)]
  exact ofQuotient_exact negative nonzero canonical positive (quotient.symm.trans value)

/-! ## Results of rounding -/

theorem roundQuotient_bounds (numerator denominator : Nat) :
    numerator / denominator ≤ roundQuotient numerator denominator ∧
      roundQuotient numerator denominator ≤ numerator / denominator + 1 := by
  simp only [roundQuotient]
  split
  · omega
  · split <;> omega

theorem isCanonical_of_ofRounded {negative negative' : Bool} {rounded mantissa : Nat}
    {unit exponent : Int} (bounded : rounded ≤ mantissaLimit) (least : leastExponent ≤ unit)
    (full : mantissaLimit ≤ 2 * rounded ∨ unit = leastExponent)
    (result : ofRounded negative rounded unit = finite negative' mantissa exponent) :
    IsCanonical mantissa exponent := by
  have limit : mantissaLimit = 9007199254740992 := rfl
  unfold ofRounded at result
  dsimp only at result
  by_cases carried : rounded = mantissaLimit
  · rw [if_pos carried] at result
    split at result
    next => cases result
    next inRange =>
      cases result
      exact ⟨by omega, by omega, Int.not_lt.mp inRange, by omega⟩
  · rw [if_neg carried] at result
    split at result
    next => cases result
    next inRange =>
      cases result
      exact ⟨by omega, least, Int.not_lt.mp inRange, full⟩

theorem isCanonical_of_ofQuotient {negative negative' : Bool} {numerator denominator mantissa : Nat}
    {exponent : Int} (positive : 0 < denominator)
    (result : ofQuotient negative numerator denominator = finite negative' mantissa exponent) :
    IsCanonical mantissa exponent := by
  by_cases zero : numerator = 0
  · rw [ofQuotient, if_pos zero] at result
    cases result
    exact ⟨by decide, Int.le_refl _, by decide, .inr rfl⟩
  · have ratioPositive : (0 : ℚ) < numerator / denominator := by
      have numeratorPositive := Nat.pos_of_ne_zero zero
      positivity
    have known := unitExponent_eq (Nat.pos_of_ne_zero zero) positive
    generalize chosen : max (Int.log 2 ((numerator : ℚ) / denominator) - 52) leastExponent = unit
      at known
    rw [ofQuotient_of_unit negative zero known] at result
    have scaledPositive := scale_pos positive numerator unit
    have castPositive : (0 : ℚ) < (scale numerator denominator unit).2 :=
      Nat.cast_pos.mpr scaledPositive
    have ratio := scale_ratio positive numerator unit
    have power : (0 : ℚ) < (2 : ℚ) ^ unit := by positivity
    rcases roundQuotient_bounds (scale numerator denominator unit).1
      (scale numerator denominator unit).2 with ⟨floor, ceiling⟩
    have below : (scale numerator denominator unit).1 / (scale numerator denominator unit).2 <
        mantissaLimit := by
      rw [Nat.div_lt_iff_lt_mul scaledPositive, ← Nat.cast_lt (α := ℚ), Nat.cast_mul,
        ← div_lt_iff₀ castPositive, ratio, div_lt_iff₀ power, cast_mantissaLimit,
        ← zpow_add₀ two_ne_zero]
      apply lt_of_lt_of_le (Int.lt_zpow_succ_log_self Nat.one_lt_two _)
      rw [Nat.cast_ofNat]
      exact zpow_le_zpow_right₀ one_le_two (by omega)
    apply isCanonical_of_ofRounded (by omega) (by omega) _ result
    rcases Int.le_total (Int.log 2 ((numerator : ℚ) / denominator) - 52) leastExponent with
      small | normal
    · exact .inr (by omega)
    · left
      have above : 4503599627370496 ≤ (scale numerator denominator unit).1 /
          (scale numerator denominator unit).2 := by
        rw [Nat.le_div_iff_mul_le scaledPositive, ← Nat.cast_le (α := ℚ), Nat.cast_mul,
          ← le_div_iff₀ castPositive, ratio, le_div_iff₀ power,
          show ((4503599627370496 : Nat) : ℚ) = (2 : ℚ) ^ (52 : Int) by norm_num,
          ← zpow_add₀ two_ne_zero]
        have reached := Int.zpow_log_le_self Nat.one_lt_two ratioPositive
        rw [Nat.cast_ofNat] at reached
        exact le_trans (zpow_le_zpow_right₀ one_le_two (by omega)) reached
      have limit : mantissaLimit = 9007199254740992 := rfl
      omega

/-- What a numeral stands for is infinite or canonical. -/
theorem isCanonical_of_ofDecimal {negative negative' : Bool} {digits mantissa : Nat}
    {exponent exponent' : Int}
    (result : ofDecimal negative digits exponent' = finite negative' mantissa exponent) :
    IsCanonical mantissa exponent := by
  have zeroCanonical : IsCanonical 0 leastExponent :=
    ⟨by decide, Int.le_refl _, by decide, .inr rfl⟩
  unfold ofDecimal at result
  dsimp only at result
  split at result
  · cases result
    exact zeroCanonical
  · split at result
    · cases result
    · split at result
      · cases result
        exact zeroCanonical
      · split at result
        · exact isCanonical_of_ofQuotient Nat.one_pos result
        · exact isCanonical_of_ofQuotient (Nat.pow_pos (by decide)) result

end Destructure.Number.Binary64
