import Destructure.Text.Character

/-!
Decimal digits. The digits of a number are read back as the number; zeros in front of digits do
not count, and those behind them multiply by ten.
-/

namespace Destructure.Text

theorem isDigit_eq (character : Char) : isDigit character = character.isDigit := rfl

theorem natOfDigits_eq (digits : List Char) :
    natOfDigits digits = Nat.ofDigitChars 10 digits 0 := by
  rw [Nat.ofDigitChars_eq_foldl]
  rfl

theorem natOfDigits_digitsOfNat (number : Nat) : natOfDigits (digitsOfNat number) = number := by
  rw [natOfDigits_eq, digitsOfNat, Nat.ofDigitChars_ten_toDigits]

theorem natOfDigits_append_zeros (digits : List Char) (count : Nat) :
    natOfDigits (digits ++ List.replicate count '0') = natOfDigits digits * Nat.pow 10 count := by
  rw [natOfDigits_eq, natOfDigits_eq, Nat.ofDigitChars_append, Nat.ofDigitChars_replicate_zero,
    Nat.mul_comm]
  rfl

theorem natOfDigits_zeros_append (digits : List Char) (count : Nat) :
    natOfDigits (List.replicate count '0' ++ digits) = natOfDigits digits := by
  rw [natOfDigits_eq, natOfDigits_eq, Nat.ofDigitChars_append, Nat.ofDigitChars_replicate_zero,
    Nat.mul_zero]

theorem digitsOfNat_ne_nil (number : Nat) : digitsOfNat number ≠ [] := Nat.toDigits_ne_nil

theorem isDigit_of_mem_digitsOfNat {number : Nat} {digit : Char}
    (member : digit ∈ digitsOfNat number) : isDigit digit := by
  rw [isDigit_eq]
  exact Nat.isDigit_of_mem_toDigits (by decide) (by decide) member

/-- What holds of all digits of a base holds throughout a number written in it. -/
theorem forall_mem_toDigits {base : Nat} (large : 1 < base) {property : Char → Prop}
    (holds : ∀ digit < base, property (Nat.digitChar digit)) (number : Nat) :
    ∀ character ∈ Nat.toDigits base number, property character := by
  induction number using Nat.strongRecOn with
  | _ number induction =>
      rw [Nat.toDigits_eq_if large]
      split
      next below => exact List.forall_mem_singleton.mpr (holds number below)
      next notBelow =>
        have smaller : number / base < number := Nat.div_lt_self (by omega) large
        exact List.forall_mem_append.mpr ⟨induction _ smaller,
          List.forall_mem_singleton.mpr (holds _ (Nat.mod_lt _ (by omega)))⟩

/-! ## The longest run of a kind -/

section Runs

variable {property : Char → Bool} {run rest : List Char}

def Ends (property : Char → Bool) (rest : List Char) : Prop :=
  ∀ next ∈ rest.head?, property next = false

theorem takeWhile_run (inside : ∀ character ∈ run, property character)
    (ends : Ends property rest) : (run ++ rest).takeWhile property = run := by
  rw [List.takeWhile_append_of_pos inside]
  cases rest with
  | nil => simp
  | cons next rest =>
      have stops := ends next rfl
      rw [List.takeWhile_cons_of_neg (by rw [stops]; exact Bool.false_ne_true), List.append_nil]

end Runs

end Destructure.Text
