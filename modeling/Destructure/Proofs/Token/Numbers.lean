import Destructure.Proofs.Number.ReadingBack
import Destructure.Proofs.Token.Spelling

/-!
The texts of numbers, read as these numbers. A text is taken apart into its sign, the digits before
the point, those behind it and the exponent; what these stand for together is the decimal that was
written.
-/

namespace Destructure

open Text Number

namespace Lexeme

def signOf (negative : Bool) : List Char := if negative then ['-'] else []

def AllDigits (digits : List Char) : Prop := digits ≠ [] ∧ ∀ digit ∈ digits, isDigit digit

theorem allDigits_digitsOfNat (number : Nat) : AllDigits (digitsOfNat number) :=
  ⟨digitsOfNat_ne_nil number, fun _ => isDigit_of_mem_digitsOfNat⟩

theorem allDigits_zero : AllDigits ['0'] :=
  ⟨List.cons_ne_nil _ _, List.forall_mem_singleton.mpr (by decide)⟩

theorem AllDigits.append {digits others : List Char} (all : AllDigits digits)
    (more : ∀ digit ∈ others, isDigit digit) : AllDigits (digits ++ others) :=
  ⟨List.append_ne_nil_of_left_ne_nil all.1 _, List.forall_mem_append.mpr ⟨all.2, more⟩⟩

theorem head?_signed (negative : Bool) {whole : List Char} (digits : AllDigits whole)
    (behind : List Char) :
    ((signOf negative ++ (whole ++ behind)).head? == some '-') = negative := by
  cases negative with
  | true => rfl
  | false =>
      cases whole with
      | nil => exact absurd rfl digits.1
      | cons first others =>
          have digit := digits.2 first List.mem_cons_self
          apply beq_eq_false_iff_ne.mpr
          intro equal
          cases equal
          exact absurd digit (by decide)

theorem startsNumber_signed (negative : Bool) {whole : List Char} (digits : AllDigits whole)
    (behind : List Char) : startsNumber (signOf negative ++ (whole ++ behind)) := by
  cases whole with
  | nil => exact absurd rfl digits.1
  | cons first others =>
      have digit := digits.2 first List.mem_cons_self
      cases negative with
      | true => exact digit
      | false =>
          show startsNumber (first :: (others ++ behind))
          unfold startsNumber
          split
          next equal =>
            rw [(List.cons.inj equal).1] at digit
            exact absurd digit (by decide)
          next equal =>
            rw [(List.cons.inj equal).1] at digit
            exact digit
          next equal => cases equal

theorem exponentParts?_of_stops {rest : List Char} (stops : Stops rest) :
    exponentParts? rest = none := by
  cases rest with
  | nil => rfl
  | cons next others =>
      have outside := (stops next rfl).1
      have noMark : (next == 'e' || next == 'E') = false := by
        apply Bool.eq_false_iff.mpr
        intro mark
        rcases Bool.or_eq_true _ _ |>.mp mark with equal | equal
        · rw [eq_of_beq equal] at outside
          exact absurd outside (by decide)
        · rw [eq_of_beq equal] at outside
          exact absurd outside (by decide)
      simp only [exponentParts?, noMark, Bool.false_eq_true, if_false]

theorem read_number (afterName : Bool) {negative : Bool} {whole behind : List Char}
    (digits : AllDigits whole) {spelled : Spelled}
    (found : number? (signOf negative ++ (whole ++ behind)) = some spelled) :
    read afterName (signOf negative ++ (whole ++ behind)) = .ok spelled := by
  have starts := startsNumber_signed negative digits behind
  have split : ∃ first others, signOf negative ++ (whole ++ behind) = first :: others ∧
      first ∉ signs := by
    cases negative with
    | true => exact ⟨'-', _, rfl, by decide⟩
    | false =>
        cases whole with
        | nil => exact absurd rfl digits.1
        | cons first others =>
            refine ⟨first, others ++ behind, rfl, ?_⟩
            intro member
            have noDigits : signs.all fun sign => !isDigit sign := by decide
            have noDigit := List.all_eq_true.mp noDigits first member
            rw [digits.2 first List.mem_cons_self] at noDigit
            cases noDigit
  rcases split with ⟨first, others, split, noSign⟩
  rw [split] at starts found ⊢
  rw [read_of_not_sign afterName noSign, numberOrName, if_pos starts, found]

/-! ## The parts of a number -/

def pointed (fraction : List Char) : List Char :=
  if fraction.isEmpty then [] else '.' :: fraction

def exponentOf (sign digits : List Char) : Int :=
  if sign = ['-'] then -(natOfDigits digits : Int) else natOfDigits digits

/-- A number whose sign and digits are known is what comes behind them: an exponent or nothing. -/
theorem number?_split (negative : Bool) (fraction : List Char) {whole behind : List Char}
    (digits : AllDigits whole) (ends : Ends isDigit (pointed fraction ++ behind))
    (found : fractionDigits (pointed fraction ++ behind) = fraction) :
    number? (signOf negative ++ (whole ++ (pointed fraction ++ behind))) =
      match exponentParts? behind with
      | some (mark, sign, exponent) =>
        some ⟨.float (Numeral.toBinary64 ⟨negative, whole, fraction, exponentOf sign exponent⟩),
          signOf negative ++ (whole ++ (pointed fraction ++ mark :: (sign ++ exponent))),
          behind.drop (1 + sign.length + exponent.length)⟩
      | none =>
        if fraction.isEmpty then
          (word? (if negative then -(natOfDigits whole : Int) else natOfDigits whole)).map
            fun number => ⟨.int number, signOf negative ++ (whole ++ pointed fraction), behind⟩
        else
          some ⟨.float (Numeral.toBinary64 ⟨negative, whole, fraction, 0⟩),
            signOf negative ++ (whole ++ pointed fraction), behind⟩ := by
  have run := takeWhile_run digits.2 ends
  unfold number?
  simp only [head?_signed negative digits]
  rw [show (if negative = true then ['-'] else []) = signOf negative from rfl, List.drop_left, run,
    List.drop_left, found, show (if fraction.isEmpty = true then [] else '.' :: fraction) =
      pointed fraction from rfl, List.drop_left]
  simp only [List.append_assoc, List.cons_append]
  rfl

theorem ends_pointed {fraction behind : List Char} (ends : Ends isDigit behind) :
    Ends isDigit (pointed fraction ++ behind) := by
  cases fraction with
  | nil => exact ends
  | cons digit others =>
      intro next member
      cases member
      decide

theorem fractionDigits_pointed {fraction behind : List Char}
    (digits : ∀ digit ∈ fraction, isDigit digit) (ends : Ends isDigit behind)
    (noPoint : '.' ∉ behind.head?) : fractionDigits (pointed fraction ++ behind) = fraction := by
  cases fraction with
  | nil =>
      show fractionDigits behind = []
      unfold fractionDigits
      split
      next => exact absurd rfl noPoint
      next => rfl
  | cons digit others => exact takeWhile_run digits ends

theorem not_mem_head?_of_stops {rest : List Char} (stops : Stops rest) : '.' ∉ rest.head? :=
  fun member => (stops _ member).2.1 rfl

/-! ## Numbers without exponents -/

theorem number?_whole (negative : Bool) {whole rest : List Char} (digits : AllDigits whole)
    (stops : Stops rest) {number : Int64}
    (fits : word? (if negative then -(natOfDigits whole : Int) else natOfDigits whole) =
      some number) :
    number? (signOf negative ++ (whole ++ rest)) =
      some ⟨.int number, signOf negative ++ whole, rest⟩ := by
  have split := number?_split negative [] digits (ends_pointed stops.endsDigits)
    (fractionDigits_pointed (List.forall_mem_nil _) stops.endsDigits (not_mem_head?_of_stops stops))
  simp only [exponentParts?_of_stops stops, List.isEmpty_nil, if_true, fits, Option.map_some]
    at split
  rwa [show pointed [] = [] from rfl, List.nil_append, List.append_nil] at split

theorem number?_point (negative : Bool) {whole fraction rest : List Char}
    (digits : AllDigits whole) (digits' : AllDigits fraction) (stops : Stops rest) :
    number? (signOf negative ++ (whole ++ '.' :: (fraction ++ rest))) =
      some ⟨.float (Numeral.toBinary64 ⟨negative, whole, fraction, 0⟩),
        signOf negative ++ whole ++ '.' :: fraction, rest⟩ := by
  have some : fraction.isEmpty = false := by simpa using digits'.1
  have split := number?_split negative fraction digits (ends_pointed stops.endsDigits)
    (fractionDigits_pointed digits'.2 stops.endsDigits (not_mem_head?_of_stops stops))
  have point : pointed fraction = '.' :: fraction := by rw [pointed, some]; rfl
  simp only [exponentParts?_of_stops stops, some, Bool.false_eq_true, if_false, point,
    List.cons_append] at split
  rw [split, List.append_assoc]

/-! ## Numbers with exponents -/

theorem digitsOfInt_eq (number : Int) :
    digitsOfInt number = signOf (number < 0) ++ digitsOfNat number.natAbs := by
  rw [digitsOfInt, signOf]
  by_cases negative : number < 0
  · rw [if_pos negative, if_pos (decide_eq_true negative)]
    rfl
  · rw [if_neg negative, if_neg (by simpa using negative)]
    rfl

def IsMark (mark : Char) : Prop := mark = 'e' ∨ mark = 'E'

def IsExponentSign (sign : List Char) : Prop := sign = [] ∨ sign = ['+'] ∨ sign = ['-']

theorem isExponentSign_signOf (negative : Bool) : IsExponentSign (signOf negative) := by
  cases negative with
  | true => exact .inr (.inr rfl)
  | false => exact .inl rfl

theorem ends_of_isMark {mark : Char} (isMark : IsMark mark) (rest : List Char) :
    Ends isDigit (mark :: rest) := by
  intro next member
  cases member
  rcases isMark with rfl | rfl <;> decide

theorem exponentParts?_digits {mark : Char} (isMark : IsMark mark) {sign : List Char}
    (isSign : IsExponentSign sign) {digits rest : List Char} (all : AllDigits digits)
    (ends : Ends isDigit rest) :
    exponentParts? (mark :: (sign ++ (digits ++ rest))) = some (mark, sign, digits) := by
  have run := takeWhile_run all.2 ends
  have some : digits.isEmpty = false := by simpa using all.1
  have marked : (mark == 'e' || mark == 'E') = true := by
    rcases isMark with rfl | rfl <;> rfl
  rcases isSign with rfl | rfl | rfl
  · cases digits with
    | nil => exact absurd rfl all.1
    | cons first others =>
        have digit := all.2 first List.mem_cons_self
        simp only [exponentParts?, marked, if_true, List.nil_append]
        split
        next equal =>
          rw [(List.cons.inj equal).1] at digit
          exact absurd digit (by decide)
        next equal =>
          rw [(List.cons.inj equal).1] at digit
          exact absurd digit (by decide)
        next =>
          rw [List.length_nil, List.drop_zero, run, some]
          rfl
  · simp only [exponentParts?, marked, if_true, List.singleton_append, List.length_singleton,
      List.drop_one, List.tail_cons, run, some, Bool.false_eq_true, if_false]
  · simp only [exponentParts?, marked, if_true, List.singleton_append, List.length_singleton,
      List.drop_one, List.tail_cons, run, some, Bool.false_eq_true, if_false]

theorem drop_exponent (mark : Char) (sign exponent rest : List Char) :
    (mark :: (sign ++ (exponent ++ rest))).drop (1 + sign.length + exponent.length) = rest := by
  rw [Nat.add_assoc, Nat.add_comm 1, List.drop_succ_cons, ← List.append_assoc,
    ← List.length_append, List.drop_left]

theorem number?_exponential (negative : Bool) {whole fraction sign exponent rest : List Char}
    {mark : Char} (digits : AllDigits whole) (digits' : ∀ digit ∈ fraction, isDigit digit)
    (isMark : IsMark mark) (isSign : IsExponentSign sign) (size : AllDigits exponent)
    (ends : Ends isDigit rest) :
    number? (signOf negative ++
      (whole ++ (pointed fraction ++ mark :: (sign ++ (exponent ++ rest))))) =
      some ⟨.float (Numeral.toBinary64 ⟨negative, whole, fraction, exponentOf sign exponent⟩),
        signOf negative ++ (whole ++ (pointed fraction ++ mark :: (sign ++ exponent))), rest⟩ := by
  have marked := ends_of_isMark isMark (sign ++ (exponent ++ rest))
  have noPoint : '.' ∉ (mark :: (sign ++ (exponent ++ rest))).head? := by
    intro member
    cases member
    rcases isMark with isMark | isMark <;> cases isMark
  rw [number?_split negative fraction digits (ends_pointed marked)
    (fractionDigits_pointed digits' marked noPoint)]
  simp only [exponentParts?_digits isMark isSign size ends, drop_exponent]

theorem number?_exponent (negative : Bool) {whole fraction rest : List Char}
    (digits : AllDigits whole) (digits' : ∀ digit ∈ fraction, isDigit digit) (exponent : Int)
    (stops : Stops rest) :
    ∃ spelling, number? (signOf negative ++
      (whole ++ (pointed fraction ++ 'e' :: (digitsOfInt exponent ++ rest)))) =
        some ⟨.float (Numeral.toBinary64 ⟨negative, whole, fraction, exponent⟩), spelling,
          rest⟩ := by
  have size : exponentOf (signOf (exponent < 0)) (digitsOfNat exponent.natAbs) = exponent := by
    rw [exponentOf, natOfDigits_digitsOfNat]
    by_cases below : exponent < 0
    · rw [decide_eq_true below, if_pos (show signOf true = ['-'] from rfl)]
      omega
    · rw [decide_eq_false below, if_neg (by decide)]
      omega
  have found := number?_exponential negative digits digits' (.inl rfl)
    (isExponentSign_signOf (exponent < 0)) (allDigits_digitsOfNat exponent.natAbs)
    stops.endsDigits
  rw [size, ← List.append_assoc (signOf (exponent < 0)), ← digitsOfInt_eq] at found
  exact ⟨_, found⟩

/-! ## Integers -/

theorem read_int (afterName : Bool) (number : Int64) {rest : List Char} (stops : Stops rest) :
    ∃ spelling, read afterName (digitsOfInt number.toInt ++ rest) =
      .ok ⟨.int number, spelling, rest⟩ := by
  have digits := allDigits_digitsOfNat number.toInt.natAbs
  have magnitude : (if decide (number.toInt < 0) = true
      then -(natOfDigits (digitsOfNat number.toInt.natAbs) : Int)
      else natOfDigits (digitsOfNat number.toInt.natAbs)) = number.toInt := by
    rw [natOfDigits_digitsOfNat]
    by_cases negative : number.toInt < 0
    · rw [if_pos (decide_eq_true negative)]
      omega
    · rw [if_neg (by simpa using negative)]
      omega
  have found := number?_whole (number.toInt < 0) digits stops
    ((congrArg word? magnitude).trans (word?_toInt number))
  rw [digitsOfInt_eq, List.append_assoc]
  exact ⟨_, read_number afterName digits found⟩

/-! ## The texts of floating-point numbers -/

/-- The digits around the point are those of a numeral of the same value. -/
theorem exists_positional {digits : List Char} (all : AllDigits digits) (exponent : Int) :
    ∃ whole fraction, AllDigits whole ∧ AllDigits fraction ∧
      Binary64.positional digits (exponent + digits.length - 1) = whole ++ '.' :: fraction ∧
      Decimal.value ⟨natOfDigits (whole ++ fraction), 0 - fraction.length⟩ =
        Decimal.value ⟨natOfDigits digits, exponent⟩ := by
  have zeros : ∀ count, ∀ digit ∈ List.replicate count '0', isDigit digit := by
    intro count digit member
    rw [List.eq_of_mem_replicate member]
    decide
  have some : 0 < digits.length := List.length_pos_iff.mpr all.1
  rw [Binary64.positional]
  split
  next below =>
    refine ⟨['0'], List.replicate ((exponent + digits.length - 1).natAbs - 1) '0' ++ digits,
      allDigits_zero, ⟨List.append_ne_nil_of_right_ne_nil _ all.1,
        List.forall_mem_append.mpr ⟨zeros _, all.2⟩⟩, rfl, ?_⟩
    rw [← List.append_assoc, show ['0'] ++
        List.replicate ((exponent + digits.length - 1).natAbs - 1) '0' =
      List.replicate ((exponent + digits.length - 1).natAbs - 1 + 1) '0' from rfl,
      natOfDigits_zeros_append, List.length_append, List.length_replicate]
    congr 2
    omega
  next notBelow =>
    dsimp only
    split
    next short =>
      generalize count : (exponent + digits.length - 1).toNat + 1 - digits.length = zerosBehind
      refine ⟨digits ++ List.replicate zerosBehind '0', ['0'], all.append (zeros _),
        allDigits_zero, rfl, ?_⟩
      have shifted := Decimal.value_shift (natOfDigits digits) (zerosBehind + 1) exponent
      rw [List.append_assoc, show List.replicate zerosBehind '0' ++ ['0'] =
          List.replicate (zerosBehind + 1) '0' from List.replicate_succ'.symm,
        natOfDigits_append_zeros, ← shifted]
      congr 2
      simp only [List.length_singleton]
      omega
    next long =>
      generalize length : (exponent + digits.length - 1).toNat + 1 = wholeLength at long
      refine ⟨digits.take wholeLength, digits.drop wholeLength,
        ⟨?_, fun digit member => all.2 digit (List.mem_of_mem_take member)⟩,
        ⟨?_, fun digit member => all.2 digit (List.mem_of_mem_drop member)⟩, rfl, ?_⟩
      · apply List.ne_nil_of_length_pos
        rw [List.length_take]
        omega
      · apply List.ne_nil_of_length_pos
        rw [List.length_drop]
        omega
      · rw [List.take_append_drop, List.length_drop]
        congr 2
        omega

/-- The digits in front of the exponent are those of a numeral of the same value. -/
theorem exists_exponential {digits : List Char} (all : AllDigits digits) (exponent : Int) :
    ∃ whole fraction, AllDigits whole ∧ (∀ digit ∈ fraction, isDigit digit) ∧
      Binary64.exponential digits (exponent + digits.length - 1) =
        whole ++ (pointed fraction ++ 'e' :: digitsOfInt (exponent + digits.length - 1)) ∧
      Decimal.value ⟨natOfDigits (whole ++ fraction),
          exponent + digits.length - 1 - fraction.length⟩ =
        Decimal.value ⟨natOfDigits digits, exponent⟩ := by
  rcases digits with _ | ⟨first, _ | ⟨second, others⟩⟩
  · exact absurd rfl all.1
  · refine ⟨[first], [], all, List.forall_mem_nil _, rfl, ?_⟩
    congr 2
    simp only [List.length_singleton, List.length_nil]
    omega
  · rcases List.forall_mem_cons.mp all.2 with ⟨digit, digits⟩
    refine ⟨[first], second :: others, ⟨List.cons_ne_nil _ _, List.forall_mem_singleton.mpr digit⟩,
      digits, rfl, ?_⟩
    congr 2
    simp only [List.length_cons]
    omega

theorem toBinary64_of_standsFor {digits : List Char} {exponent : Int} {mantissa : Nat}
    {exponent' : Int} (negative : Bool) {whole fraction : List Char} {shift : Int}
    (holds : Decimal.StandsFor ⟨natOfDigits digits, exponent⟩ mantissa exponent')
    (same : Decimal.value ⟨natOfDigits (whole ++ fraction), shift - fraction.length⟩ =
      Decimal.value ⟨natOfDigits digits, exponent⟩) :
    Numeral.toBinary64 ⟨negative, whole, fraction, shift⟩ = .finite negative mantissa exponent' :=
  holds.congr same negative

theorem toBinary64_zeros (negative : Bool) :
    Numeral.toBinary64 ⟨negative, ['0'], ['0'], 0⟩ = .zero negative := by
  rw [Numeral.toBinary64, Binary64.ofDecimal]
  exact if_pos rfl

theorem text_eq_signed (negative : Bool) (mantissa : Nat) (exponent : Int) :
    (Binary64.finite negative mantissa exponent).text =
      signOf negative ++ (Binary64.finite negative mantissa exponent).magnitudeText := by
  cases negative <;> rfl

/-- The text of a finite number is read as the number. -/
theorem read_float (afterName negative : Bool) {mantissa : Nat} {exponent : Int}
    (canonical : Binary64.IsCanonical mantissa exponent) {rest : List Char} (stops : Stops rest) :
    ∃ spelling, read afterName ((Binary64.finite negative mantissa exponent).text ++ rest) =
      .ok ⟨.float (.finite negative mantissa exponent), spelling, rest⟩ := by
  rw [text_eq_signed, List.append_assoc, Binary64.magnitudeText]
  by_cases zero : mantissa = 0
  · have least : exponent = Binary64.leastExponent := by
      rcases canonical.full with full | least
      · rw [zero] at full
        exact absurd full (by decide)
      · exact least
    rw [zero, least, if_pos rfl]
    have found := number?_point negative allDigits_zero allDigits_zero stops
    rw [toBinary64_zeros] at found
    exact ⟨_, read_number afterName allDigits_zero found⟩
  · have holds : Decimal.StandsFor
        ⟨natOfDigits (digitsOfNat (Decimal.shortest mantissa exponent).digits),
          (Decimal.shortest mantissa exponent).exponent⟩ mantissa exponent := by
      rw [natOfDigits_digitsOfNat]
      exact Decimal.shortest_standsFor zero canonical
    have all := allDigits_digitsOfNat (Decimal.shortest mantissa exponent).digits
    simp only [if_neg zero]
    split
    next =>
      rcases exists_positional all (Decimal.shortest mantissa exponent).exponent with
        ⟨whole, fraction, digits, digits', text, same⟩
      have found := number?_point negative digits digits' stops
      rw [toBinary64_of_standsFor negative holds same] at found
      rw [text, List.append_assoc, List.cons_append]
      exact ⟨_, read_number afterName digits found⟩
    next =>
      rcases exists_exponential all (Decimal.shortest mantissa exponent).exponent with
        ⟨whole, fraction, digits, digits', text, same⟩
      rcases number?_exponent negative digits digits' _ stops with ⟨spelling, found⟩
      rw [toBinary64_of_standsFor negative holds same] at found
      rw [text, List.append_assoc, List.append_assoc, List.cons_append]
      exact ⟨spelling, read_number afterName digits found⟩

end Lexeme

end Destructure
