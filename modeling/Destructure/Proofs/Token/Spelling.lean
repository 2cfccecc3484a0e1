import Destructure.Proofs.Text.Digits
import Destructure.Proofs.Text.Quotation
import Destructure.Pattern.Printer

/-!
The spellings of lexemes other than numbers. Each is read as its lexeme when the text goes on with
something that is not part of it.
-/

namespace Destructure

open Text

namespace Text

/-! ## Characters of names -/

theorem toNat_bounds_of_isDigit {character : Char} (digit : isDigit character) :
    48 ≤ character.toNat ∧ character.toNat ≤ 57 := by
  simpa [isDigit, Char.le_def, UInt32.le_iff_toNat_le] using digit

theorem startsName_eq_false_of_isDigit {character : Char} (digit : isDigit character) :
    startsName character = false := by
  rcases toNat_bounds_of_isDigit digit with ⟨low, high⟩
  have noLetters : ∀ offset < 10, alphabeticRanges.contains (48 + offset) = false := by decide
  have noLetter := noLetters (character.toNat - 48) (by omega)
  rw [show 48 + (character.toNat - 48) = character.toNat by omega] at noLetter
  have notLine : (character == '_') = false := by
    apply beq_eq_false_iff_ne.mpr
    rintro rfl
    exact absurd high (by decide)
  rw [startsName, isAlphabetic, noLetter, notLine]
  rfl

theorem continuesName_of_isDigit {character : Char} (digit : isDigit character) :
    continuesName character := by
  rcases toNat_bounds_of_isDigit digit with ⟨low, high⟩
  have numbers : ∀ offset < 10, numericRanges.contains (48 + offset) = true := by decide
  have number := numbers (character.toNat - 48) (by omega)
  rw [show 48 + (character.toNat - 48) = character.toNat by omega] at number
  rw [continuesName, isAlphanumeric, isNumeric, number, Bool.or_true]
  rfl

theorem continuesName_of_startsName {character : Char} (starts : startsName character) :
    continuesName character := by
  simp only [startsName, Bool.or_eq_true] at starts
  simp only [continuesName, isAlphanumeric, Bool.or_eq_true]
  exact starts.imp_left .inl

structure IsName (name : List Char) : Prop where
  starts : ∃ first ∈ name.head?, startsName first
  continues : ∀ character ∈ name, continuesName character

theorem isName_iff (name : List Char) :
    (name.head?.any startsName && name.all continuesName) ↔ IsName name := by
  rw [Bool.and_eq_true, Option.any_eq_true, List.all_eq_true]
  constructor
  · rintro ⟨⟨first, member, starts⟩, continues⟩
    exact ⟨⟨first, member, starts⟩, continues⟩
  · rintro ⟨⟨first, member, starts⟩, continues⟩
    exact ⟨⟨first, member, starts⟩, continues⟩

instance (name : List Char) : Decidable (IsName name) := decidable_of_iff _ (isName_iff name)

theorem isName_takeWhile {first : Char} {rest : List Char} (starts : startsName first) :
    IsName ((first :: rest).takeWhile continuesName) where
  starts := by
    rw [List.takeWhile_cons_of_pos (continuesName_of_startsName starts)]
    exact ⟨first, rfl, starts⟩
  continues := List.all_eq_true.mp List.all_takeWhile

def Stops (rest : List Char) : Prop :=
  ∀ next ∈ rest.head?, continuesName next = false ∧ next ≠ '.' ∧ next ≠ '?'

theorem stops_nil : Stops [] := by
  intro next member
  cases member

theorem stops_cons {next : Char} (outside : continuesName next = false) (notPoint : next ≠ '.')
    (notMark : next ≠ '?') (rest : List Char) : Stops (next :: rest) := by
  intro other member
  cases member
  exact ⟨outside, notPoint, notMark⟩

theorem Stops.endsName {rest : List Char} (stops : Stops rest) : Ends continuesName rest :=
  fun next member => (stops next member).1

theorem Stops.endsDigits {rest : List Char} (stops : Stops rest) : Ends isDigit rest := by
  intro next member
  apply Bool.eq_false_iff.mpr
  intro digit
  have outside := (stops next member).1
  rw [continuesName_of_isDigit digit] at outside
  cases outside

end Text

namespace Lexeme

/-! ## Dispatch -/

def signs : List Char :=
  ['.', '(', '[', '\x7b', ')', ']', '\x7d', ',', '|', '&', '!', '=', ':', '"', '/']

theorem read_of_not_sign (afterName : Bool) {first : Char} (noSign : first ∉ signs)
    (rest : List Char) : read afterName (first :: rest) = numberOrName (first :: rest) := by
  unfold read
  split <;> first | rfl | (rename_i equal; cases equal; exact absurd (by decide) noSign)

theorem not_sign_of_startsName {first : Char} (starts : startsName first) : first ∉ signs := by
  intro member
  have noStarts : signs.all fun sign => !startsName sign := by decide
  have noStart := List.all_eq_true.mp noStarts first member
  rw [starts] at noStart
  cases noStart

theorem startsNumber_eq_false {first : Char} (notDigit : isDigit first = false)
    (notMinus : first ≠ '-') (rest : List Char) : startsNumber (first :: rest) = false := by
  unfold startsNumber
  split
  next equal => exact absurd (List.cons.inj equal).1 notMinus
  next equal =>
    cases equal
    exact notDigit
  next equal => cases equal

theorem numberOrName_startsName {first : Char} (starts : startsName first) (rest : List Char) :
    numberOrName (first :: rest) =
      .ok ⟨.name (String.ofList ((first :: rest).takeWhile continuesName)),
        (first :: rest).takeWhile continuesName,
        (first :: rest).drop ((first :: rest).takeWhile continuesName).length⟩ := by
  have notDigit : isDigit first = false := by
    apply Bool.eq_false_iff.mpr
    intro digit
    rw [startsName_eq_false_of_isDigit digit] at starts
    cases starts
  have notMinus : first ≠ '-' := by
    intro minus
    rw [minus] at starts
    exact absurd starts (by decide)
  rw [numberOrName, startsNumber_eq_false notDigit notMinus]
  simp only [Bool.false_eq_true, if_false, if_pos starts]

theorem blankRanges_ascending : blankRanges.Ascending 0 := by
  simp [CodeRanges.Ascending, blankRanges]

/-- What holds of the few characters in the ranges of layout holds of layout. -/
theorem of_isBlank (property : Char → Prop)
    (holds : ∀ range ∈ blankRanges, range.2 < range.1 + 11 ∧ ∀ offset < 11,
      range.2 < range.1 + offset ∨ property (Char.ofNat (range.1 + offset))) {character : Char}
    (blank : isBlank character) : property character := by
  rcases (CodeRanges.contains_iff blankRanges_ascending _).mp blank with
    ⟨range, member, low, high⟩
  rcases holds range member with ⟨narrow, inside⟩
  have here := inside (character.toNat - range.1) (by omega)
  rw [Nat.add_sub_cancel' low, Char.ofNat_toNat] at here
  exact here.resolve_left (by omega)

/-- Nothing that is read starts with layout. -/
theorem not_read_blank {afterName : Bool} {first : Char} {rest : List Char} (blank : isBlank first)
    (spelled : Spelled) : read afterName (first :: rest) ≠ .ok spelled := by
  have starts : first ∉ '-' :: signs ∧ isDigit first = false ∧ startsName first = false :=
    of_isBlank (fun character => character ∉ '-' :: signs ∧ isDigit character = false ∧
      startsName character = false) (by decide +kernel) blank
  rcases starts with ⟨noSign, noDigit, noName⟩
  rw [List.mem_cons, not_or] at noSign
  rcases noSign with ⟨notMinus, noSign⟩
  rw [read_of_not_sign afterName noSign, numberOrName, startsNumber_eq_false noDigit notMinus]
  simp only [Bool.false_eq_true, if_false, noName]
  intro read
  cases read

/-! ## Names and symbols -/

section Names

variable {name rest : List Char} (isName : IsName name) (ends : Ends continuesName rest)
include isName ends

theorem read_name (afterName : Bool) :
    read afterName (name ++ rest) = .ok ⟨.name (String.ofList name), name, rest⟩ := by
  have run := takeWhile_run isName.continues ends
  rcases isName.starts with ⟨first, member, starts⟩
  cases name with
  | nil => cases member
  | cons head others =>
      cases member
      rw [List.cons_append, read_of_not_sign afterName (not_sign_of_startsName starts),
        numberOrName_startsName starts, ← List.cons_append, run, List.drop_left]

theorem read_symbol :
    read false (':' :: (name ++ rest)) =
      .ok ⟨.symbol (String.ofList name), ':' :: name, rest⟩ := by
  have run := takeWhile_run isName.continues ends
  have read : read false (':' :: (name ++ rest)) = .ok (colonOrSymbol false (name ++ rest)) := rfl
  rcases isName.starts with ⟨first, member, starts⟩
  rw [read, colonOrSymbol, run]
  cases name with
  | nil => cases member
  | cons head others =>
      cases member
      simp only [starts, Bool.not_false, Bool.and_true, if_true, List.drop_left]

end Names

theorem read_colon (rest : List Char) :
    read true (':' :: rest) = .ok ⟨.colon, [':'], rest⟩ := by
  have read : read true (':' :: rest) = .ok (colonOrSymbol true rest) := rfl
  rw [read, colonOrSymbol]
  split
  next => simp
  next => rfl

/-! ## Strings -/

theorem read_quoteText (afterName : Bool) (text rest : List Char) :
    read afterName (quoteText text ++ rest) =
      .ok ⟨.string (String.ofList (reread text)), quoteText text, rest⟩ := by
  have body := stringBody?_escapeText text rest
  rw [quoteText, List.cons_append, List.cons_append, List.append_assoc, List.singleton_append,
    read, body]

/-! ## Regular expressions

In a source, a backslash always stands before the character that it belongs to, and that character
is not a slash: the slash is the one character whose backslash was taken away by reading. -/

inductive IsSource : List Char → Prop where
  | nil : IsSource []
  | pair {escaped source} : escaped ≠ '/' → IsSource source → IsSource ('\\' :: escaped :: source)
  | cons {character source} : character ≠ '\\' → IsSource source → IsSource (character :: source)

def guardSlash (character : Char) : List Char :=
  if character = '/' then ['\\', '/'] else [character]

theorem guardSlash_of_ne {character : Char} (notSlash : character ≠ '/') :
    guardSlash character = [character] := if_neg notSlash

theorem regexBody?_pair {escaped : Char} (notSlash : escaped ≠ '/') (rest : List Char) :
    regexBody? ('\\' :: escaped :: rest) =
      (regexBody? rest).map (Body.prepend ['\\', escaped] ['\\', escaped]) := by
  rw [regexBody?]
  exact notSlash

theorem regexBody?_guardSlash {character : Char} (notBackslash : character ≠ '\\')
    (rest : List Char) :
    regexBody? (guardSlash character ++ rest) =
      (regexBody? rest).map (Body.prepend [character] (guardSlash character)) := by
  by_cases isSlash : character = '/'
  · subst isSlash
    rfl
  · rw [guardSlash_of_ne isSlash, List.singleton_append, regexBody?]
    · exact isSlash
    · intro _ isBackslash
      exact absurd isBackslash notBackslash
    · intro _ _ isBackslash
      exact absurd isBackslash notBackslash
    · intro isBackslash
      exact absurd isBackslash notBackslash

/-- The text of a source between slashes is read as the source. -/
theorem regexBody?_source {source : List Char} (isSource : IsSource source) (rest : List Char) :
    regexBody? (source.flatMap guardSlash ++ '/' :: rest) =
      some ⟨source, source.flatMap guardSlash ++ ['/'], rest⟩ := by
  induction isSource with
  | nil => rfl
  | @pair escaped source notSlash isSource induction =>
      have spelled : ('\\' :: escaped :: source).flatMap guardSlash =
          '\\' :: escaped :: source.flatMap guardSlash := by
        rw [List.flatMap_cons, List.flatMap_cons, guardSlash_of_ne notSlash]
        rfl
      rw [spelled, List.cons_append, List.cons_append, regexBody?_pair notSlash, induction]
      rfl
  | cons notBackslash isSource induction =>
      rw [List.flatMap_cons, List.append_assoc, regexBody?_guardSlash notBackslash, induction]
      simp only [Option.map_some, Body.prepend, List.append_assoc]
      rfl

/-- Whatever is read as the body of a regular expression is a source. -/
theorem isSource_of_regexBody? (text : List Char) :
    ∀ body, regexBody? text = some body → IsSource body.meaning := by
  induction text using regexBody?.induct with
  | case1 =>
      intro body read
      cases read
  | case2 rest =>
      intro body read
      cases read
      exact .nil
  | case3 rest induction =>
      intro body read
      rw [regexBody?, Option.map_eq_some_iff] at read
      rcases read with ⟨inner, read, rfl⟩
      exact .cons (by decide) (induction inner read)
  | case4 escaped rest notSlash induction =>
      intro body read
      rw [regexBody?_pair notSlash, Option.map_eq_some_iff] at read
      rcases read with ⟨inner, read, rfl⟩
      exact .pair notSlash (induction inner read)
  | case5 =>
      intro body read
      cases read
  | case6 character rest notSlash notGuarded notPair notLast induction =>
      intro body read
      rw [regexBody?.eq_6 _ _ notSlash notGuarded notPair notLast, Option.map_eq_some_iff] at read
      rcases read with ⟨inner, read, rfl⟩
      refine .cons ?_ (induction inner read)
      intro isBackslash
      cases rest with
      | nil => exact notLast isBackslash rfl
      | cons escaped others => exact notPair escaped others isBackslash rfl

theorem read_regex (afterName : Bool) {regex : Regex} (isSource : IsSource regex.source.toList)
    (rest : List Char) :
    read afterName (regex.render ++ rest) = .ok ⟨.regex regex.source, regex.render, rest⟩ := by
  have body := regexBody?_source isSource rest
  have spelled : regex.render = '/' :: (regex.source.toList.flatMap guardSlash ++ ['/']) := rfl
  rw [spelled, List.cons_append, List.append_assoc, List.singleton_append, read, body]
  simp only [String.ofList_toList]

/-! ## Repetitions -/

def countDigits (minimum : Nat) : List Char :=
  if minimum = 0 then [] else digitsOfNat minimum

theorem natOfDigits_countDigits (minimum : Nat) : natOfDigits (countDigits minimum) = minimum := by
  rw [countDigits]
  split
  next zero =>
    rw [zero]
    rfl
  next => exact natOfDigits_digitsOfNat minimum

theorem isDigit_of_mem_countDigits {minimum : Nat} {digit : Char}
    (member : digit ∈ countDigits minimum) : isDigit digit := by
  rw [countDigits] at member
  split at member
  · cases member
  · exact isDigit_of_mem_digitsOfNat member

section Repetitions

variable (afterName : Bool) {digits : List Char} (all : ∀ digit ∈ digits, isDigit digit)
variable (small : natOfDigits digits < repetitionLimit) {rest : List Char}
include all small

theorem read_repetitionDigits (stops : Stops rest) :
    read afterName ('.' :: '.' :: (digits ++ rest)) =
      .ok ⟨.repetition (natOfDigits digits) false, '.' :: '.' :: digits, rest⟩ := by
  have run := takeWhile_run all stops.endsDigits
  have found : repetition? (digits ++ rest) =
      some ⟨.repetition (natOfDigits digits) false, '.' :: '.' :: digits, rest⟩ := by
    unfold repetition?
    simp only [run, if_neg (Nat.not_le.mpr small), List.drop_left]
    split
    next marked => exact absurd rfl (stops _ rfl).2.2
    next => rfl
  rw [read, found]

theorem read_lazyRepetitionDigits (rest : List Char) :
    read afterName ('.' :: '.' :: (digits ++ '?' :: rest)) =
      .ok ⟨.repetition (natOfDigits digits) true, '.' :: '.' :: (digits ++ ['?']), rest⟩ := by
  have ends : Ends isDigit ('?' :: rest) := by
    intro next member
    cases member
    decide
  have run := takeWhile_run all ends
  have found : repetition? (digits ++ '?' :: rest) =
      some ⟨.repetition (natOfDigits digits) true, '.' :: '.' :: (digits ++ ['?']), rest⟩ := by
    unfold repetition?
    simp only [run, if_neg (Nat.not_le.mpr small), List.drop_left]
    rfl
  rw [read, found]

end Repetitions

section Counts

variable (afterName : Bool) {minimum : Nat} (small : minimum < repetitionLimit) {rest : List Char}
include small

theorem read_repetition (stops : Stops rest) :
    read afterName ('.' :: '.' :: (countDigits minimum ++ rest)) =
      .ok ⟨.repetition minimum false, '.' :: '.' :: countDigits minimum, rest⟩ := by
  rw [← natOfDigits_countDigits minimum] at small
  have read := read_repetitionDigits afterName (fun _ => isDigit_of_mem_countDigits) small stops
  rwa [natOfDigits_countDigits] at read

theorem read_lazyRepetition (rest : List Char) :
    read afterName ('.' :: '.' :: (countDigits minimum ++ '?' :: rest)) =
      .ok ⟨.repetition minimum true, '.' :: '.' :: (countDigits minimum ++ ['?']), rest⟩ := by
  rw [← natOfDigits_countDigits minimum] at small
  have read := read_lazyRepetitionDigits afterName (fun _ => isDigit_of_mem_countDigits) small rest
  rwa [natOfDigits_countDigits] at read

end Counts

end Lexeme

end Destructure
