import Destructure.Proofs.Reading.ValueText

/-!
Texts on one line. A quotation spells out every character that ends a line, and neither names nor
numbers have one; so whatever strings there are in a value, its text stays on one line.

Main statement: `Value.oneLine_of_isLiteral`.
-/

namespace Destructure

open Number

namespace Text

def lineBreaks : List Char := ['\n', '\x0b', '\x0c', '\r', '\u0085', '\u2028', '\u2029']

def OneLine (text : List Char) : Prop := ∀ character ∈ text, character ∉ lineBreaks

/-! ## Characters -/

theorem not_mem_lineBreaks_of_isPrintable {character : Char} (printable : isPrintable character) :
    character ∉ lineBreaks := by
  intro isBreak
  have unprintable : lineBreaks.any isPrintable = false := by decide +kernel
  exact List.any_eq_false.mp unprintable character isBreak printable

theorem not_mem_lineBreaks_of_continuesName {character : Char}
    (continues : continuesName character) : character ∉ lineBreaks := by
  intro isBreak
  have outside : lineBreaks.any continuesName = false := by decide +kernel
  exact List.any_eq_false.mp outside character isBreak continues

-- The characters of the text are tried, not all that there are.
instance (text : List Char) : Decidable (OneLine text) :=
  List.decidableBAll (fun character => character ∉ lineBreaks) text

namespace OneLine

variable {text others : List Char}

@[simp] theorem nil : OneLine [] := List.forall_mem_nil _

@[simp] theorem cons_iff {character : Char} :
    OneLine (character :: text) ↔ character ∉ lineBreaks ∧ OneLine text := List.forall_mem_cons

@[simp] theorem append_iff : OneLine (text ++ others) ↔ OneLine text ∧ OneLine others :=
  List.forall_mem_append

theorem subset (oneLine : OneLine text) (subset : others ⊆ text) : OneLine others :=
  fun character member => oneLine character (subset member)

theorem replicate (count : Nat) {character : Char} (notBreak : character ∉ lineBreaks) :
    OneLine (List.replicate count character) := by
  intro other member
  rwa [List.eq_of_mem_replicate member]

theorem isName (isName : IsName text) : OneLine text := fun character member =>
  not_mem_lineBreaks_of_continuesName (isName.continues character member)

/-- Texts with commas between them are on one line if each of them is. -/
theorem commaSeparated_iff {texts : List (List Char)} :
    OneLine (commaSeparated texts) ↔ ∀ text ∈ texts, OneLine text := by
  induction texts with
  | nil => simp [commaSeparated]
  | cons first texts induction =>
      cases texts with
      | nil => simp [Reading.commaSeparated_singleton]
      | cons second texts =>
          have separator : OneLine [',', ' '] := by decide
          rw [Reading.commaSeparated_cons_cons, append_iff, append_iff, induction,
            List.forall_mem_cons (a := first), and_iff_left separator]

theorem flatMap_lineFeed (lines : List (List Char)) :
    (lines.flatMap fun line => line ++ ['\n']) = ['\n'].intercalate (lines ++ [[]]) := by
  induction lines with
  | nil => rfl
  | cons line lines induction =>
      rw [List.flatMap_cons, induction]
      cases lines <;> simp [List.intercalate]

/-- Lines can be told apart by the line feeds behind them. -/
theorem splitOn_lines {lines : List (List Char)} (oneLine : ∀ line ∈ lines, OneLine line) :
    (lines.flatMap fun line => line ++ ['\n']).splitOn '\n' = lines ++ [[]] := by
  have noBreaks : ∀ line ∈ lines, '\n' ∉ line := by
    intro line member isBreak
    exact oneLine line member '\n' isBreak (by decide)
  have closed : ∀ line ∈ lines ++ [[]], '\n' ∉ line :=
    List.forall_mem_append.mpr ⟨noBreaks, List.forall_mem_singleton.mpr List.not_mem_nil⟩
  rw [flatMap_lineFeed]
  exact List.splitOn_intercalate '\n' closed (by simp)

/-! ## Quotations -/

theorem codePointEscape (character : Char) : OneLine (Text.codePointEscape character) := by
  have digits : ∀ digit < 16, Nat.digitChar digit ∉ lineBreaks := by decide
  have number : OneLine (Nat.toDigits 16 character.toNat) :=
    forall_mem_toDigits (by decide) digits character.toNat
  have opening : OneLine ['\\', 'u', '\x7b'] := by decide
  have closing : OneLine ['\x7d'] := by decide
  exact append_iff.mpr ⟨append_iff.mpr ⟨opening, number⟩, closing⟩

/-- A character is spelled as a pair, by its code point, or as it is if it can be seen. -/
theorem escapeCharacter (style : QuotationStyle) (character : Char) :
    OneLine (Text.escapeCharacter style character) := by
  unfold Text.escapeCharacter
  -- The characters with a pair of their own come first.
  iterate 7
    split
    · decide
  split
  · exact codePointEscape character
  · split
    next printable =>
      exact List.forall_mem_singleton.mpr (not_mem_lineBreaks_of_isPrintable printable)
    next => exact codePointEscape character

theorem quoteText (text : List Char) : OneLine (Text.quoteText text) := by
  have quote : OneLine ['"'] := by decide
  have escaped : OneLine (escapeText text) := by
    cases text with
    | nil => exact nil
    | cons first rest =>
        rw [escapeText, append_iff]
        refine ⟨escapeCharacter .leading first, ?_⟩
        exact List.forall_mem_flatMap.mpr fun character _ => escapeCharacter .inner character
  exact append_iff.mpr ⟨append_iff.mpr ⟨quote, escaped⟩, quote⟩

/-! ## Numbers -/

theorem digitsOfNat (number : Nat) : OneLine (Text.digitsOfNat number) := by
  have digits : ∀ digit < 10, Nat.digitChar digit ∉ lineBreaks := by decide
  exact forall_mem_toDigits (by decide) digits number

theorem digitsOfInt (number : Int) : OneLine (Text.digitsOfInt number) := by
  unfold Text.digitsOfInt
  split
  · exact cons_iff.mpr ⟨by decide, digitsOfNat _⟩
  · exact digitsOfNat _

variable {digits : List Char} (oneLine : OneLine digits)
include oneLine

theorem positional (leading : Int) : OneLine (Binary64.positional digits leading) := by
  have zeros (count : Nat) : OneLine (List.replicate count '0') := replicate count (by decide)
  have first : OneLine (digits.take (leading.toNat + 1)) := oneLine.subset (List.take_subset _ _)
  have later : OneLine (digits.drop (leading.toNat + 1)) := oneLine.subset (List.drop_subset _ _)
  have zero : '0' ∉ lineBreaks := by decide
  have point : '.' ∉ lineBreaks := by decide
  unfold Binary64.positional
  split
  · simp [zero, point, zeros, oneLine]
  · dsimp only
    split
    · simp [zero, point, zeros, oneLine]
    · simp [point, first, later]

theorem exponential (leading : Int) : OneLine (Binary64.exponential digits leading) := by
  have point : '.' ∉ lineBreaks := by decide
  have mark : 'e' ∉ lineBreaks := by decide
  have exponent := digitsOfInt leading
  unfold Binary64.exponential
  split
  next first second rest =>
    simp only [cons_iff] at oneLine
    simp [point, mark, exponent, oneLine]
  next => simp [mark, exponent, oneLine]

omit oneLine

theorem magnitudeText (number : Binary64) : OneLine number.magnitudeText := by
  unfold Binary64.magnitudeText
  split
  · decide
  next negative mantissa exponent =>
    split
    · decide
    · dsimp only
      split
      · exact positional (digitsOfNat _) _
      · exact exponential (digitsOfNat _) _

theorem numberText (number : Binary64) : OneLine number.text := by
  unfold Binary64.text
  split
  · exact cons_iff.mpr ⟨by decide, magnitudeText number⟩
  · exact magnitudeText number

end OneLine

end Text

/-! ## Values -/

namespace Value

variable {α : Type} [Foreign α]

def OneLine (value : Value α) : Prop := Text.OneLine value.render

namespace OneLine

theorem list_iff {items : List (Value α)} :
    OneLine (.list items) ↔ ∀ item ∈ items, item.OneLine := by
  have opening : '[' ∉ Text.lineBreaks := by decide
  have closing : ']' ∉ Text.lineBreaks := by decide
  simp [OneLine, render, renderItems_eq, Text.OneLine.commaSeparated_iff, opening, closing]

theorem map_iff {entries : List (Value α × Value α)} :
    OneLine (.map entries) ↔ ∀ entry ∈ entries, entry.1.OneLine ∧ entry.2.OneLine := by
  have opening : '\x7b' ∉ Text.lineBreaks := by decide
  have closing : '\x7d' ∉ Text.lineBreaks := by decide
  have arrow : Text.OneLine [' ', '=', '>', ' '] := by decide
  simp only [OneLine, render, renderEntries_eq, Text.OneLine.append_iff, Text.OneLine.cons_iff,
    Text.OneLine.commaSeparated_iff, List.forall_mem_map, opening, closing, arrow,
    not_false_eq_true, Text.OneLine.nil, true_and, and_true]

theorem record_iff {tag : String} {fields : List (String × Value α)} :
    OneLine (.record tag fields) ↔ Text.OneLine tag.toList ∧
      ∀ field ∈ fields, Text.OneLine field.1.toList ∧ field.2.OneLine := by
  have opening : '\x7b' ∉ Text.lineBreaks := by decide
  have closing : '\x7d' ∉ Text.lineBreaks := by decide
  have colon : Text.OneLine [':', ' '] := by decide
  simp only [OneLine, render, renderFields_eq, Text.OneLine.append_iff, Text.OneLine.cons_iff,
    Text.OneLine.commaSeparated_iff, List.forall_mem_map, opening, closing, colon,
    not_false_eq_true, Text.OneLine.nil, true_and, and_true]

theorem string (text : String) : OneLine (.string text : Value α) := Text.OneLine.quoteText _

theorem int (number : Int64) : OneLine (.int number : Value α) := Text.OneLine.digitsOfInt _

theorem float (number : Binary64) : OneLine (.float number : Value α) :=
  Text.OneLine.numberText number

end OneLine

/-- What can be read has a text on one line. -/
theorem oneLine_of_isLiteral {readable : Binary64 → Prop} {value : Value α}
    (literal : IsLiteral readable value) : value.OneLine := by
  induction literal with
  | nil => exact (by decide : Text.OneLine ['n', 'i', 'l'])
  | bool truth =>
      cases truth with
      | true => exact (by decide : Text.OneLine ['t', 'r', 'u', 'e'])
      | false => exact (by decide : Text.OneLine ['f', 'a', 'l', 's', 'e'])
  | int number => exact .int number
  | float _ => exact .float _
  | string text => exact .string text
  | symbol isName => exact Text.OneLine.cons_iff.mpr ⟨by decide, .isName isName⟩
  | list items induction => exact OneLine.list_iff.mpr induction
  | map keys contents distinct induction inductionToo =>
      exact OneLine.map_iff.mpr fun entry member =>
        ⟨induction entry member, inductionToo entry member⟩
  | record isName free names contents induction =>
      exact OneLine.record_iff.mpr ⟨.isName isName, fun field member =>
        ⟨.isName (names field member), induction field member⟩⟩

end Value

end Destructure
