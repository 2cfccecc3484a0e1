import Destructure.Proofs.Text.Digits
import Destructure.Token.Lexer

/-!
Quoted text, read as a string. A backslash and a letter are read as what the letter stands for,
or as the letter itself. A quotation with nothing but such pairs and plain characters is read as
the text that was quoted; a code point in hexadecimal is not, because its pair is read as the
letter `u`.
-/

namespace Destructure.Text

def escapeLetters : List Char := ['0', 't', 'r', 'n', '\\', '"', '\'']

def IsPlain (style : QuotationStyle) (character : Char) : Prop :=
  escapeCharacter style character = [character] ∨
    ∃ letter ∈ escapeLetters, escapeCharacter style character = ['\\', letter]

def PlainText : List Char → Prop
  | [] => True
  | first :: rest => IsPlain .leading first ∧ ∀ character ∈ rest, IsPlain .inner character

/-! ## Reading quotations -/

def readEscape : List Char → List Char
  | '\\' :: letter :: others => Lexeme.unescape letter :: others
  | spelling => spelling

def reread : List Char → List Char
  | [] => []
  | first :: rest => readEscape (escapeCharacter .leading first) ++
      rest.flatMap fun character => readEscape (escapeCharacter .inner character)

def IsOrdinary (character : Char) : Prop := character ≠ '"' ∧ character ≠ '\\'

/-- A character is written as a pair that is read as the character, or as it is, or by its code
point. -/
theorem escapeCharacter_cases {style : QuotationStyle} (quotes : style.doubleQuote)
    (character : Char) :
    (∃ letter ∈ escapeLetters, escapeCharacter style character = ['\\', letter] ∧
      Lexeme.unescape letter = character) ∨
    (escapeCharacter style character = [character] ∧ IsOrdinary character) ∨
    escapeCharacter style character = codePointEscape character := by
  unfold escapeCharacter
  split
  case isTrue isNull => exact .inl ⟨'0', by decide, rfl, isNull.symm⟩
  split
  case isTrue isTab => exact .inl ⟨'t', by decide, rfl, isTab.symm⟩
  split
  case isTrue isReturn => exact .inl ⟨'r', by decide, rfl, isReturn.symm⟩
  split
  case isTrue isLine => exact .inl ⟨'n', by decide, rfl, isLine.symm⟩
  split
  case isTrue isBackslash => exact .inl ⟨'\\', by decide, rfl, isBackslash.symm⟩
  case isFalse notBackslash =>
    split
    case isTrue isQuote => exact .inl ⟨'"', by decide, rfl, isQuote.1.symm⟩
    case isFalse notQuote =>
      split
      case isTrue isQuote => exact .inl ⟨'\'', by decide, rfl, isQuote.1.symm⟩
      split
      · exact .inr (.inr rfl)
      split
      · refine .inr (.inl ⟨rfl, ?_, notBackslash⟩)
        intro isQuote
        exact notQuote ⟨isQuote, quotes⟩
      · exact .inr (.inr rfl)

theorem length_codePointEscape (character : Char) : 4 < (codePointEscape character).length := by
  have some := Nat.length_toDigits_pos (b := 16) (n := character.toNat)
  simp only [codePointEscape, List.length_cons, List.length_append, List.length_nil]
  omega

theorem not_isPlain_of_codePoint {style : QuotationStyle} {character : Char}
    (byCode : escapeCharacter style character = codePointEscape character) :
    ¬IsPlain style character := by
  have long := length_codePointEscape character
  rw [← byCode] at long
  rintro (same | ⟨letter, -, same⟩)
  · rw [same] at long
    exact absurd long (by decide : ¬4 < 1)
  · rw [same] at long
    exact absurd long (by decide : ¬4 < 2)

theorem readEscape_codePointEscape (character : Char) :
    readEscape (codePointEscape character) =
      'u' :: '\x7b' :: Nat.toDigits 16 character.toNat ++ ['\x7d'] := rfl

theorem readEscape_ordinary {character : Char} (ordinary : IsOrdinary character) :
    readEscape [character] = [character] := by
  unfold readEscape
  split
  next same =>
    cases same
  next => rfl

/-- Plain characters are read as themselves. -/
theorem readEscape_of_isPlain {style : QuotationStyle} (quotes : style.doubleQuote)
    {character : Char} (plain : IsPlain style character) :
    readEscape (escapeCharacter style character) = [character] := by
  rcases escapeCharacter_cases quotes character with ⟨letter, -, spelled, means⟩ |
    ⟨spelled, ordinary⟩ | byCode
  · rw [spelled, readEscape, means]
  · rw [spelled, readEscape_ordinary ordinary]
  · exact absurd plain (not_isPlain_of_codePoint byCode)

/-- Others are read as several characters. -/
theorem length_readEscape (style : QuotationStyle) (quotes : style.doubleQuote)
    (character : Char) :
    1 ≤ (readEscape (escapeCharacter style character)).length ∧
      (¬IsPlain style character →
        1 < (readEscape (escapeCharacter style character)).length) := by
  rcases escapeCharacter_cases quotes character with ⟨letter, member, spelled, means⟩ |
    ⟨spelled, ordinary⟩ | byCode
  · rw [spelled]
    exact ⟨Nat.le_refl _, fun notPlain => absurd (.inr ⟨letter, member, spelled⟩) notPlain⟩
  · rw [spelled, readEscape_ordinary ordinary]
    exact ⟨Nat.le_refl _, fun notPlain => absurd (.inl spelled) notPlain⟩
  · rw [byCode, readEscape_codePointEscape]
    simp

theorem length_le_reread (characters : List Char) :
    characters.length ≤
      (characters.flatMap fun character =>
        readEscape (escapeCharacter .inner character)).length := by
  induction characters with
  | nil => exact Nat.le_refl _
  | cons character characters induction =>
      have one := (length_readEscape .inner rfl character).1
      rw [List.flatMap_cons, List.length_append, List.length_cons]
      omega

theorem isPlain_of_length {characters : List Char}
    (short : (characters.flatMap fun character =>
      readEscape (escapeCharacter .inner character)).length ≤ characters.length) :
    ∀ character ∈ characters, IsPlain .inner character := by
  induction characters with
  | nil => exact List.forall_mem_nil _
  | cons character characters induction =>
      rw [List.flatMap_cons, List.length_append, List.length_cons] at short
      have rest := length_le_reread characters
      rcases length_readEscape .inner rfl character with ⟨one, several⟩
      refine List.forall_mem_cons.mpr ⟨?_, ?_⟩
      · apply Classical.byContradiction
        intro notPlain
        have longer := several notPlain
        omega
      · exact induction (by omega)

/-- A text is read back from its quotation exactly if all its characters are plain. -/
theorem reread_eq_iff (text : List Char) : reread text = text ↔ PlainText text := by
  cases text with
  | nil => exact ⟨fun _ => trivial, fun _ => rfl⟩
  | cons first rest =>
      constructor
      · intro same
        have lengths := congrArg List.length same
        rw [reread, List.length_append, List.length_cons] at lengths
        have others := length_le_reread rest
        rcases length_readEscape .leading rfl first with ⟨one, several⟩
        constructor
        · apply Classical.byContradiction
          intro notPlain
          have longer := several notPlain
          omega
        · exact isPlain_of_length (by omega)
      · rintro ⟨plain, plainRest⟩
        have others : (rest.flatMap fun character =>
            readEscape (escapeCharacter .inner character)) = rest := by
          rw [List.flatMap_def, List.map_congr_left fun character member =>
            readEscape_of_isPlain rfl (plainRest character member), ← List.flatMap_def,
            List.flatMap_singleton']
        rw [reread, readEscape_of_isPlain rfl plain, others]
        rfl

theorem isOrdinary_of_mem_toDigits (number : Nat) :
    ∀ character ∈ Nat.toDigits 16 number, IsOrdinary character := by
  have digits : ∀ digit < 16, Nat.digitChar digit ≠ '"' ∧ Nat.digitChar digit ≠ '\\' := by decide
  exact forall_mem_toDigits (by decide) digits number

end Text

namespace Lexeme

open Text

theorem stringBody?_ordinary {character : Char} (ordinary : IsOrdinary character)
    (rest : List Char) :
    stringBody? (character :: rest) =
      (stringBody? rest).map (Body.prepend [character] [character]) := by
  rcases ordinary with ⟨notQuote, notBackslash⟩
  rw [stringBody?.eq_def]
  split
  · rename_i equal
    cases equal
  · rename_i equal
    exact absurd (List.cons.inj equal).1 notQuote
  · rename_i equal
    exact absurd (List.cons.inj equal).1 notBackslash
  · rename_i equal
    exact absurd (List.cons.inj equal).1 notBackslash
  · rename_i equal
    cases equal
    rfl

theorem stringBody?_run {run : List Char} (ordinary : ∀ character ∈ run, IsOrdinary character)
    (rest : List Char) :
    stringBody? (run ++ rest) = (stringBody? rest).map (Body.prepend run run) := by
  induction run with
  | nil =>
      rw [List.nil_append]
      cases stringBody? rest <;> rfl
  | cons character run induction =>
      rcases List.forall_mem_cons.mp ordinary with ⟨here, later⟩
      rw [List.cons_append, stringBody?_ordinary here, induction later]
      cases stringBody? rest <;> rfl

/-- The spelling of a character in a quotation is read as a part of the string. -/
theorem stringBody?_escapeCharacter (style : QuotationStyle) (quotes : style.doubleQuote)
    (character : Char) (rest : List Char) :
    stringBody? (escapeCharacter style character ++ rest) =
      (stringBody? rest).map (Body.prepend (readEscape (escapeCharacter style character))
        (escapeCharacter style character)) := by
  rcases escapeCharacter_cases quotes character with ⟨letter, -, spelled, -⟩ |
    ⟨spelled, ordinary⟩ | byCode
  · rw [spelled]
    rfl
  · rw [spelled, readEscape_ordinary ordinary]
    exact stringBody?_ordinary ordinary rest
  · have ordinary : ∀ character' ∈ '\x7b' :: Nat.toDigits 16 character.toNat ++ ['\x7d'],
        IsOrdinary character' := by
      exact List.forall_mem_append.mpr
        ⟨List.forall_mem_cons.mpr ⟨⟨by decide, by decide⟩, isOrdinary_of_mem_toDigits _⟩,
          List.forall_mem_singleton.mpr ⟨by decide, by decide⟩⟩
    rw [byCode, readEscape_codePointEscape]
    have pair : stringBody? (codePointEscape character ++ rest) =
        (stringBody? (('\x7b' :: Nat.toDigits 16 character.toNat ++ ['\x7d']) ++ rest)).map
          (Body.prepend ['u'] ['\\', 'u']) := rfl
    rw [pair, stringBody?_run ordinary]
    cases stringBody? rest <;> rfl

theorem stringBody?_inner (characters rest : List Char) :
    stringBody? (characters.flatMap (escapeCharacter .inner) ++ rest) =
      (stringBody? rest).map (Body.prepend
        (characters.flatMap fun character => readEscape (escapeCharacter .inner character))
        (characters.flatMap (escapeCharacter .inner))) := by
  induction characters with
  | nil =>
      rw [List.flatMap_nil, List.nil_append]
      cases stringBody? rest <;> rfl
  | cons character characters induction =>
      rw [List.flatMap_cons, List.append_assoc,
        stringBody?_escapeCharacter .inner rfl, induction]
      cases stringBody? rest with
      | none => rfl
      | some body =>
          simp only [Option.map_some, Body.prepend, List.flatMap_cons, List.append_assoc]

/-- The body of a quotation is read up to the closing quote. -/
theorem stringBody?_escapeText (text rest : List Char) :
    stringBody? (escapeText text ++ '"' :: rest) =
      some ⟨reread text, escapeText text ++ ['"'], rest⟩ := by
  cases text with
  | nil => rfl
  | cons first others =>
      have closed : stringBody? ('"' :: rest) = some ⟨[], ['"'], rest⟩ := rfl
      rw [escapeText, List.append_assoc, stringBody?_escapeCharacter .leading rfl,
        stringBody?_inner, closed]
      simp only [Option.map_some, Body.prepend, List.append_nil, List.append_assoc]
      rfl

end Lexeme

end Destructure
