import Destructure.Text.Character

/-!
Quoted text. A quotation spells out line breaks, quotes, backslashes and whatever cannot be seen,
so that it stays on one line. Three styles differ in which quotes they spell out and in whether a
combining character is spelled out everywhere or only at the start of the text, where it has
nothing to combine with.
-/

namespace Destructure.Text

structure QuotationStyle where
  singleQuote : Bool
  doubleQuote : Bool
  combining : Bool

namespace QuotationStyle

def inner : QuotationStyle := ⟨true, true, false⟩

def leading : QuotationStyle := ⟨true, true, true⟩

def doubleQuoted : QuotationStyle := ⟨false, true, true⟩

def singleQuoted : QuotationStyle := ⟨true, false, true⟩

end QuotationStyle

def codePointEscape (character : Char) : List Char :=
  '\\' :: 'u' :: '\x7b' :: Nat.toDigits 16 character.toNat ++ ['\x7d']

def escapeCharacter (style : QuotationStyle) (character : Char) : List Char :=
  if character = '\x00' then ['\\', '0']
  else if character = '\t' then ['\\', 't']
  else if character = '\r' then ['\\', 'r']
  else if character = '\n' then ['\\', 'n']
  else if character = '\\' then ['\\', '\\']
  else if character = '"' ∧ style.doubleQuote then ['\\', '"']
  else if character = '\'' ∧ style.singleQuote then ['\\', '\'']
  else if style.combining && isGraphemeExtend character then codePointEscape character
  else if isPrintable character then [character]
  else codePointEscape character

def escapeText : List Char → List Char
  | [] => []
  | first :: rest =>
    escapeCharacter .leading first ++ rest.flatMap (escapeCharacter .inner)

def quoteText (text : List Char) : List Char := '"' :: escapeText text ++ ['"']

def quoteMessage (text : List Char) : List Char :=
  '"' :: text.flatMap (escapeCharacter .doubleQuoted) ++ ['"']

def quoteCharacter (character : Char) : List Char :=
  '\'' :: escapeCharacter .singleQuoted character ++ ['\'']

end Destructure.Text
